import WifiAdvisor.Proofs.Numbering

/-!
# Networks are announced, added and connected to

A network is added between the notice that says so and the request to connect to it, and no other
network is connected to. With the numbers going up by one, this says of every addition which advisor
made it and which network that advisor held.
-/
namespace WifiAdvisor

open Effect

/-- The record has to do with getting a network connected. -/
def Record.joins : Record → Bool
  | .networkAdded _ _ _ | .connect _ => true
  | _ => false

/-- Before each addition stands its notice, behind it the request to connect; there are no other
such requests. `Announces` is what the notice and the addition have to do with each other. -/
structure Framed (Announces : Int32 → Notice → NetworkId → NetworkConfig → UInt32 → Prop)
    (records : List Record) : Prop where
  added : ∀ front id config owner back, records = front ++ .networkAdded id config owner :: back →
    ∃ before slot notice after, front = before ++ [.notify slot notice] ∧
      back = .connect id :: after ∧ Announces slot notice id config owner
  connected : ∀ front id back, records = front ++ .connect id :: back →
    ∃ before config owner, front = before ++ [.networkAdded id config owner]

namespace Framed

variable {P Q : Int32 → Notice → NetworkId → NetworkConfig → UInt32 → Prop} {xs ys : List Record}

theorem of_quiet (h : ∀ record ∈ xs, record.joins = false) : Framed P xs where
  added front id config owner back heq := by
    have hmem : Record.networkAdded id config owner ∈ xs := by simp [heq]
    cases h _ hmem
  connected front id back heq := by
    have hmem : Record.connect id ∈ xs := by simp [heq]
    cases h _ hmem

theorem triple {slot : Int32} {notice : Notice} {id : NetworkId} {config : NetworkConfig}
    {owner : UInt32} (h : P slot notice id config owner) :
    Framed P [.notify slot notice, .networkAdded id config owner, .connect id] where
  added front other network user back heq := by
    rcases front with _ | ⟨x, _ | ⟨y, _ | ⟨z, front⟩⟩⟩
    · simp at heq
    · simp only [List.cons_append, List.nil_append, List.cons.injEq,
        Record.networkAdded.injEq] at heq
      obtain ⟨rfl, ⟨rfl, rfl, rfl⟩, rfl⟩ := heq
      exact ⟨[], slot, notice, [], rfl, rfl, h⟩
    · simp at heq
    · simp at heq
  connected front other back heq := by
    rcases front with _ | ⟨x, _ | ⟨y, _ | ⟨z, front⟩⟩⟩
    · simp at heq
    · simp at heq
    · simp only [List.cons_append, List.nil_append, List.cons.injEq, Record.connect.injEq] at heq
      obtain ⟨rfl, rfl, rfl, rfl⟩ := heq
      exact ⟨[.notify slot notice], config, owner, rfl⟩
    · simp at heq

theorem imp (h : Framed P xs)
    (hpq : ∀ slot notice id config owner, P slot notice id config owner →
      Q slot notice id config owner) : Framed Q xs where
  added front id config owner back heq := by
    obtain ⟨before, slot, notice, after, hfront, hback, hp⟩ :=
      h.added front id config owner back heq
    exact ⟨before, slot, notice, after, hfront, hback, hpq _ _ _ _ _ hp⟩
  connected := h.connected

/-- A split in the second part leaves the frame there, one in the first part leaves it where it
was: neither can fall between the parts. -/
theorem append (hx : Framed P xs) (hy : Framed P ys) : Framed P (xs ++ ys) where
  added front id config owner back heq := by
    rcases List.append_eq_append_iff.mp heq with ⟨mid, rfl, hys⟩ | ⟨mid, hxs, htail⟩
    · obtain ⟨before, slot, notice, after, rfl, hback, hp⟩ := hy.added mid id config owner back hys
      exact ⟨xs ++ before, slot, notice, after, (List.append_assoc _ _ _).symm, hback, hp⟩
    · cases mid with
      | nil =>
        obtain ⟨before, slot, notice, after, hnil, -⟩ := hy.added [] id config owner back htail.symm
        simp at hnil
      | cons c mid =>
        obtain ⟨rfl, rfl⟩ := List.cons.inj htail
        obtain ⟨before, slot, notice, after, hfront, rfl, hp⟩ :=
          hx.added front id config owner mid hxs
        exact ⟨before, slot, notice, after ++ ys, hfront, rfl, hp⟩
  connected front id back heq := by
    rcases List.append_eq_append_iff.mp heq with ⟨mid, rfl, hys⟩ | ⟨mid, hxs, htail⟩
    · obtain ⟨before, config, owner, rfl⟩ := hy.connected mid id back hys
      exact ⟨xs ++ before, config, owner, (List.append_assoc _ _ _).symm⟩
    · cases mid with
      | nil =>
        obtain ⟨before, config, owner, hnil⟩ := hy.connected [] id back htail.symm
        simp at hnil
      | cons c mid =>
        obtain ⟨rfl, rfl⟩ := List.cons.inj htail
        exact hx.connected front id mid hxs

theorem flatMap {α : Type} {f : α → List Record} {l : List α} (h : ∀ x ∈ l, Framed P (f x)) :
    Framed P (l.flatMap f) := by
  induction l with
  | nil => exact of_quiet (List.forall_mem_nil _)
  | cons x rest ih =>
    obtain ⟨hx, hrest⟩ := List.forall_mem_cons.mp h
    rw [List.flatMap_cons]
    exact hx.append (ih hrest)

end Framed

/-! ### What one advisor shows -/

namespace Advisor

variable {s : Surroundings} {a : Advisor} {e : Event} {held : Candidate} {config : NetworkConfig}

theorem quiet_of_numbers_nil {calls : List Effect} (hnumbers : numbers calls = [])
    (hconnections : connections calls = []) (index : Nat) (tag : String) :
    ∀ record ∈ emitted (calls.filterMap (Dispatcher.demand? index tag)), record.joins = false := by
  intro record hrecord
  obtain ⟨demand, hdemand, hemit⟩ := List.mem_filterMap.mp hrecord
  obtain ⟨c, hc, hasks⟩ := List.mem_filterMap.mp hdemand
  cases c with
  | add config owner answer =>
    cases answer with
    | ok id =>
      have hid : id ∈ numbers calls := List.mem_filterMap.mpr ⟨_, hc, rfl⟩
      rw [hnumbers] at hid
      cases hid
    | error rejection => cases hasks
  | connect id =>
    have hid : id ∈ connections calls := List.mem_filterMap.mpr ⟨_, hc, rfl⟩
    rw [hconnections] at hid
    cases hid
  | load key => cases hasks
  | _ =>
    cases hasks
    cases hemit
    try rfl

/-- An addition shows three records, the last calls of the request none. -/
theorem onConnect_records {id : NetworkId} (hp : a.phase = .recommending held)
    (hc : s.configure held = some config) (h : s.addNetwork config = .ok id) (index : Nat) :
    emitted ((a.onConnect s).2.filterMap (Dispatcher.demand? index a.identity.tag)) =
      [.notify a.identity.slot (Notice.compose .connecting a.identity.tag (some held)),
        .networkAdded id config ownerUid, .connect id] := by
  simp [onConnect, tally, hp, hc, request, h, count, block, withBlocklist, persist, armTimer,
    posting, Dispatcher.demand?, emitted, Demand.record?]

/-- In its step the advisor announces the network that it holds, and adds it. -/
structure Announces (s : Surroundings) (a : Advisor) (calls : List Effect) (slot : Int32)
    (notice : Notice) (id : NetworkId) (config : NetworkConfig) (owner : UInt32) : Prop where
  held : ∃ held, a.phase = .recommending held ∧ s.configure held = some config ∧
    notice = Notice.compose .connecting a.identity.tag (some held)
  slot : slot = a.identity.slot
  owner : owner = ownerUid
  given : numbers calls = [id]

theorem step_framed (s : Surroundings) (a : Advisor) (e : Event) (index : Nat) :
    Framed (Announces s a (a.step s e).2)
      (emitted ((a.step s e).2.filterMap (Dispatcher.demand? index a.identity.tag))) := by
  have hconnections := step_connections s a e
  cases step_attempt s a e with
  | accepted held config id he hp hc ha _ ht =>
    have hgiven : numbers (a.step s e).2 = [id] := by rw [← hconnections, ht.connected]
    have hrecords := onConnect_records hp hc ha index
    rw [← step_own_connect, ← he] at hrecords
    rw [hrecords]
    exact .triple ⟨⟨held, hp, hc, rfl⟩, rfl, rfl, hgiven⟩
  | refused held config rejection _ _ _ _ _ hk =>
    rw [hk.connected] at hconnections
    exact .of_quiet (quiet_of_numbers_nil hconnections.symm hk.connected index _)
  | unconfigured held _ _ _ hf =>
    rw [hf.connected] at hconnections
    exact .of_quiet (quiet_of_numbers_nil hconnections.symm hf.connected index _)
  | other _ hq =>
    rw [hq.connections] at hconnections
    exact .of_quiet (quiet_of_numbers_nil hconnections.symm hq.connections index _)

end Advisor

namespace NetworkConfig

theorem ofCandidate?_ssid {c : Candidate} {config : NetworkConfig}
    (h : ofCandidate? c = some config) : config.ssid = c.ssid ∧ c.ssid ≠ "" := by
  unfold ofCandidate? at h
  split at h
  · cases h
  · rename_i hempty
    obtain ⟨security, -, rfl⟩ := Option.map_eq_some_iff.mp h
    exact ⟨rfl, fun hssid => hempty (by rw [hssid]; rfl)⟩

end NetworkConfig

/-! ### Whole runs -/

namespace Dispatcher

variable {d : Dispatcher} {past : List Entry}

/-- In its turn on `e`, the advisor `a` at `index` announces and adds the network that it holds. -/
structure Acts (d : Dispatcher) (earlier : List Entry) (e : Entry) (index : Nat) (a : Advisor)
    (slot : Int32) (notice : Notice) (id : NetworkId) (network : NetworkConfig) (owner : UInt32) :
    Prop where
  placed : (d.after earlier).advisors[index]? = some a
  given : numbers ((d.after earlier).callsOf index e) = [id]
  shown : slot = a.identity.slot ∧ notice.kind = .connecting ∧ notice.tag = a.identity.tag ∧
    notice.ssid = some network.ssid
  held : ∃ held, a.phase = .recommending held ∧ network.ssid = held.ssid ∧ network.ssid ≠ ""
  owner : owner = ownerUid

/-- On some entry of the run, the advisor at `index` acts. -/
def Acted (d : Dispatcher) (past : List Entry) (index : Nat) (slot : Int32) (notice : Notice)
    (id : NetworkId) (network : NetworkConfig) (owner : UInt32) : Prop :=
  ∃ later e earlier a, past = later ++ e :: earlier ∧
    d.Acts earlier e index a slot notice id network owner

theorem callsOf_framed (d : Dispatcher) (earlier : List Entry) (e : Entry) {index : Nat}
    {a : Advisor} (ha : (d.after earlier).advisors[index]? = some a) :
    Framed (d.Acts earlier e index a)
      (emitted (((d.after earlier).callsOf index e).filterMap
        (demand? index a.identity.tag))) := by
  obtain ⟨number, -, hcalls⟩ := turnOn_eq (d.after earlier) e ha
  unfold turnOn turn at hcalls
  split at hcalls
  · rw [hcalls]
    exact .of_quiet (List.forall_mem_nil _)
  · rename_i event hevent
    rw [hcalls]
    refine (Advisor.step_framed _ a event index).imp ?_
    intro slot notice id network owner hacts
    obtain ⟨held, hphase, hconfig, rfl⟩ := hacts.held
    obtain ⟨hssid, hnamed⟩ := NetworkConfig.ofCandidate?_ssid hconfig
    have hnotice : (Notice.compose .connecting a.identity.tag (some held)).ssid = some held.ssid :=
      rfl
    have hgiven := hacts.given
    rw [← hcalls] at hgiven
    refine ⟨ha, hgiven, ⟨hacts.slot, rfl, rfl, ?_⟩, ⟨held, hphase, hssid, ?_⟩, hacts.owner⟩
    · rw [hnotice, hssid]
    · rwa [hssid]

theorem dispatch_framed (d : Dispatcher) (earlier : List Entry) (e : Entry) :
    Framed (fun slot notice id network owner =>
        ∃ index a, d.Acts earlier e index a slot notice id network owner)
      (emitted ((d.after earlier).dispatch e.now e.queued).2.2) := by
  have hdumped : ∀ record ∈ emitted (dumped (d.after earlier).advisors e),
      record.joins = false := by
    intro record hrecord
    unfold dumped at hrecord
    split at hrecord
    · obtain rfl := List.mem_singleton.mp hrecord
      rfl
    · cases hrecord
  rw [dispatch_demands rfl, emitted_append, emitted_flatMap]
  refine (Framed.of_quiet hdumped).append (Framed.flatMap ?_)
  intro p hp
  rw [List.mem_zipIdx_iff_getElem?, List.getElem?_map] at hp
  obtain ⟨a, ha, hidentity⟩ := Option.map_eq_some_iff.mp hp
  rw [← hidentity]
  refine (d.callsOf_framed earlier e ha).imp ?_
  intro slot notice id network owner hacts
  exact ⟨p.2, a, hacts⟩

theorem demands_framed (d : Dispatcher) (past : List Entry) :
    Framed (fun slot notice id network owner =>
        ∃ index, d.Acted past index slot notice id network owner)
      (emitted (d.demands past)) := by
  induction past with
  | nil => exact .of_quiet (List.forall_mem_nil _)
  | cons e past ih =>
    rw [demands, emitted_append]
    apply Framed.append
    · apply ih.imp
      rintro slot notice id network owner ⟨index, later, x, earlier, a, rfl, hacts⟩
      exact ⟨index, e :: later, x, earlier, a, rfl, hacts⟩
    · apply (d.dispatch_framed past e).imp
      rintro slot notice id network owner ⟨index, a, hacts⟩
      exact ⟨index, [], e, past, a, rfl, hacts⟩

theorem numbersOf_of_split {later earlier : List Entry} {e : Entry}
    (h : past = later ++ e :: earlier) {index : Nat} {id : NetworkId}
    (hid : id ∈ numbers ((d.after earlier).callsOf index e)) : id ∈ d.numbersOf index past := by
  subst h
  induction later with
  | nil => exact List.mem_append_right _ hid
  | cons x later ih => exact List.mem_append_left _ ih

variable {ε : Type} {config : Config} {opening : Millis} {load : Identity → Except ε Blocklist}
  {describe : ε → String}

theorem start_nextNetwork (h : Dispatcher.start config opening load describe = .ok d) :
    d.nextNetwork = 1 := by
  obtain ⟨as, -, h⟩ := bind_eq_ok h
  cases h
  rfl

theorem start_nominators (h : Dispatcher.start config opening load describe = .ok d) {index : Nat}
    {a : Advisor} (ha : d.advisors[index]? = some a) (id : NetworkId) :
    a.metrics.nominators.find? id = none := by
  obtain ⟨sets, -, hadvisors, -, -⟩ := start_ok h
  rw [hadvisors, List.getElem?_map] at ha
  obtain ⟨identity, -, rfl⟩ := Option.map_eq_some_iff.mp ha
  obtain ⟨-, -, -, -, hnominators, -, -⟩ := Advisor.start_books
    (.ofHost config.settings config.restrictions.toRestrictions (([] : List NetworkId).headD 0)
      opening)
    identity config.timing config.restrictions.supportsAddRestriction (.ok (sets identity))
  rw [Soloist.start, hnominators, SortedMap.find?_empty]

/-- What an advisor has booked is what it was given, all under its own nominator. -/
theorem booked_after (h : Dispatcher.start config opening load describe = .ok d)
    (past : List Entry) {index : Nat} {b : Advisor}
    (hb : (d.after past).advisors[index]? = some b) (id : NetworkId) :
    b.metrics.nominators.find? id =
      if id ∈ d.numbersOf index past then some b.identity.nominator else none :=
  nominators_after (fun _ ha => start_nominators h ha) past hb id

theorem mem_keys_after (h : Dispatcher.start config opening load describe = .ok d)
    (past : List Entry) {index : Nat} {b : Advisor}
    (hb : (d.after past).advisors[index]? = some b) (id : NetworkId) :
    id ∈ b.metrics.nominators.keys ↔ id ∈ d.numbersOf index past := by
  rw [SortedMap.mem_keys, booked_after h past hb]
  by_cases hid : id ∈ d.numbersOf index past
  · simp [hid]
  · simp [hid]

theorem after_length (d : Dispatcher) (past : List Entry) :
    (d.after past).advisors.length = d.advisors.length := by
  simpa using congrArg List.length (after_roster d past)

theorem Acted.booked (h : Dispatcher.start config opening load describe = .ok d) {index : Nat}
    {slot : Int32} {notice : Notice} {id : NetworkId} {network : NetworkConfig} {owner : UInt32}
    (hacted : d.Acted past index slot notice id network owner) :
    ∃ b, (d.after past).advisors[index]? = some b ∧
      b.metrics.nominators.find? id = some b.identity.nominator := by
  obtain ⟨later, e, earlier, a, hpast, hacts⟩ := hacted
  have hid : id ∈ d.numbersOf index past :=
    numbersOf_of_split hpast (by rw [hacts.given]; exact List.mem_singleton_self id)
  have hplaced : index < (d.after past).advisors.length := by
    have hindex := (List.getElem?_eq_some_iff.mp hacts.placed).1
    rw [after_length] at hindex ⊢
    exact hindex
  have hb := List.getElem?_eq_getElem hplaced
  refine ⟨_, hb, ?_⟩
  rw [booked_after h past hb, if_pos hid]

/-- While fewer than 2^31 - 1 networks were added, they have the numbers from one on, in order. Each
is announced by the advisor that holds it, added and connected to without anything in between, and
booked by that advisor under its nominator; the advisors share out the numbers among themselves. -/
theorem networks_numbered_and_booked (h : Dispatcher.start config opening load describe = .ok d)
    (past : List Entry) (hfew : (added (emitted (d.demands past))).length < 2 ^ 31 - 1) :
    let records := emitted (d.demands past)
    let count := (added records).length
    let now := d.after past
    (added records).map Int32.toInt = (List.range count).map (fun k : Nat => (k : Int) + 1) ∧
      Framed (fun slot notice id network owner => ∃ index b,
        d.Acted past index slot notice id network owner ∧ now.advisors[index]? = some b ∧
          b.metrics.nominators.find? id = some b.identity.nominator) records ∧
      now.advisors.Pairwise (fun a b =>
        a.metrics.nominators.keys.Disjoint b.metrics.nominators.keys) ∧
      ∀ id, (∃ a ∈ now.advisors, id ∈ a.metrics.nominators.keys) ↔
        1 ≤ id.toInt ∧ id.toInt ≤ count := by
  intro records count now
  have hadded : added records = consecutive 1 count := by
    have hgiven := (d.demands_added past).1
    rwa [start_nextNetwork h] at hgiven
  have hlength : now.advisors.length = d.advisors.length := d.after_length past
  have hperm := d.added_perm past
  refine ⟨?_, ?_, ?_, ?_⟩
  · rw [hadded, toInt_consecutive hfew]
  · apply (d.demands_framed past).imp
    rintro slot notice id network owner ⟨index, hacted⟩
    obtain ⟨b, hb, hbooked⟩ := hacted.booked h
    exact ⟨index, b, hacted, hb, hbooked⟩
  · have hnodup : (added records).Nodup := hadded ▸ nodup_consecutive hfew
    have hshared := (List.nodup_flatMap.mp (hperm.nodup_iff.mp hnodup)).2
    rw [List.pairwise_iff_getElem] at hshared ⊢
    intro i j hi hj hij id hid hjd
    have hdisjoint := hshared i j (by simp; omega) (by simp; omega) hij
    rw [List.getElem_range, List.getElem_range] at hdisjoint
    exact hdisjoint ((mem_keys_after h past (List.getElem?_eq_getElem hi) id).mp hid)
      ((mem_keys_after h past (List.getElem?_eq_getElem hj) id).mp hjd)
  · intro id
    rw [← mem_consecutive hfew, ← hadded, hperm.mem_iff, List.mem_flatMap]
    constructor
    · rintro ⟨a, ha, hid⟩
      obtain ⟨index, hindex, rfl⟩ := List.mem_iff_getElem.mp ha
      refine ⟨index, List.mem_range.mpr (by omega), ?_⟩
      exact (mem_keys_after h past (List.getElem?_eq_getElem hindex) id).mp hid
    · rintro ⟨index, hindex, hid⟩
      rw [List.mem_range] at hindex
      have hplaced : index < now.advisors.length := by omega
      refine ⟨now.advisors[index], List.getElem_mem hplaced, ?_⟩
      exact (mem_keys_after h past (List.getElem?_eq_getElem hplaced) id).mpr hid

open Arcade in
theorem networks_of_twins_numbered :
    Dispatcher.start twins 0 (fun _ => Except.ok ∅) id = .ok host ∧
      added (emitted (host.demands evening)) = [1, 2] ∧
      (host.after evening).advisors.Pairwise (fun a b =>
        a.metrics.nominators.keys.Disjoint b.metrics.nominators.keys) := by
  have hstart : Dispatcher.start twins 0 (fun _ => Except.ok ∅) id = .ok host := rfl
  have hadded : added (emitted (host.demands evening)) = [1, 2] := by decide +kernel
  have hfew : (added (emitted (host.demands evening))).length < 2 ^ 31 - 1 := by
    rw [hadded]
    decide
  exact ⟨hstart, hadded, (networks_numbered_and_booked hstart evening hfew).2.2.1⟩

end Dispatcher

end WifiAdvisor
