import WifiAdvisor.Proofs.Installation

/-!
# What the store holds when saving may fail

The advisor never learns whether a save went through, so failures change the store and nothing
else. Under its key the store holds the set of the latest save that went through; memory is ahead
of it by the saves that failed, and by the names of late loads, which are merged but not saved.
-/
namespace WifiAdvisor

open Effect

theorem Advisor.mem_blocklist_of_quiet {s : Surroundings} {a : Advisor} {e : Event}
    (h : saves (a.step s e).2 = []) (ssid : String) :
    ssid ∈ (a.step s e).1.blocklist ↔ ssid ∈ a.blocklist ∨ ssid ∈ e.carried := by
  cases step_blocklist s a e with
  | rejected other _ hb => simp [hb.saved] at h
  | connected other _ _ hb => simp [hb.saved] at h
  | restored ssids he hb =>
    subst he
    rw [hb.blocklist]
    exact Blocklist.mem_merge
  | kept _ _ hr hb =>
    rw [hb.blocklist]
    cases e with
    | restored ssids => exact (hr ssids rfl).elim
    | _ => simp [Event.carried]

namespace Turn

/-- One session goes on, and nobody else writes under its key. -/
def Within (key : String) (t : Turn) : Prop := ¬ t.Begins ∧ t.Respects key

/-- The same turn with the store in order. -/
def mended : Turn → Turn
  | .event d => .event { d with fault := none }
  | t => t

def carried : Turn → List String
  | .event d => d.event.carried
  | _ => []

end Turn

namespace Installation

variable {w v : Installation} {t : Turn} {key other : String} {past : List Turn}

/-- The calls made on each turn of a run. -/
def log (w : Installation) : List Turn → List (List Effect)
  | [] => []
  | t :: past => (w.through past).calls t :: w.log past

/-- The set written by the latest save that went through. -/
def lastSaved (w : Installation) : List Turn → Option Blocklist
  | [] => none
  | .event d :: past =>
    if d.fault = none then
      ((saves ((w.through past).callsOn d)).getLast?.map Prod.snd).or (w.lastSaved past)
    else w.lastSaved past
  | _ :: past => w.lastSaved past

/-- The names brought by late loads since the latest save. -/
def restoredSinceSave (w : Installation) : List Turn → List String
  | [] => []
  | t :: past =>
    if saves ((w.through past).calls t) = [] then t.carried ++ w.restoredSinceSave past else []

theorem calls_of_advisor (h : w.advisor = v.advisor) (ht : ¬ t.Begins) :
    w.calls t = v.calls t.mended := by
  cases t with
  | session o => exact (ht trivial).elim
  | event d => simp only [calls, callsOn, Turn.mended, h]
  | foreign other set => rfl

theorem next_advisor_of_advisor (h : w.advisor = v.advisor) (ht : ¬ t.Begins) :
    (w.next t).advisor = (v.next t.mended).advisor := by
  cases t with
  | session o => exact (ht trivial).elim
  | event d => simp only [next, deliver, Turn.mended, h]
  | foreign other set => exact h

theorem through_mended_advisor (w : Installation) (h : ∀ t ∈ past, ¬ t.Begins) :
    (w.through past).advisor = (w.through (past.map Turn.mended)).advisor := by
  induction past with
  | nil => rfl
  | cons t past ih =>
    obtain ⟨ht, hpast⟩ := List.forall_mem_cons.mp h
    exact next_advisor_of_advisor (ih hpast) ht

theorem log_mended (w : Installation) (h : ∀ t ∈ past, ¬ t.Begins) :
    w.log past = w.log (past.map Turn.mended) := by
  induction past with
  | nil => rfl
  | cons t past ih =>
    obtain ⟨ht, hpast⟩ := List.forall_mem_cons.mp h
    have hcalls := calls_of_advisor (through_mended_advisor w hpast) ht
    rw [List.map_cons, log, log, ih hpast, hcalls]

theorem deliver_untouched (w : Installation) (d : Delivery)
    (h : other ≠ w.advisor.identity.storeKey) :
    (w.deliver d).store.sets.find? other = w.store.sets.find? other := by
  by_cases hf : d.fault = none
  · rcases Advisor.step_saves d.surroundings w.advisor d.event with ⟨-, hs⟩ | ⟨-, hs⟩
    · rw [deliver, callsOn, hf, Store.Memory.keep_of_saves hs]
      exact SortedMap.find?_insert_of_ne _ h _
    · rw [deliver, callsOn, Store.Memory.keep_of_quiet _ hs]
  · rw [deliver, Store.Memory.keep_of_fault hf]

theorem stored_through (hown : w.advisor.identity.storeKey = key)
    (h : ∀ t ∈ past, t.Within key) :
    (w.through past).store.sets.find? key = (w.lastSaved past).or (w.store.sets.find? key) := by
  induction past with
  | nil => rfl
  | cons t past ih =>
    obtain ⟨⟨hb, hr⟩, hpast⟩ := List.forall_mem_cons.mp h
    have hp := ih hpast
    have hk : (w.through past).advisor.identity.storeKey = key :=
      through_key hown fun u hu => (hpast u hu).2
    cases t with
    | session o => exact (hb trivial).elim
    | event d =>
      by_cases hf : d.fault = none
      · rcases Advisor.step_saves d.surroundings (w.through past).advisor d.event
          with ⟨-, hs⟩ | ⟨-, hs⟩
        · rw [through, next, deliver, callsOn, hf, Store.Memory.keep_of_saves hs, lastSaved,
            if_pos hf, callsOn, hs, hk]
          simp [Store.Memory.save, Store.Memory.fill]
        · rw [through, next, deliver, callsOn, Store.Memory.keep_of_quiet _ hs, lastSaved,
            if_pos hf, callsOn, hs]
          exact hp
      · rw [through, next, deliver, Store.Memory.keep_of_fault hf, lastSaved, if_neg hf]
        exact hp
    | foreign other set =>
      have ho : key ≠ other := Ne.symm hr
      exact (SortedMap.find?_insert_of_ne _ ho _).trans hp

/-- Memory is ahead of the store by `pending`. -/
def AheadBy (key : String) (pending : List String) (w : Installation) : Prop :=
  ∀ ssid, ssid ∈ w.advisor.blocklist ↔ ssid ∈ w.store.load key ∨ ssid ∈ pending

theorem aheadBy_opened (store : Store.Memory) {o : Opening} (h : o.fault = none) :
    AheadBy o.identity.storeKey [] (opened store o) := by
  intro ssid
  rw [opened_blocklist store h]
  simp [opened]

theorem aheadBy_next {pending : List String} (hown : w.advisor.identity.storeKey = key)
    (h : AheadBy key pending w) (ht : t.Within key) (hw : t.Works) :
    AheadBy key (if saves (w.calls t) = [] then t.carried ++ pending else []) (w.next t) := by
  intro ssid
  obtain ⟨hb, hr⟩ := ht
  cases t with
  | session o => exact (hb trivial).elim
  | event d =>
    have hf : d.fault = none := hw
    rcases Advisor.step_saves d.surroundings w.advisor d.event with ⟨-, hs⟩ | ⟨-, hs⟩
    · have hc : saves (w.calls (.event d)) ≠ [] := by
        rw [calls, callsOn, hs]
        exact List.cons_ne_nil _ _
      rw [if_neg hc, next, deliver, callsOn, hf, Store.Memory.keep_of_saves hs, hown,
        Store.Memory.load_save_self]
      simp
    · have hc : saves (w.calls (.event d)) = [] := hs
      rw [if_pos hc, next, deliver, callsOn, Store.Memory.keep_of_quiet _ hs,
        Advisor.mem_blocklist_of_quiet hs, h ssid, List.mem_append]
      constructor
      · rintro ((hl | hl) | hl)
        · exact .inl hl
        · exact .inr (.inr hl)
        · exact .inr (.inl hl)
      · rintro (hl | hl | hl)
        · exact .inl (.inl hl)
        · exact .inr hl
        · exact .inl (.inr hl)
  | foreign other set =>
    have ho : key ≠ other := Ne.symm hr
    have hl : (w.next (.foreign other set)).store.load key = w.store.load key :=
      Store.Memory.load_save_of_ne _ ho _
    rw [hl]
    exact h ssid

theorem aheadBy_through (hown : w.advisor.identity.storeKey = key) (h : AheadBy key [] w)
    (hp : ∀ t ∈ past, t.Within key) (hw : ∀ t ∈ past, t.Works) :
    AheadBy key (w.restoredSinceSave past) (w.through past) := by
  induction past with
  | nil => exact h
  | cons t past ih =>
    obtain ⟨ht, hpast⟩ := List.forall_mem_cons.mp hp
    obtain ⟨hwt, hwpast⟩ := List.forall_mem_cons.mp hw
    have hk : (w.through past).advisor.identity.storeKey = key :=
      through_key hown fun u hu => (hpast u hu).2
    exact aheadBy_next hk (ih hpast hwpast) ht hwt

theorem opened_blocklist_of_aheadBy (h : AheadBy key [] w) {again : Opening}
    (hk : again.identity.storeKey = key) (hf : again.fault = none) :
    (opened w.store again).advisor.blocklist = w.advisor.blocklist := by
  rw [opened_blocklist _ hf, hk]
  apply Blocklist.eq_of_mem_iff
  intro ssid
  rw [h ssid]
  simp

/-- One session on a store that may fail at any save: failures change neither the advisor nor its
calls; the store holds what was saved last; a save is asked for when it is due and then once; and
while all goes well memory is ahead of the store by late loads alone. -/
theorem persistence_law (store : Store.Memory) (o : Opening) (past : List Turn)
    (h : ∀ t ∈ past, t.Within o.identity.storeKey) :
    let key := o.identity.storeKey
    let w := opened store o
    let now := w.through past
    (now.advisor = (w.through (past.map Turn.mended)).advisor ∧
      w.log past = w.log (past.map Turn.mended)) ∧
    (now.store.sets.find? key = (w.lastSaved past).or (store.sets.find? key) ∧
      ∀ d other, other ≠ key →
        (now.deliver d).store.sets.find? other = now.store.sets.find? other) ∧
    (∀ d, Advisor.SaveDue d.surroundings now.advisor d.event ∧
        saves (now.callsOn d) = [(key, (now.deliver d).advisor.blocklist)] ∨
      ¬ Advisor.SaveDue d.surroundings now.advisor d.event ∧ saves (now.callsOn d) = []) ∧
    (o.fault = none → (∀ t ∈ past, t.Works) →
      (∀ ssid, ssid ∈ now.advisor.blocklist ↔
        ssid ∈ now.store.load key ∨ ssid ∈ w.restoredSinceSave past) ∧
      (w.restoredSinceSave past = [] → ∀ again : Opening, again.identity.storeKey = key →
        again.fault = none →
        (opened now.store again).advisor.blocklist = now.advisor.blocklist)) := by
  intro key w now
  have hb : ∀ t ∈ past, ¬ t.Begins := fun t ht => (h t ht).1
  have hown : w.advisor.identity.storeKey = key := by rw [opened_identity]
  have hk : now.advisor.identity.storeKey = key := through_key hown fun t ht => (h t ht).2
  refine ⟨⟨through_mended_advisor w hb, log_mended w hb⟩, ⟨stored_through hown h, ?_⟩, ?_, ?_⟩
  · intro d other ho
    exact deliver_untouched now d (by rwa [hk])
  · intro d
    rw [← hk]
    exact Advisor.step_saves d.surroundings now.advisor d.event
  · intro hf hw
    have ha := aheadBy_through hown (aheadBy_opened store hf) h hw
    refine ⟨ha, fun hnone again hag hagf => ?_⟩
    rw [hnone] at ha
    exact opened_blocklist_of_aheadBy ha hag hagf

namespace Cafe

/-- A network is dismissed; someone else writes under another key; a late load arrives. -/
def restoredLate : List Turn :=
  [.event (.smooth 40 (.restored ["plaza"])),
    .foreign Identity.carrierNetworks.storeKey ∅,
    .event (.smooth 30 (.action ⟨Identity.openNetworks.tag, .dismiss⟩)),
    .event (.smooth 20 (.scan [.ofSignal "cafe" (-40)])),
    .event (.smooth 10 (.screen true))]

/-- The dismissed network is connected to, but saving that fails. -/
def unsaved : List Turn :=
  .event { Delivery.smooth 50 (.wifiConnected (some "cafe")) with fault := some (.io "full") } ::
    restoredLate

def session : Installation := opened {} (.smooth .openNetworks)

end Cafe

open Cafe in
theorem persistence_law_of_failed_save :
    (∀ t ∈ unsaved, t.Within Identity.openNetworks.storeKey) ∧
      (session.through unsaved).store.sets.find? Identity.openNetworks.storeKey =
        some (.ofList ["cafe"]) ∧
      (session.through unsaved).advisor.blocklist = .ofList ["plaza"] ∧
      (∀ ssid, ssid ∈ (session.through restoredLate).advisor.blocklist ↔
        ssid ∈ (session.through restoredLate).store.load Identity.openNetworks.storeKey ∨
          ssid ∈ ["plaza"]) := by
  have hl : ∀ t ∈ restoredLate, t.Within Identity.openNetworks.storeKey := by
    simp [restoredLate, Turn.Within, Turn.Begins, Turn.Respects, Identity.openNetworks,
      Identity.carrierNetworks]
  have hu : ∀ t ∈ unsaved, t.Within Identity.openNetworks.storeKey :=
    List.forall_mem_cons.2 ⟨⟨id, trivial⟩, hl⟩
  have hw : ∀ t ∈ restoredLate, t.Works := by
    simp [restoredLate, Turn.Works, Delivery.smooth]
  have hstored := (persistence_law {} (.smooth .openNetworks) unsaved hu).2.1.1
  have hahead := (persistence_law {} (.smooth .openNetworks) restoredLate hl).2.2.2 rfl hw
  exact ⟨hu, hstored.trans (by decide +kernel), by decide +kernel, hahead.1⟩

end Installation

end WifiAdvisor
