import WifiAdvisor.Proofs.Handlers
import WifiAdvisor.Proofs.History

/-!
# What an event does to the blocklist

Four things can happen: the user rejects the held network, a blocked network is connected to, a
late load is merged, or the set stays as it is. Only the first two save. `step_blocklist` says so
for all events and is all that runs need to know of the handlers.
-/
namespace WifiAdvisor.Advisor

open Effect

variable {s : Surroundings} {a b c : Advisor} {front back : List Effect} {set : Blocklist}

structure KeepsBlocklist (a : Advisor) (r : Advisor × List Effect) : Prop where
  identity : r.1.identity = a.identity
  blocklist : r.1.blocklist = a.blocklist
  saved : saves r.2 = []

theorem KeepsBlocklist.refl (a : Advisor) : KeepsBlocklist a (a, []) := ⟨rfl, rfl, rfl⟩

/-- The blocklist becomes `set`, which is saved once. -/
structure SavesBlocklist (a : Advisor) (set : Blocklist) (r : Advisor × List Effect) : Prop where
  identity : r.1.identity = a.identity
  blocklist : r.1.blocklist = set
  saved : saves r.2 = [(a.identity.storeKey, set)]

theorem SavesBlocklist.then_keeps (h : SavesBlocklist a set (b, front))
    (k : KeepsBlocklist b (c, back)) : SavesBlocklist a set (c, front ++ back) where
  identity := k.identity.trans h.identity
  blocklist := k.blocklist.trans h.blocklist
  saved := by
    have hf : saves front = [(a.identity.storeKey, set)] := h.saved
    have hb : saves back = [] := k.saved
    calc saves (front ++ back)
      _ = saves front ++ saves back := view_append saved? front back
      _ = [(a.identity.storeKey, set)] := by rw [hf, hb, List.append_nil]

theorem block_saves (a : Advisor) (ssid : String) :
    SavesBlocklist a (a.blocklist.insert ssid) (a.block ssid) := by
  constructor <;> simp [block, withBlocklist, persist]

theorem unblock_saves {ssid : String} (h : ssid ∈ a.blocklist) :
    SavesBlocklist a (a.blocklist.erase ssid) (a.unblock ssid) := by
  constructor <;> simp [unblock, withBlocklist, persist, h]

theorem unblock_eq {ssid : String} (h : ssid ∉ a.blocklist) : a.unblock ssid = (a, []) := by
  simp [unblock, h]

theorem clear_keeps_blocklist (a : Advisor) (r : Bool) : KeepsBlocklist a (a.clear r) := by
  cases r <;> cases h : a.phase <;> constructor <;> simp [clear, h]

theorem propose_keeps_blocklist (s : Surroundings) (a : Advisor) (c : Candidate) :
    KeepsBlocklist a (a.propose s c) := by
  unfold propose
  split
  · constructor <;> simp [count, deferRepeat, posting]
  · split <;> constructor <;> simp [deferRepeat, posting]
  · exact .refl a

theorem onScan_keeps_blocklist (s : Surroundings) (a : Advisor) (cs : List Candidate) :
    KeepsBlocklist a (a.onScan s cs) := by
  cases onScan_cases s a cs with
  | refused _ h =>
    rw [h]
    exact clear_keeps_blocklist a true
  | ignored _ h =>
    rw [h]
    exact .refl a
  | lost _ _ h =>
    rw [h]
    exact clear_keeps_blocklist a false
  | proposed c _ _ _ h =>
    rw [h]
    exact propose_keeps_blocklist s a c

theorem onFailure_keeps_blocklist (a : Advisor) : KeepsBlocklist a a.onFailure := by
  unfold onFailure
  split
  · constructor <;> simp [armTimer, count, posting]
  · exact .refl a

theorem onSendFailed_keeps_blocklist (a : Advisor) : KeepsBlocklist a a.onSendFailed :=
  ⟨(onFailure_keeps_blocklist a).identity, (onFailure_keeps_blocklist a).blocklist,
    (onFailure_keeps_blocklist a).saved⟩

theorem onPick_keeps_blocklist (a : Advisor) (action : Action) :
    KeepsBlocklist a (a.onPick action) := by
  have h := clear_keeps_blocklist (a.tally action) false
  exact ⟨h.identity, h.blocklist, by simpa [onPick] using h.saved⟩

theorem onTimer_keeps_blocklist (a : Advisor) (t : Timer) : KeepsBlocklist a (a.onTimer t) := by
  rcases onTimer_cases a t with h | ⟨-, -, h⟩
  · rw [h]
    exact .refl a
  · rw [h]
    cases t.kind with
    | connectingTimeout => exact onFailure_keeps_blocklist a
    | connectedShown => exact clear_keeps_blocklist a true
    | failedShown => exact clear_keeps_blocklist a false

theorem settle_keeps_blocklist (a : Advisor) : KeepsBlocklist a a.settle := by
  unfold settle
  split
  · constructor <;> simp [armTimer, count, posting]
  · exact clear_keeps_blocklist a true

theorem onConnected_saves {ssid : String} (h : ssid ∈ a.blocklist) :
    SavesBlocklist a (a.blocklist.erase ssid) (a.onConnected (some ssid)) := by
  rw [onConnected_some]
  exact (unblock_saves h).then_keeps (settle_keeps_blocklist _)

theorem onConnected_keeps_blocklist {ssid : Option String}
    (h : ∀ x, ssid = some x → x ∉ a.blocklist) : KeepsBlocklist a (a.onConnected ssid) := by
  cases ssid with
  | none =>
    rw [onConnected_none]
    exact settle_keeps_blocklist a
  | some x =>
    rw [onConnected_some, unblock_eq (h x rfl)]
    exact settle_keeps_blocklist a

theorem onDismiss_saves {held : Candidate} (h : a.phase = .recommending held) :
    SavesBlocklist a (a.blocklist.insert held.ssid) (a.onDismiss s) := by
  have hb := (block_saves (a.tally .dismiss) held.ssid).then_keeps
    (clear_keeps_blocklist ((a.tally .dismiss).block held.ssid).1 false)
  have hp : (a.tally .dismiss).phase = .recommending held := h
  simp only [onDismiss, hp]
  exact ⟨hb.identity, hb.blocklist, hb.saved⟩

theorem onDismiss_keeps_blocklist (h : a.status ≠ .recommending) :
    KeepsBlocklist a (a.onDismiss s) := by
  have hc := clear_keeps_blocklist (a.tally .dismiss) false
  have hp : (a.tally .dismiss).phase = a.phase := rfl
  simp only [onDismiss, hp]
  split
  · rename_i held hr
    exact (h (by simp [status, hr, Phase.status])).elim
  · exact ⟨hc.identity, hc.blocklist, hc.saved⟩

/-- The platform would take the network over. -/
def Accepts (s : Surroundings) (held : Candidate) : Prop :=
  ∃ config id, s.configure held = some config ∧ s.addNetwork config = .ok id

theorem onConnect_saves {held : Candidate} (h : a.phase = .recommending held)
    (hs : Accepts s held) :
    SavesBlocklist a (a.blocklist.insert held.ssid) (a.onConnect s) := by
  obtain ⟨config, id, hc, ha⟩ := hs
  have hp : (a.tally .connect).phase = .recommending held := h
  simp only [onConnect, hp, hc, request, ha]
  constructor <;> simp [block, withBlocklist, persist, armTimer, count, tally, posting]

theorem onConnect_keeps_blocklist
    (h : ∀ held, a.phase = .recommending held → ¬ Accepts s held) :
    KeepsBlocklist a (a.onConnect s) := by
  have hp : (a.tally .connect).phase = a.phase := rfl
  simp only [onConnect, hp]
  split
  · rename_i held hr
    split
    · constructor <;> simp [count, tally, posting]
    · rename_i config hc
      cases ha : s.addNetwork config with
      | ok id => exact (h held hr ⟨config, id, hc, ha⟩).elim
      | error rejection =>
        simp only [request, ha]
        constructor <;> simp [armTimer, count, tally, posting]
  · exact ⟨rfl, rfl, rfl⟩

/-- The user rejects `ssid`: dismisses its recommendation, or asks for a connection that the
platform takes over. -/
def Rejects (s : Surroundings) (a : Advisor) (e : Event) (ssid : String) : Prop :=
  ∃ held, a.phase = .recommending held ∧ held.ssid = ssid ∧
    (e = .action ⟨a.identity.tag, .dismiss⟩ ∨
      e = .action ⟨a.identity.tag, .connect⟩ ∧ Accepts s held)

/-- Everything that an event can do to the blocklist. -/
inductive BlocklistStep (s : Surroundings) (a : Advisor) (e : Event) : Prop where
  | rejected (ssid : String) : Rejects s a e ssid →
      SavesBlocklist a (a.blocklist.insert ssid) (a.step s e) → BlocklistStep s a e
  | connected (ssid : String) : e = .wifiConnected (some ssid) → ssid ∈ a.blocklist →
      SavesBlocklist a (a.blocklist.erase ssid) (a.step s e) → BlocklistStep s a e
  | restored (ssids : List String) : e = .restored ssids →
      KeepsBlocklist (a.restore ssids) (a.step s e) → BlocklistStep s a e
  | kept : (∀ ssid, ¬ Rejects s a e ssid) →
      (∀ ssid, e = .wifiConnected (some ssid) → ssid ∉ a.blocklist) →
      (∀ ssids, e ≠ .restored ssids) →
      KeepsBlocklist a (a.step s e) → BlocklistStep s a e

theorem Rejects.own_action {e : Event} {ssid : String} (h : Rejects s a e ssid) :
    ∃ action, e = .action ⟨a.identity.tag, action⟩ := by
  obtain ⟨held, hp, rfl, rfl | ⟨rfl, ha⟩⟩ := h
  · exact ⟨.dismiss, rfl⟩
  · exact ⟨.connect, rfl⟩

theorem not_rejects_of_not_action {e : Event} (h : ∀ event, e ≠ .action event) (ssid : String) :
    ¬ Rejects s a e ssid := by
  intro hr
  obtain ⟨action, he⟩ := hr.own_action
  exact h _ he

private theorem step_blocklist_of_keeps {e : Event} (hn : ∀ event, e ≠ .action event)
    (hc : ∀ ssid, e ≠ .wifiConnected ssid) (hr : ∀ ssids, e ≠ .restored ssids)
    (h : KeepsBlocklist a (a.step s e)) : BlocklistStep s a e :=
  .kept (not_rejects_of_not_action hn) (fun _ hs => (hc _ hs).elim) hr h

private theorem step_blocklist_action (s : Surroundings) (a : Advisor) (action : Action) :
    BlocklistStep s a (.action ⟨a.identity.tag, action⟩) := by
  have kept (hs : ∀ ssid, ¬ Rejects s a (.action ⟨a.identity.tag, action⟩) ssid)
      (h : KeepsBlocklist a (a.step s (.action ⟨a.identity.tag, action⟩))) :
      BlocklistStep s a (.action ⟨a.identity.tag, action⟩) :=
    .kept hs (fun _ he => by cases he) (fun _ he => by cases he) h
  cases action with
  | dismiss =>
    by_cases hp : ∃ held, a.phase = .recommending held
    · obtain ⟨held, hp⟩ := hp
      refine .rejected held.ssid ⟨held, hp, rfl, .inl rfl⟩ ?_
      rw [step_own_dismiss]
      exact onDismiss_saves hp
    · refine kept ?_ ?_
      · rintro ssid ⟨held, hheld, -⟩
        exact hp ⟨held, hheld⟩
      · rw [step_own_dismiss]
        refine onDismiss_keeps_blocklist fun hs => ?_
        obtain ⟨held, hheld⟩ : ∃ held, a.phase = .recommending held := phase_of_status hs
        exact hp ⟨held, hheld⟩
  | connect =>
    by_cases hp : ∃ held, a.phase = .recommending held ∧ Accepts s held
    · obtain ⟨held, hp, ha⟩ := hp
      refine .rejected held.ssid ⟨held, hp, rfl, .inr ⟨rfl, ha⟩⟩ ?_
      rw [step_own_connect]
      exact onConnect_saves hp ha
    · refine kept ?_ ?_
      · rintro ssid ⟨held, hheld, -, he | ⟨-, ha⟩⟩
        · cases he
        · exact hp ⟨held, hheld, ha⟩
      · rw [step_own_connect]
        exact onConnect_keeps_blocklist fun held hheld ha => hp ⟨held, hheld, ha⟩
  | pick =>
    refine kept ?_ ?_
    · rintro ssid ⟨held, -, -, he | ⟨he, -⟩⟩ <;> cases he
    · simpa [step, onAction] using onPick_keeps_blocklist a .pick
  | pickAfterFailure =>
    refine kept ?_ ?_
    · rintro ssid ⟨held, -, -, he | ⟨he, -⟩⟩ <;> cases he
    · simpa [step, onAction] using onPick_keeps_blocklist a .pickAfterFailure

theorem step_blocklist (s : Surroundings) (a : Advisor) (e : Event) : BlocklistStep s a e := by
  cases e with
  | scan cs =>
    exact step_blocklist_of_keeps (by simp) (by simp) (by simp) (onScan_keeps_blocklist s a cs)
  | screen on =>
    exact step_blocklist_of_keeps (by simp) (by simp) (by simp) ⟨rfl, rfl, rfl⟩
  | wifiConnected ssid =>
    by_cases h : ∃ x, ssid = some x ∧ x ∈ a.blocklist
    · obtain ⟨x, rfl, hx⟩ := h
      exact .connected x rfl hx (onConnected_saves hx)
    · have hk : ∀ x, ssid = some x → x ∉ a.blocklist := fun x hx hm => h ⟨x, hx, hm⟩
      exact .kept (not_rejects_of_not_action (by simp)) (fun x hx => hk x (by simpa using hx))
        (by simp) (onConnected_keeps_blocklist hk)
  | connectionFailure =>
    exact step_blocklist_of_keeps (by simp) (by simp) (by simp) (onFailure_keeps_blocklist a)
  | sendFailed reason =>
    exact step_blocklist_of_keeps (by simp) (by simp) (by simp) (onSendFailed_keeps_blocklist a)
  | action event =>
    by_cases ht : event.tag = a.identity.tag
    · obtain ⟨tag, action⟩ := event
      cases ht
      exact step_blocklist_action s a action
    · refine .kept (fun ssid hs => ?_) (by simp) (by simp) ?_
      · obtain ⟨action, he⟩ := hs.own_action
        cases he
        exact ht rfl
      · rw [step_foreign_action s ht]
        exact .refl a
  | settingChanged =>
    have h := clear_keeps_blocklist (a.readSetting s) true
    exact step_blocklist_of_keeps (by simp) (by simp) (by simp) ⟨h.identity, h.blocklist, h.saved⟩
  | clear r =>
    exact step_blocklist_of_keeps (by simp) (by simp) (by simp) (clear_keeps_blocklist a r)
  | timer t =>
    exact step_blocklist_of_keeps (by simp) (by simp) (by simp) (onTimer_keeps_blocklist a t)
  | restored ssids => exact .restored ssids rfl ⟨rfl, rfl, rfl⟩

variable {e : Event} {ssid : String}

theorem Rejects.unique {other : String} (h : Rejects s a e ssid) (ho : Rejects s a e other) :
    ssid = other := by
  obtain ⟨held, hp, rfl, -⟩ := h
  obtain ⟨held', hp', rfl, -⟩ := ho
  cases hp.symm.trans hp'
  rfl

/-- A network is blocked after an event if that rejected it or brought it, or if it was blocked
before and is not the one that was connected to. -/
theorem mem_blocklist_step_iff (s : Surroundings) (a : Advisor) (e : Event) (ssid : String) :
    ssid ∈ (a.step s e).1.blocklist ↔ e ≠ .wifiConnected (some ssid) ∧
      (Rejects s a e ssid ∨ ssid ∈ e.carried ∨ ssid ∈ a.blocklist) := by
  cases step_blocklist s a e with
  | rejected other ho hb =>
    obtain ⟨action, rfl⟩ := ho.own_action
    have hr : Rejects s a (.action ⟨a.identity.tag, action⟩) ssid ↔ ssid = other :=
      ⟨fun h => h.unique ho, fun h => h ▸ ho⟩
    simp [hb.blocklist, hr, Event.carried]
  | connected other he _ hb =>
    subst e
    have hr : ¬ Rejects s a (.wifiConnected (some other)) ssid :=
      not_rejects_of_not_action (by simp) ssid
    simp [hb.blocklist, hr, Event.carried, eq_comm]
  | restored ssids he hb =>
    subst e
    have hr : ¬ Rejects s a (.restored ssids) ssid := not_rejects_of_not_action (by simp) ssid
    rw [hb.blocklist, restore, withBlocklist, Blocklist.mem_merge]
    simp [hr, Event.carried, or_comm]
  | kept hn hc hr hb =>
    have hcarried : e.carried = [] := by
      cases e with
      | restored ssids => exact (hr ssids rfl).elim
      | _ => rfl
    simp only [hb.blocklist, hn ssid, hcarried, List.not_mem_nil, false_or]
    exact ⟨fun h => ⟨fun he => hc ssid he h, h⟩, fun h => h.2⟩

/-- Nothing but a connection to a blocked network lifts the block. -/
theorem mem_blocklist_step (h : ssid ∈ a.blocklist) (he : e ≠ .wifiConnected (some ssid)) :
    ssid ∈ (a.step s e).1.blocklist :=
  (mem_blocklist_step_iff s a e ssid).mpr ⟨he, .inr (.inr h)⟩

theorem Rejects.saves (h : Rejects s a e ssid) :
    SavesBlocklist a (a.blocklist.insert ssid) (a.step s e) := by
  cases step_blocklist s a e with
  | rejected other ho hb =>
    obtain rfl : ssid = other := h.unique ho
    exact hb
  | connected other he _ _ => exact (not_rejects_of_not_action (by simp [he]) ssid h).elim
  | restored ssids he _ => exact (not_rejects_of_not_action (by simp [he]) ssid h).elim
  | kept hn _ _ _ => exact (hn ssid h).elim

theorem step_identity (s : Surroundings) (a : Advisor) (e : Event) :
    (a.step s e).1.identity = a.identity := by
  cases step_blocklist s a e with
  | rejected _ _ h => exact h.identity
  | connected _ _ _ h => exact h.identity
  | restored _ _ h => exact h.identity
  | kept _ _ _ h => exact h.identity

theorem after_identity (a : Advisor) (past : List Input) :
    (a.after past).identity = a.identity := by
  induction past with
  | nil => rfl
  | cons i past ih => rw [after_cons, step_identity, ih]

theorem start_identity (opening : Surroundings) (identity : Identity) (timing : Timing)
    (supports : Bool) (loaded : Except StoreFailure Blocklist) :
    (start opening identity timing supports loaded).1.identity = identity := by
  cases loaded <;> rfl

theorem start_blocklist (opening : Surroundings) (identity : Identity) (timing : Timing)
    (supports : Bool) (set : Blocklist) :
    (start opening identity timing supports (.ok set)).1.blocklist = set :=
  Blocklist.merge_toList set

/-- The user rejects a network, or a blocked network is connected to. -/
def SaveDue (s : Surroundings) (a : Advisor) (e : Event) : Prop :=
  (∃ ssid, Rejects s a e ssid) ∨ ∃ ssid, e = .wifiConnected (some ssid) ∧ ssid ∈ a.blocklist

/-- An event saves when that is due and at most once, and then the set that it leaves behind. -/
theorem step_saves (s : Surroundings) (a : Advisor) (e : Event) :
    SaveDue s a e ∧
        saves (a.step s e).2 = [(a.identity.storeKey, (a.step s e).1.blocklist)] ∨
      ¬ SaveDue s a e ∧ saves (a.step s e).2 = [] := by
  cases step_blocklist s a e with
  | rejected other ho h => exact .inl ⟨.inl ⟨other, ho⟩, by rw [h.saved, h.blocklist]⟩
  | connected other he hm h => exact .inl ⟨.inr ⟨other, he, hm⟩, by rw [h.saved, h.blocklist]⟩
  | restored ssids he h =>
    refine .inr ⟨?_, h.saved⟩
    rintro (⟨other, ho⟩ | ⟨other, ho, -⟩)
    · exact not_rejects_of_not_action (by simp [he]) other ho
    · cases ho.symm.trans he
  | kept hn hc hr h =>
    refine .inr ⟨?_, h.saved⟩
    rintro (⟨other, ho⟩ | ⟨other, ho, hm⟩)
    · exact hn other ho
    · exact hc other ho hm

end WifiAdvisor.Advisor
