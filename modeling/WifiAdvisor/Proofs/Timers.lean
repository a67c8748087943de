import WifiAdvisor.Proofs.History
import WifiAdvisor.Proofs.Lifecycle

/-!
# Timers

Nothing cancels a timer, so any timer may go off at any time, more than once or without having
been armed. Generations make this safe: the timer armed last is the only one that can act, and
only in the stay that armed it. Nor can a stay be left without its timer, since whatever enters
it arms one and the first delivery of that one ends it.
-/
namespace WifiAdvisor

theorem TimerKind.status_injective {k l : TimerKind} (h : k.status = l.status) : k = l := by
  cases k <;> cases l <;> first | rfl | cases h

namespace Advisor

open Effect

variable {s : Surroundings} {a b c : Advisor} {front back : List Effect} {kind : TimerKind}

/-- No timer is armed, and no stay that would need one begins. -/
structure KeepsTimers (a : Advisor) (r : Advisor × List Effect) : Prop where
  generation : r.1.generation = a.generation
  armed : arms r.2 = []
  stayed : r.1.status = a.status ∨ ∀ kind : TimerKind, r.1.status ≠ kind.status

/-- A stay begins, and its timer is armed in a generation of its own. -/
structure ArmsTimer (kind : TimerKind) (a : Advisor) (r : Advisor × List Effect) : Prop where
  generation : r.1.generation = a.generation + 1
  armed : arms r.2 = [⟨kind, a.generation + 1⟩]
  left : a.status ≠ kind.status
  entered : r.1.status = kind.status

theorem untimed (h : a.status = .noNotification ∨ a.status = .recommending) (kind : TimerKind) :
    a.status ≠ kind.status := by
  rcases h with h | h
  · rw [h]
    cases kind <;> decide
  · rw [h]
    cases kind <;> decide

theorem KeepsTimers.refl (a : Advisor) : KeepsTimers a (a, []) := ⟨rfl, rfl, .inl rfl⟩

@[simp] theorem clear_generation (a : Advisor) (r : Bool) :
    (a.clear r).1.generation = a.generation := by
  cases r <;> cases h : a.phase <;> simp [clear, h]

@[simp] theorem clear_arms (a : Advisor) (r : Bool) : arms (a.clear r).2 = [] := by
  cases r <;> cases h : a.phase <;> simp [clear, h]

theorem clear_keeps_timers (a : Advisor) (r : Bool) : KeepsTimers a (a.clear r) :=
  ⟨clear_generation a r, clear_arms a r, .inr (untimed (.inl (clear_status a r)))⟩

theorem propose_keeps_timers (s : Surroundings) (a : Advisor) (c : Candidate) :
    KeepsTimers a (a.propose s c) := by
  unfold propose
  split
  · exact ⟨rfl, rfl, .inr (untimed (.inr rfl))⟩
  · split
    · exact .refl a
    · exact ⟨rfl, rfl, .inr (untimed (.inr rfl))⟩
  · exact .refl a

theorem onScan_keeps_timers (s : Surroundings) (a : Advisor) (cs : List Candidate) :
    KeepsTimers a (a.onScan s cs) := by
  cases onScan_cases s a cs with
  | refused _ h =>
    rw [h]
    exact clear_keeps_timers a true
  | ignored _ h =>
    rw [h]
    exact .refl a
  | lost _ _ h =>
    rw [h]
    exact clear_keeps_timers a false
  | proposed c _ _ _ h =>
    rw [h]
    exact propose_keeps_timers s a c

theorem onDismiss_keeps_timers (s : Surroundings) (a : Advisor) :
    KeepsTimers a (a.onDismiss s) := by
  refine ⟨?_, ?_, .inr (untimed (.inl (onDismiss_status s a)))⟩
  · simp only [onDismiss]
    split <;> simp [deferRepeat, block, withBlocklist, tally]
  · simp only [onDismiss]
    split <;> simp [block, persist]

theorem onPick_keeps_timers (a : Advisor) (action : Action) :
    KeepsTimers a (a.onPick action) := by
  refine ⟨?_, ?_, .inr (untimed (.inl (onPick_status a action)))⟩
  · simp [onPick, tally]
  · simp [onPick]

theorem onFailure_arms (h : a.status = .connecting) : ArmsTimer .failedShown a a.onFailure := by
  obtain ⟨held, hp⟩ : ∃ held, a.phase = .connecting held := phase_of_status h
  refine ⟨?_, ?_, by rw [h]; decide, by rw [onFailure_status, if_pos h]; rfl⟩
  · simp [onFailure, hp, armTimer, count]
  · simp [onFailure, hp, armTimer, count, posting]

theorem settle_arms (h : a.status = .connecting) : ArmsTimer .connectedShown a a.settle := by
  obtain ⟨held, hp⟩ : ∃ held, a.phase = .connecting held := phase_of_status h
  refine ⟨?_, ?_, by rw [h]; decide, by rw [settle_status, if_pos h]; rfl⟩
  · simp [settle, hp, armTimer, count]
  · simp [settle, hp, armTimer, count, posting]

theorem onConnect_arms {held : Candidate} {config : NetworkConfig}
    (hp : a.phase = .recommending held) (hc : s.configure held = some config) :
    ArmsTimer .connectingTimeout a (a.onConnect s) := by
  have ha : a.status = .recommending := by simp [status, hp, Phase.status]
  refine ⟨?_, ?_, by rw [ha]; decide, by rw [onConnect_requests hp hc]; rfl⟩
  · cases h : s.addNetwork config <;>
      simp [onConnect, hp, hc, request, h, armTimer, block, withBlocklist, count, tally]
  · cases h : s.addNetwork config <;>
      simp [onConnect, hp, hc, request, h, armTimer, block, withBlocklist, persist, count, tally,
        posting]

theorem onConnect_keeps_timers
    (h : ∀ held, a.phase = .recommending held → s.configure held = none) :
    KeepsTimers a (a.onConnect s) := by
  refine ⟨?_, ?_, .inl (onConnect_stays h)⟩
  · cases hp : a.phase with
    | recommending held => simp [onConnect, hp, h held hp, tally, count]
    | _ => simp [onConnect, hp, tally]
  · cases hp : a.phase with
    | recommending held => simp [onConnect, hp, h held hp, tally, posting]
    | _ => simp [onConnect, hp, tally]

/-- What an event can do to the timers. -/
inductive TimerStep (a : Advisor) (r : Advisor × List Effect) : Prop where
  | armed (kind : TimerKind) : ArmsTimer kind a r → TimerStep a r
  | kept : KeepsTimers a r → TimerStep a r

theorem onFailure_timers (a : Advisor) : TimerStep a a.onFailure := by
  by_cases h : a.status = .connecting
  · exact .armed _ (onFailure_arms h)
  · rw [onFailure_ignored h]
    exact .kept (.refl a)

theorem settle_timers (a : Advisor) : TimerStep a a.settle := by
  by_cases h : a.status = .connecting
  · exact .armed _ (settle_arms h)
  · rw [settle_outside_connecting h]
    exact .kept (clear_keeps_timers a true)

theorem onConnected_timers (a : Advisor) (ssid : Option String) :
    TimerStep a (a.onConnected ssid) := by
  cases ssid with
  | none =>
    rw [onConnected_none]
    exact settle_timers a
  | some x =>
    obtain ⟨hg, hs, ha⟩ : (a.unblock x).1.generation = a.generation ∧
        (a.unblock x).1.status = a.status ∧ arms (a.unblock x).2 = [] := by
      unfold unblock
      split <;> exact ⟨rfl, rfl, rfl⟩
    rw [onConnected_some]
    cases settle_timers (a.unblock x).1 with
    | armed kind h =>
      refine .armed kind ⟨?_, ?_, ?_, h.entered⟩
      · rw [h.generation, hg]
      · exact (view_append armed? _ _).trans (by simpa [ha, hg] using h.armed)
      · rw [← hs]
        exact h.left
    | kept h =>
      refine .kept ⟨?_, ?_, ?_⟩
      · rw [h.generation, hg]
      · exact (view_append armed? _ _).trans (by simpa [ha] using h.armed)
      · rw [← hs]
        exact h.stayed

theorem onConnect_timers (s : Surroundings) (a : Advisor) : TimerStep a (a.onConnect s) := by
  rcases configures_or_refuses s a with ⟨held, config, hp, hc⟩ | h
  · exact .armed _ (onConnect_arms hp hc)
  · exact .kept (onConnect_keeps_timers h)

theorem onAction_timers (s : Surroundings) (a : Advisor) (event : ActionEvent) :
    TimerStep a (a.onAction s event) := by
  unfold onAction
  split
  · split
    · exact .kept (onDismiss_keeps_timers s a)
    · exact onConnect_timers s a
    · exact .kept (onPick_keeps_timers a .pick)
    · exact .kept (onPick_keeps_timers a .pickAfterFailure)
  · exact .kept (.refl a)

theorem onTimer_timers (a : Advisor) (t : Timer) : TimerStep a (a.onTimer t) := by
  rcases onTimer_cases a t with h | ⟨-, -, h⟩
  · rw [h]
    exact .kept (.refl a)
  · rw [h]
    cases t.kind with
    | connectingTimeout => exact onFailure_timers a
    | connectedShown => exact .kept (clear_keeps_timers a true)
    | failedShown => exact .kept (clear_keeps_timers a false)

theorem step_timers (s : Surroundings) (a : Advisor) (e : Event) : TimerStep a (a.step s e) := by
  cases e with
  | scan cs => exact .kept (onScan_keeps_timers s a cs)
  | screen on => exact .kept ⟨rfl, rfl, .inl rfl⟩
  | wifiConnected ssid => exact onConnected_timers a ssid
  | connectionFailure => exact onFailure_timers a
  | sendFailed reason =>
    cases onFailure_timers a with
    | armed kind h => exact .armed kind ⟨h.generation, h.armed, h.left, h.entered⟩
    | kept h => exact .kept ⟨h.generation, h.armed, h.stayed⟩
  | action event => exact onAction_timers s a event
  | settingChanged =>
    have h := clear_keeps_timers (a.readSetting s) true
    exact .kept ⟨h.generation, h.armed, h.stayed⟩
  | clear r => exact .kept (clear_keeps_timers a r)
  | timer t => exact onTimer_timers a t
  | restored ssids => exact .kept ⟨rfl, rfl, .inl rfl⟩

theorem arms_of_entered {e : Event} (hentered : (a.step s e).1.status = kind.status)
    (hleft : a.status ≠ kind.status) : arms (a.step s e).2 = [⟨kind, a.generation + 1⟩] := by
  cases step_timers s a e with
  | armed other h =>
    cases TimerKind.status_injective (h.entered.symm.trans hentered)
    exact h.armed
  | kept h =>
    rcases h.stayed with hst | hun
    · exact (hleft (hst.symm.trans hentered)).elim
    · exact (hun kind hentered).elim

theorem arms_of_stayed {e : Event}
    (h : ∀ kind : TimerKind, (a.step s e).1.status = kind.status → a.status = kind.status) :
    arms (a.step s e).2 = [] := by
  cases step_timers s a e with
  | armed kind ha => exact (ha.left (h kind ha.entered)).elim
  | kept hk => exact hk.armed

/-! ### Runs -/

/-- The timers armed in a run, the latest first. -/
def armed (a : Advisor) : List Input → List Timer
  | [] => []
  | i :: past => (arms (a.callsOn past i)).reverse ++ a.armed past

/-- The run is still in the stay that was entered when `t` was armed. -/
inductive InStay (a : Advisor) (t : Timer) : List Input → Prop where
  | entered {i : Input} {past : List Input} : (a.after past).status ≠ t.kind.status →
      t ∈ arms (a.callsOn past i) → (a.after (i :: past)).status = t.kind.status →
      InStay a t (i :: past)
  | stayed {i : Input} {past : List Input} : InStay a t past →
      (a.after (i :: past)).status = t.kind.status → InStay a t (i :: past)

/-- `t` was delivered since it was last armed. -/
def Delivered (a : Advisor) (t : Timer) : List Input → Prop
  | [] => False
  | i :: past => t ∉ arms (a.callsOn past i) ∧ (i.event = .timer t ∨ a.Delivered t past)

section

variable {past later earlier : List Input} {i : Input} {t : Timer}

theorem armed_of_kept
    (h : KeepsTimers (a.after past) ((a.after past).step i.surroundings i.event)) :
    a.armed (i :: past) = a.armed past := by
  rw [armed, callsOn, h.armed]
  rfl

theorem armed_of_armed
    (h : ArmsTimer kind (a.after past) ((a.after past).step i.surroundings i.event)) :
    a.armed (i :: past) = ⟨kind, (a.after past).generation + 1⟩ :: a.armed past := by
  rw [armed, callsOn, h.armed]
  rfl

theorem InStay.status_eq (h : a.InStay t past) : (a.after past).status = t.kind.status := by
  cases h with
  | entered _ _ hs => exact hs
  | stayed _ hs => exact hs

/-- The first delivery of a current timer ends its stay. -/
theorem onTimer_ends (hg : t.generation = a.generation) (hs : a.status = t.kind.status) :
    (a.onTimer t).1.status ≠ t.kind.status := by
  rw [onTimer_current hg hs, expire_status hs]
  cases t.kind <;> decide

/-- The timer armed last is of the current generation, and every stay has it yet to come. -/
structure Scheduled (a : Advisor) (past : List Input) : Prop where
  newest : ∀ t, (a.armed past).head? = some t → t.generation = (a.after past).generation
  pending : ∀ kind : TimerKind, (a.after past).status = kind.status →
    (a.armed past).head? = some ⟨kind, (a.after past).generation⟩
  inStay : ∀ kind : TimerKind, (a.after past).status = kind.status →
    a.InStay ⟨kind, (a.after past).generation⟩ past
  undelivered : ∀ kind : TimerKind, (a.after past).status = kind.status →
    ¬ a.Delivered ⟨kind, (a.after past).generation⟩ past

theorem scheduled_of_armed
    (ha : ArmsTimer kind (a.after past) ((a.after past).step i.surroundings i.event)) :
    Scheduled a (i :: past) := by
  have hg : (a.after (i :: past)).generation = (a.after past).generation + 1 := ha.generation
  have hnew : ⟨kind, (a.after past).generation + 1⟩ ∈ arms (a.callsOn past i) := by
    rw [callsOn, ha.armed]
    exact List.mem_singleton_self _
  have only (k : TimerKind) (hk : (a.after (i :: past)).status = k.status) : k = kind :=
    TimerKind.status_injective (hk.symm.trans ha.entered)
  constructor
  · intro t ht
    rw [armed_of_armed ha, List.head?_cons, Option.some_inj] at ht
    rw [← ht, hg]
  · intro k hk
    cases only k hk
    rw [armed_of_armed ha, hg, List.head?_cons]
  · intro k hk
    cases only k hk
    rw [hg]
    exact .entered ha.left hnew hk
  · intro k hk hd
    cases only k hk
    rw [hg] at hd
    exact hd.1 hnew

theorem scheduled_of_kept (h : Scheduled a past)
    (hk : KeepsTimers (a.after past) ((a.after past).step i.surroundings i.event)) :
    Scheduled a (i :: past) := by
  have hg : (a.after (i :: past)).generation = (a.after past).generation := hk.generation
  have harmed : a.armed (i :: past) = a.armed past := armed_of_kept hk
  have before (k : TimerKind) (hs : (a.after (i :: past)).status = k.status) :
      (a.after past).status = k.status := by
    rcases hk.stayed with hst | hun
    · exact hst.symm.trans hs
    · exact (hun k hs).elim
  constructor
  · intro t ht
    rw [harmed] at ht
    rw [hg]
    exact h.newest t ht
  · intro k hs
    rw [harmed, hg]
    exact h.pending k (before k hs)
  · intro k hs
    rw [hg]
    exact .stayed (h.inStay k (before k hs)) hs
  · intro k hs hd
    rw [hg] at hd
    -- Had the pending timer been delivered just now, the stay would be over.
    rcases hd.2 with he | hd
    · have hends := onTimer_ends (t := ⟨k, (a.after past).generation⟩) rfl (before k hs)
      rw [after_cons, he] at hs
      exact hends hs
    · exact h.undelivered k (before k hs) hd

theorem scheduled (h : ∀ kind : TimerKind, a.status ≠ kind.status) (past : List Input) :
    Scheduled a past := by
  induction past with
  | nil => exact ⟨nofun, fun k hk => (h k hk).elim, fun k hk => (h k hk).elim, nofun⟩
  | cons i past ih =>
    cases step_timers i.surroundings (a.after past) i.event with
    | armed kind ha => exact scheduled_of_armed ha
    | kept hk => exact scheduled_of_kept ih hk

theorem timer_effective_iff (h : Scheduled a past) (s : Surroundings) (t : Timer) :
    (a.after past).step s (.timer t) ≠ (a.after past, []) ↔
      (a.armed past).head? = some t ∧ a.InStay t past := by
  constructor
  · intro hne
    rcases onTimer_cases (a.after past) t with hstale | ⟨hg, hs, -⟩
    · exact (hne hstale).elim
    · have ht : t = ⟨t.kind, (a.after past).generation⟩ := by rw [← hg]
      rw [ht]
      exact ⟨h.pending t.kind hs, h.inStay t.kind hs⟩
  · rintro ⟨hhead, hin⟩ heq
    have hends := onTimer_ends (h.newest t hhead) hin.status_eq
    have hstay : (a.after past).onTimer t = (a.after past, []) := heq
    rw [hstay] at hends
    exact hends hin.status_eq

/-! ### No timer is armed twice -/

/-- Generations count the timers armed so far. -/
structure Counted (a : Advisor) (past : List Input) : Prop where
  generation : (a.after past).generation.toNat = (a.armed past).length
  bounded : ∀ t ∈ a.armed past, t.generation.toNat ≤ (a.armed past).length

theorem armed_length_le (a : Advisor) (past : List Input) (i : Input) :
    (a.armed past).length ≤ (a.armed (i :: past)).length := by
  rw [armed, List.length_append]
  omega

theorem counted (h : a.generation = 0) (past : List Input)
    (hn : (a.armed past).length < UInt64.size) : Counted a past := by
  induction past with
  | nil => exact ⟨by simp [h, armed], nofun⟩
  | cons i past ih =>
    have hc := ih (Nat.lt_of_le_of_lt (armed_length_le a past i) hn)
    cases step_timers i.surroundings (a.after past) i.event with
    | kept hk =>
      have hg : (a.after (i :: past)).generation = (a.after past).generation := hk.generation
      constructor
      · rw [hg, armed_of_kept hk]
        exact hc.generation
      · rw [armed_of_kept hk]
        exact hc.bounded
    | armed kind ha =>
      have hg : (a.after (i :: past)).generation = (a.after past).generation + 1 := ha.generation
      have hlen := congrArg List.length (armed_of_armed ha)
      rw [List.length_cons] at hlen
      have hnext : ((a.after past).generation + 1).toNat = (a.armed past).length + 1 := by
        rw [UInt64.toNat_add, hc.generation]
        exact Nat.mod_eq_of_lt (hlen ▸ hn)
      constructor
      · rw [hg, hlen, hnext]
      · intro t ht
        rw [armed_of_armed ha] at ht
        rw [hlen]
        rcases List.mem_cons.mp ht with rfl | ht
        · exact Nat.le_of_eq hnext
        · exact Nat.le_succ_of_le (hc.bounded t ht)

theorem not_armed_again (h : a.generation = 0) (hn : (a.armed (i :: past)).length < UInt64.size)
    (ht : t ∈ a.armed past) : t ∉ arms (a.callsOn past i) := by
  have hc := counted h past (Nat.lt_of_le_of_lt (armed_length_le a past i) hn)
  intro hm
  cases step_timers i.surroundings (a.after past) i.event with
  | kept hk =>
    rw [callsOn, hk.armed] at hm
    exact List.not_mem_nil hm
  | armed kind ha =>
    rw [callsOn, ha.armed, List.mem_singleton] at hm
    rw [armed_of_armed ha, List.length_cons] at hn
    have hle := hc.bounded t ht
    have hnext : t.generation.toNat = ((a.after past).generation.toNat + 1) % UInt64.size := by
      rw [hm]
      exact UInt64.toNat_add _ _
    rw [hc.generation, Nat.mod_eq_of_lt hn] at hnext
    omega

theorem mem_armed_cons (i : Input) (ht : t ∈ a.armed past) : t ∈ a.armed (i :: past) := by
  rw [armed]
  exact List.mem_append_right _ ht

theorem mem_armed_append (later : List Input) (ht : t ∈ a.armed past) :
    t ∈ a.armed (later ++ past) := by
  induction later with
  | nil => exact ht
  | cons i later ih => exact mem_armed_cons i ih

theorem delivered_after (h : a.generation = 0)
    (hn : (a.armed (later ++ ⟨s, .timer t⟩ :: earlier)).length < UInt64.size)
    (ht : t ∈ a.armed earlier) : a.Delivered t (later ++ ⟨s, .timer t⟩ :: earlier) := by
  induction later with
  | nil => exact ⟨not_armed_again h hn ht, .inl rfl⟩
  | cons i later ih =>
    have hle := armed_length_le a (later ++ ⟨s, .timer t⟩ :: earlier) i
    have hm := mem_armed_append later (mem_armed_cons ⟨s, .timer t⟩ ht)
    exact ⟨not_armed_again h hn hm, .inr (ih (Nat.lt_of_le_of_lt hle hn))⟩

end

section

variable (opening : Surroundings) (identity : Identity) (timing : Timing) (supports : Bool)
  (loaded : Except StoreFailure Blocklist)

theorem start_status :
    (start opening identity timing supports loaded).1.status = .noNotification := by
  cases loaded <;> rfl

theorem start_generation : (start opening identity timing supports loaded).1.generation = 0 := by
  cases loaded <;> rfl

/-- Whatever timers are delivered in a run, an effective one is the timer armed last, in the stay
that armed it, and ends that stay; no second delivery of it is effective; and no stay lacks the
timer that would end it. -/
theorem timers_safe_and_never_missing (past : List Input) :
    let a := (start opening identity timing supports loaded).1
    let now := a.after past
    (∀ s t, now.step s (.timer t) ≠ (now, []) ↔
      (a.armed past).head? = some t ∧ a.InStay t past) ∧
    (∀ s t, now.step s (.timer t) ≠ (now, []) →
      now.status = t.kind.status ∧ (now.step s (.timer t)).1.status ≠ t.kind.status) ∧
    ((a.armed past).length < UInt64.size → ∀ later earlier s t,
      past = later ++ ⟨s, .timer t⟩ :: earlier →
      (a.after earlier).step s (.timer t) ≠ (a.after earlier, []) →
      ∀ again, now.step again (.timer t) = (now, [])) ∧
    ∀ kind : TimerKind, now.status = kind.status →
      (a.armed past).head? = some ⟨kind, now.generation⟩ ∧
        ¬ a.Delivered ⟨kind, now.generation⟩ past := by
  intro a now
  have huntimed : ∀ kind : TimerKind, a.status ≠ kind.status :=
    untimed (.inl (start_status opening identity timing supports loaded))
  have hgen : a.generation = 0 := start_generation opening identity timing supports loaded
  have hsched : Scheduled a past := scheduled huntimed past
  refine ⟨timer_effective_iff hsched, ?_, ?_, ?_⟩
  · intro s t hne
    obtain ⟨hhead, hin⟩ := (timer_effective_iff hsched s t).mp hne
    exact ⟨hin.status_eq, onTimer_ends (hsched.newest t hhead) hin.status_eq⟩
  · intro hn later earlier s t hpast heff again
    have hfirst := ((timer_effective_iff (scheduled huntimed earlier) s t).mp heff).1
    -- It cannot have been armed again since, so it stays delivered, unlike a pending timer.
    have hdel : a.Delivered t past := by
      rw [hpast] at hn ⊢
      exact delivered_after hgen hn (List.mem_of_head? hfirst)
    apply Classical.byContradiction
    intro hne
    obtain ⟨hhead, hin⟩ := (timer_effective_iff hsched again t).mp hne
    have hnot := hsched.undelivered t.kind hin.status_eq
    rw [← hsched.newest t hhead] at hnot
    exact hnot hdel
  · intro kind hk
    exact ⟨hsched.pending kind hk, hsched.undelivered kind hk⟩

end

namespace Cafe

def started : Advisor := (start (.permissive 0) .openNetworks {} true (.ok ∅)).1

/-- The connecting timeout comes too late. -/
def connected : List Input :=
  [⟨.permissive 50, .timer ⟨.connectingTimeout, 1⟩⟩,
    ⟨.permissive 40, .wifiConnected (some "cafe")⟩,
    ⟨.permissive 30, .action ⟨Identity.openNetworks.tag, .connect⟩⟩,
    ⟨.permissive 20, .scan [.ofSignal "cafe" (-40)]⟩,
    ⟨.permissive 10, .screen true⟩]

def shown : Timer := ⟨.connectedShown, 2⟩

def recommendedAgain : List Input :=
  ⟨.permissive 70, .scan [.ofSignal "plaza" (-40)]⟩ :: ⟨.permissive 60, .timer shown⟩ :: connected

end Cafe

open Cafe in
theorem timers_safe_after_late_timeout :
    (started.after connected).status = .connected ∧
      (started.armed connected).head? = some shown ∧ ¬ started.Delivered shown connected ∧
      (started.after recommendedAgain).status = .recommending ∧
      ∀ again, (started.after recommendedAgain).step again (.timer shown) =
        (started.after recommendedAgain, []) := by
  have hconnected : (started.after connected).status = .connected := by decide +kernel
  have heffective : (started.after connected).step (.permissive 60) (.timer shown) ≠
      (started.after connected, []) := by
    intro h
    have hs := congrArg (fun r => r.1.status) h
    exact absurd hs (by decide +kernel)
  obtain ⟨-, -, -, hpending⟩ := timers_safe_and_never_missing (.permissive 0) .openNetworks {} true
    (.ok ∅) connected
  obtain ⟨-, -, hspent, -⟩ := timers_safe_and_never_missing (.permissive 0) .openNetworks {} true
    (.ok ∅) recommendedAgain
  obtain ⟨hhead, hdelivered⟩ := hpending .connectedShown hconnected
  refine ⟨hconnected, hhead, hdelivered, by decide +kernel, ?_⟩
  exact hspent (by decide +kernel) [_] connected (.permissive 60) shown rfl heffective

end Advisor

end WifiAdvisor
