import WifiAdvisor.Proofs.BlocklistStep
import WifiAdvisor.Proofs.PhaseStep
import WifiAdvisor.Proofs.Timers

/-!
# Attempts to connect

Only a request for the held network reaches the network store. If the network cannot be configured,
nothing changes but the notice; else it is offered to the store once and connecting begins. What
comes with being taken over comes all together: the connection, the block, the save and the
attribution; a refusal brings none of it.
-/
namespace WifiAdvisor

open Effect

/-- The call has to do with getting a network connected. -/
def Effect.attempts : Effect → Bool
  | .add _ _ _ | .connect _ => true
  | _ => false

/-- No call is part of an attempt. -/
def Effect.Quiet (calls : List Effect) : Prop := ∀ c ∈ calls, c.attempts = false

theorem Effect.Quiet.offers {calls : List Effect} (h : Quiet calls) : offers calls = [] := by
  refine List.filterMap_eq_nil_iff.mpr fun c hc => ?_
  have hq := h c hc
  cases c <;> first | rfl | cases hq

theorem Effect.Quiet.connections {calls : List Effect} (h : Quiet calls) :
    connections calls = [] := by
  refine List.filterMap_eq_nil_iff.mpr fun c hc => ?_
  have hq := h c hc
  cases c <;> first | rfl | cases hq

theorem Effect.numbers_eq_offers (calls : List Effect) :
    numbers calls = (offers calls).filterMap fun offer => offer.answer.toOption := by
  induction calls with
  | nil => rfl
  | cons c calls ih =>
    cases c with
    | add config owner answer => cases answer <;> simp [ih, Except.toOption]
    | _ => simp [ih]

namespace Advisor

variable {s : Surroundings} {a : Advisor} {e : Event} {held : Candidate} {config : NetworkConfig}
  {past : List Input}

/-! ### Handlers that attempt nothing -/

theorem clear_quiet (a : Advisor) (r : Bool) : Quiet (a.clear r).2 := by
  cases r <;> cases hp : a.phase <;> simp [Quiet, clear, hp, attempts]

theorem propose_quiet (s : Surroundings) (a : Advisor) (c : Candidate) :
    Quiet (a.propose s c).2 := by
  unfold propose
  split
  · simp [Quiet, posting, attempts]
  · split <;> simp [Quiet, posting, attempts]
  · simp [Quiet]

theorem onScan_quiet (s : Surroundings) (a : Advisor) (cs : List Candidate) :
    Quiet (a.onScan s cs).2 := by
  cases onScan_cases s a cs with
  | refused _ h =>
    rw [h]
    exact clear_quiet a true
  | ignored _ h =>
    rw [h]
    exact List.forall_mem_nil _
  | lost _ _ h =>
    rw [h]
    exact clear_quiet a false
  | proposed c _ _ _ h =>
    rw [h]
    exact propose_quiet s a c

theorem onFailure_quiet (a : Advisor) : Quiet a.onFailure.2 := by
  cases hp : a.phase <;> simp [Quiet, onFailure, hp, armTimer, posting, attempts]

theorem settle_quiet (a : Advisor) : Quiet a.settle.2 := by
  by_cases hs : a.status = .connecting
  · obtain ⟨held, hp⟩ : ∃ held, a.phase = .connecting held := phase_of_status hs
    simp [Quiet, settle, hp, armTimer, posting, attempts]
  · rw [settle_outside_connecting hs]
    exact clear_quiet a true

theorem onConnected_quiet (a : Advisor) (ssid : Option String) :
    Quiet (a.onConnected ssid).2 := by
  cases ssid with
  | none =>
    rw [onConnected_none]
    exact settle_quiet a
  | some x =>
    rw [onConnected_some]
    refine List.forall_mem_append.mpr ⟨?_, settle_quiet _⟩
    unfold unblock
    split <;> simp [persist, attempts]

theorem onDismiss_quiet (s : Surroundings) (a : Advisor) : Quiet (a.onDismiss s).2 := by
  simp only [onDismiss]
  refine List.forall_mem_append.mpr ⟨?_, clear_quiet _ false⟩
  split <;> simp [block, persist, attempts]

theorem onPick_quiet (a : Advisor) (action : Action) : Quiet (a.onPick action).2 :=
  List.forall_mem_cons.mpr ⟨rfl, clear_quiet (a.tally action) false⟩

theorem onTimer_quiet (a : Advisor) (t : Timer) : Quiet (a.onTimer t).2 := by
  rcases onTimer_cases a t with h | ⟨-, -, h⟩
  · rw [h]
    exact List.forall_mem_nil _
  · rw [h]
    cases t.kind with
    | connectingTimeout => exact onFailure_quiet a
    | connectedShown => exact clear_quiet a true
    | failedShown => exact clear_quiet a false

theorem onConnect_quiet (h : a.status ≠ .recommending) : Quiet (a.onConnect s).2 := by
  cases hp : a.phase with
  | recommending held => exact (h (congrArg Phase.status hp)).elim
  | _ => simp [Quiet, onConnect, tally, hp]

/-- Nothing but a request for the held network attempts anything. -/
theorem step_quiet
    (h : ∀ held, e = .action ⟨a.identity.tag, .connect⟩ → a.phase ≠ .recommending held) :
    Quiet (a.step s e).2 := by
  cases e with
  | scan cs => exact onScan_quiet s a cs
  | screen on => exact List.forall_mem_nil _
  | wifiConnected ssid => exact onConnected_quiet a ssid
  | connectionFailure => exact onFailure_quiet a
  | sendFailed reason => exact onFailure_quiet a
  | action event =>
    obtain ⟨tag, action⟩ := event
    by_cases ht : tag = a.identity.tag
    · subst tag
      simp only [step, onAction, if_true]
      cases action with
      | dismiss => exact onDismiss_quiet s a
      | connect =>
        refine onConnect_quiet fun hs => ?_
        obtain ⟨held, hp⟩ : ∃ held, a.phase = .recommending held := phase_of_status hs
        exact h held rfl hp
      | pick => exact onPick_quiet a .pick
      | pickAfterFailure => exact onPick_quiet a .pickAfterFailure
    · rw [step_foreign_action s ht]
      exact List.forall_mem_nil _
  | settingChanged => exact clear_quiet (a.readSetting s) true
  | clear r => exact clear_quiet a r
  | timer t => exact onTimer_quiet a t
  | restored ssids => exact List.forall_mem_nil _

/-! ### Requests for the held network -/

/-- Connecting begins, the network having been offered to the store. -/
structure Begins (s : Surroundings) (a : Advisor) (held : Candidate) (config : NetworkConfig)
    (r : Advisor × List Effect) : Prop where
  phase : r.1.phase = .connecting held
  offered : offers r.2 = [⟨config, ownerUid, s.addNetwork config⟩]
  armed : arms r.2 = [⟨.connectingTimeout, a.generation + 1⟩]

/-- All that comes with being taken over under the number `id`. -/
structure TakenOver (a : Advisor) (held : Candidate) (id : NetworkId)
    (r : Advisor × List Effect) : Prop where
  connected : connections r.2 = [id]
  blocked : held.ssid ∈ r.1.blocklist
  saved : saves r.2 = [(a.identity.storeKey, r.1.blocklist)]
  attributed : r.1.metrics.nominators = a.metrics.nominators.insert id a.identity.nominator

/-- None of it. -/
structure Spared (a : Advisor) (r : Advisor × List Effect) : Prop where
  connected : connections r.2 = []
  blocklist : r.1.blocklist = a.blocklist
  saved : saves r.2 = []
  nominators : r.1.metrics.nominators = a.metrics.nominators

/-- Nothing changes that outlasts the notice. -/
structure Fruitless (a : Advisor) (r : Advisor × List Effect) : Prop extends Spared a r where
  phase : r.1.phase = a.phase
  repeatAt : r.1.repeatAt = a.repeatAt
  generation : r.1.generation = a.generation
  offered : offers r.2 = []
  armed : arms r.2 = []

theorem onConnect_begins (hp : a.phase = .recommending held)
    (hc : s.configure held = some config) : Begins s a held config (a.onConnect s) := by
  cases h : s.addNetwork config <;> constructor <;>
    simp [onConnect, tally, hp, hc, request, h, count, block, withBlocklist, persist, armTimer,
      posting]

theorem onConnect_takenOver {id : NetworkId} (hp : a.phase = .recommending held)
    (hc : s.configure held = some config) (h : s.addNetwork config = .ok id) :
    TakenOver a held id (a.onConnect s) := by
  constructor <;>
    simp [onConnect, tally, hp, hc, request, h, count, block, withBlocklist, persist, armTimer,
      posting, Metrics.recordAction, Metrics.recordNotification, Metrics.setNominator]

theorem onConnect_spared {rejection : Rejection} (hp : a.phase = .recommending held)
    (hc : s.configure held = some config) (h : s.addNetwork config = .error rejection) :
    Spared a (a.onConnect s) := by
  constructor <;>
    simp [onConnect, tally, hp, hc, request, h, count, armTimer, posting, Metrics.recordAction,
      Metrics.recordNotification]

theorem onConnect_fruitless (hp : a.phase = .recommending held)
    (hc : s.configure held = none) : Fruitless a (a.onConnect s) := by
  refine ⟨⟨?_, ?_, ?_, ?_⟩, ?_, ?_, ?_, ?_, ?_⟩ <;>
    simp [onConnect, tally, hp, hc, count, posting, Metrics.recordAction,
      Metrics.recordNotification]

/-- What becomes of an event that may be a request for the held network. -/
inductive AttemptStep (s : Surroundings) (a : Advisor) (e : Event) : Prop where
  | accepted (held : Candidate) (config : NetworkConfig) (id : NetworkId) :
      e = .action ⟨a.identity.tag, .connect⟩ → a.phase = .recommending held →
      s.configure held = some config → s.addNetwork config = .ok id →
      Begins s a held config (a.step s e) → TakenOver a held id (a.step s e) → AttemptStep s a e
  | refused (held : Candidate) (config : NetworkConfig) (rejection : Rejection) :
      e = .action ⟨a.identity.tag, .connect⟩ → a.phase = .recommending held →
      s.configure held = some config → s.addNetwork config = .error rejection →
      Begins s a held config (a.step s e) → Spared a (a.step s e) → AttemptStep s a e
  | unconfigured (held : Candidate) : e = .action ⟨a.identity.tag, .connect⟩ →
      a.phase = .recommending held → s.configure held = none → Fruitless a (a.step s e) →
      AttemptStep s a e
  | other : (∀ held, e = .action ⟨a.identity.tag, .connect⟩ → a.phase ≠ .recommending held) →
      Quiet (a.step s e).2 → AttemptStep s a e

theorem step_attempt (s : Surroundings) (a : Advisor) (e : Event) : AttemptStep s a e := by
  by_cases h : ∃ held, e = .action ⟨a.identity.tag, .connect⟩ ∧ a.phase = .recommending held
  · obtain ⟨held, he, hp⟩ := h
    have hs : a.step s e = a.onConnect s := by rw [he, step_own_connect]
    cases hc : s.configure held with
    | none =>
      refine .unconfigured held he hp hc ?_
      rw [hs]
      exact onConnect_fruitless hp hc
    | some config =>
      have hb := onConnect_begins hp hc
      rw [← hs] at hb
      cases ha : s.addNetwork config with
      | ok id =>
        refine .accepted held config id he hp hc ha hb ?_
        rw [hs]
        exact onConnect_takenOver hp hc ha
      | error rejection =>
        refine .refused held config rejection he hp hc ha hb ?_
        rw [hs]
        exact onConnect_spared hp hc ha
  · have hn : ∀ held, e = .action ⟨a.identity.tag, .connect⟩ → a.phase ≠ .recommending held :=
      fun held he hp => h ⟨held, he, hp⟩
    exact .other hn (step_quiet hn)

theorem step_connections (s : Surroundings) (a : Advisor) (e : Event) :
    connections (a.step s e).2 = numbers (a.step s e).2 := by
  rw [numbers_eq_offers]
  cases step_attempt s a e with
  | accepted held config id _ _ _ ha hb ht =>
    rw [ht.connected, hb.offered, ha]
    rfl
  | refused held config rejection _ _ _ ha hb hk =>
    rw [hk.connected, hb.offered, ha]
    rfl
  | unconfigured held _ _ _ hf =>
    rw [hf.connected, hf.offered]
    rfl
  | other _ hq =>
    rw [hq.connections, hq.offers]
    rfl

/-- What is true of a network that is offered to the store. -/
structure Offered (s : Surroundings) (a : Advisor) (offer : Addition)
    (r : Advisor × List Effect) : Prop where
  owner : offer.owner = ownerUid
  answer : offer.answer = s.addNetwork offer.config
  held : ∃ held, a.held? = some held ∧ s.configure held = some offer.config ∧
    ∀ id, offer.answer = .ok id → TakenOver a held id r
  spared : ∀ rejection, offer.answer = .error rejection → Spared a r

theorem step_offers {offer : Addition} (h : offer ∈ offers (a.step s e).2) :
    Offered s a offer (a.step s e) := by
  cases step_attempt s a e with
  | accepted held config id _ hp hc ha hb ht =>
    rw [hb.offered, List.mem_singleton] at h
    subst offer
    refine ⟨rfl, rfl, ⟨held, by rw [held?, hp]; rfl, hc, fun other ho => ?_⟩, fun _ ho => ?_⟩
    · cases ha.symm.trans ho
      exact ht
    · cases ha.symm.trans ho
  | refused held config rejection _ hp hc ha hb hk =>
    rw [hb.offered, List.mem_singleton] at h
    subst offer
    refine ⟨rfl, rfl, ⟨held, by rw [held?, hp]; rfl, hc, fun other ho => ?_⟩, fun _ _ => hk⟩
    cases ha.symm.trans ho
  | unconfigured held _ _ _ hf =>
    rw [hf.offered] at h
    exact (List.not_mem_nil h).elim
  | other _ hq =>
    rw [hq.offers] at h
    exact (List.not_mem_nil h).elim

theorem enters_connecting_iff (s : Surroundings) (a : Advisor) (e : Event) :
    a.status ≠ .connecting ∧ (a.step s e).1.status = .connecting ↔ Asks s a e := by
  constructor
  · rintro ⟨hne, hafter⟩
    cases step_phase s a e with
    | requested held config he hp hc _ => exact ⟨held, config, he, hp, hc⟩
    | kept _ _ _ hl => exact (hne ((congrArg Phase.status hl.phase).symm.trans hafter)).elim
    | unconfigured _ _ _ _ hl =>
      exact (hne ((congrArg Phase.status hl.phase).symm.trans hafter)).elim
    | cleared _ hl => cases (congrArg Phase.status hl.phase).symm.trans hafter
    | dismissed _ hl => cases (congrArg Phase.status hl.phase).symm.trans hafter
    | recommended _ _ _ _ _ _ hl => cases (congrArg Phase.status hl.phase).symm.trans hafter
    | connected _ _ _ _ hl => cases (congrArg Phase.status hl.phase).symm.trans hafter
    | failed _ _ _ _ hl => cases (congrArg Phase.status hl.phase).symm.trans hafter
  · rintro ⟨held, config, rfl, hp, hc⟩
    have hs : a.status = .recommending := congrArg Phase.status hp
    refine ⟨by rw [hs]; decide, ?_⟩
    rw [step_own_connect, onConnect_requests hp hc]

theorem step_asks (h : Asks s a e) :
    ∃ held config, a.phase = .recommending held ∧ s.configure held = some config ∧
      Begins s a held config (a.step s e) := by
  obtain ⟨held, config, he, hp, hc⟩ := h
  refine ⟨held, config, hp, hc, ?_⟩
  rw [he, step_own_connect]
  exact onConnect_begins hp hc

/-- How many notices tell the outcome of an attempt. -/
def verdicts (calls : List Effect) : Nat :=
  (notices calls).countP fun n => n.kind = .connected ∨ n.kind = .failed

theorem step_verdicts (s : Surroundings) (a : Advisor) (e : Event) :
    verdicts (a.step s e).2 = 0 ∨ verdicts (a.step s e).2 = 1 ∧ a.status = .connecting ∧
      (a.step s e).1.status ≠ .connecting := by
  cases step_phase s a e with
  | kept _ _ _ hl => exact .inl (by simp [verdicts, hl.notices_eq])
  | cleared _ hl => exact .inl (by simp [verdicts, hl.notices_eq])
  | dismissed _ hl => exact .inl (by simp [verdicts, hl.notices_eq])
  | recommended _ _ _ _ _ _ hl => exact .inl (by simp [verdicts, hl.notices_eq, Notice.compose])
  | requested _ _ _ _ _ hl => exact .inl (by simp [verdicts, hl.notices_eq, Notice.compose])
  | unconfigured _ _ _ _ hl => exact .inl (by simp [verdicts, hl.notices_eq, Notice.compose])
  | connected held ssid _ hp hl =>
    have hafter : (a.step s e).1.status = .connected := congrArg Phase.status hl.phase
    refine .inr ⟨by simp [verdicts, hl.notices_eq, Notice.compose], congrArg Phase.status hp, ?_⟩
    rw [hafter]
    decide
  | failed held _ _ hp hl =>
    have hafter : (a.step s e).1.status = .failed := congrArg Phase.status hl.phase
    refine .inr ⟨by simp [verdicts, hl.notices_eq, Notice.compose], congrArg Phase.status hp, ?_⟩
    rw [hafter]
    decide

/-! ### Runs -/

theorem connections_log (a : Advisor) (past : List Input) :
    connections (a.log past).reverse.flatten = numbers (a.log past).reverse.flatten := by
  induction past with
  | nil => rfl
  | cons i past ih =>
    have hnow : connections (a.callsOn past i) = numbers (a.callsOn past i) :=
      step_connections i.surroundings (a.after past) i.event
    simp only [log, List.reverse_cons, List.flatten_append, List.flatten_singleton, view_append,
      ih, hnow]

/-- Outcomes told since connecting was last begun. -/
def outcomes (a : Advisor) : List Input → Nat
  | [] => 0
  | i :: past =>
    if (a.after past).status ≠ .connecting ∧ (a.after (i :: past)).status = .connecting then 0
    else a.outcomes past + verdicts (a.callsOn past i)

theorem outcomes_le (a : Advisor) (past : List Input) :
    a.outcomes past ≤ if (a.after past).status = .connecting then 0 else 1 := by
  induction past with
  | nil => exact Nat.zero_le _
  | cons i past ih =>
    rw [outcomes]
    split
    · exact Nat.zero_le _
    · -- An outcome is told on leaving only, and until then there was none.
      rename_i hstay
      rcases step_verdicts i.surroundings (a.after past) i.event with hn | ⟨hn, hs, hafter⟩
      · have hnow : verdicts (a.callsOn past i) = 0 := hn
        rw [hnow]
        by_cases hafter : (a.after (i :: past)).status = .connecting
        · have hbefore : (a.after past).status = .connecting :=
            Classical.byContradiction fun hb => hstay ⟨hb, hafter⟩
          rw [if_pos hbefore] at ih
          rwa [if_pos hafter]
        · rw [if_neg hafter]
          split at ih <;> omega
      · have hnow : verdicts (a.callsOn past i) = 1 := hn
        have hleft : (a.after (i :: past)).status ≠ .connecting := hafter
        rw [if_pos hs] at ih
        rw [hnow, if_neg hleft]
        omega

section

variable (opening : Surroundings) (identity : Identity) (timing : Timing) (supports : Bool)
  (loaded : Except StoreFailure Blocklist)

/-- Connections are asked for as networks are taken over, in order. A network is offered to the
store for the advisor's owner, configured from the held record, when connecting begins; being taken
over brings everything with it and a refusal nothing; what cannot be configured is no attempt; and
connecting has one outcome at most. -/
theorem attempts_all_or_nothing (past : List Input) :
    let a := (start opening identity timing supports loaded).1
    let now := a.after past
    let calls := (a.log past).reverse.flatten
    connections calls = (offers calls).filterMap (fun offer => offer.answer.toOption) ∧
    a.outcomes past ≤ 1 ∧
    ∀ s e,
      let r := now.step s e
      (∀ offer ∈ offers r.2, offer.owner = 1010 ∧ offer.answer = s.addNetwork offer.config ∧
        ∃ held, now.held? = some held ∧ s.configure held = some offer.config ∧
          match offer.answer with
          | .ok id => TakenOver now held id r
          | .error _ => Spared now r) ∧
      (now.status ≠ .connecting ∧ r.1.status = .connecting ↔ Asks s now e) ∧
      (Asks s now e → (offers r.2).length = 1 ∧
        arms r.2 = [⟨.connectingTimeout, now.generation + 1⟩]) ∧
      (∀ held, e = .action ⟨now.identity.tag, .connect⟩ → now.phase = .recommending held →
        s.configure held = none → Fruitless now r) := by
  intro a now calls
  refine ⟨?_, ?_, ?_⟩
  · rw [connections_log, numbers_eq_offers]
  · have h := a.outcomes_le past
    split at h <;> omega
  · intro s e r
    refine ⟨?_, enters_connecting_iff s now e, ?_, ?_⟩
    · intro offer ho
      obtain ⟨howner, hanswer, ⟨held, hheld, hc, htaken⟩, hspared⟩ := step_offers ho
      refine ⟨howner, hanswer, held, hheld, hc, ?_⟩
      split
      · rename_i id hid
        exact htaken id hid
      · rename_i rejection hr
        exact hspared rejection hr
    · intro ha
      obtain ⟨held, config, -, -, hb⟩ := step_asks ha
      refine ⟨?_, hb.armed⟩
      rw [hb.offered]
      rfl
    · rintro held rfl hp hc
      show Fruitless now (now.step s (.action ⟨now.identity.tag, .connect⟩))
      rw [step_own_connect]
      exact onConnect_fruitless hp hc

end

namespace Quay

def opened : Advisor := (start (.permissive 0) .openNetworks {} true (.ok ∅)).1

def recommended : List Input :=
  [⟨.permissive 20, .scan [.ofSignal "quay" (-40)]⟩, ⟨.permissive 10, .screen true⟩]

/-- The network store takes nothing more. -/
def full : Surroundings :=
  { Surroundings.permissive 30 with
    addNetwork := fun config => .error { ssid := config.ssid, reason := "full" } }

def tap : Event := .action ⟨Identity.openNetworks.tag, .connect⟩

end Quay

open Quay in
/-- Connecting begins though the network was refused, and nothing else comes of it. -/
theorem attempts_on_full_store :
    Asks full (opened.after recommended) tap ∧
      ((opened.after recommended).step full tap).1.status = .connecting ∧
      (offers ((opened.after recommended).step full tap).2).length = 1 ∧
      ∀ offer ∈ offers ((opened.after recommended).step full tap).2,
        offer.owner = 1010 ∧ Spared (opened.after recommended)
          ((opened.after recommended).step full tap) := by
  obtain ⟨-, -, hstep⟩ :=
    attempts_all_or_nothing (.permissive 0) .openNetworks {} true (.ok ∅) recommended
  obtain ⟨hoffers, hentry, hbegins, -⟩ := hstep full tap
  have hasks : Asks full (opened.after recommended) tap :=
    ⟨.ofSignal "quay" (-40), ⟨"quay", .open⟩, rfl, by decide +kernel, by decide +kernel⟩
  refine ⟨hasks, (hentry.mpr hasks).2, (hbegins hasks).1, ?_⟩
  intro offer ho
  obtain ⟨howner, hanswer, held, -, -, houtcome⟩ := hoffers offer ho
  have hrefused : offer.answer = .error { ssid := offer.config.ssid, reason := "full" } := hanswer
  rw [hrefused] at houtcome
  exact ⟨howner, houtcome⟩

end Advisor

end WifiAdvisor
