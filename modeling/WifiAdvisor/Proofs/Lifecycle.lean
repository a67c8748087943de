import WifiAdvisor.Proofs.SplitState

/-!
# The lifecycle of a notification

`Edge` is the documented lifecycle, one constructor for each way from one state to another.
Every change of state is one of these edges, and whatever an edge asks for is enough. The edges are
those of the split advisor; what is shown of the advisor with a phase carries over to it wherever
state and recommendation are in step.
-/
namespace WifiAdvisor

/-- The ways from one state to another that an event opens. -/
inductive SplitAdvisor.Edge (s : Surroundings) (m : SplitAdvisor) :
    Event → Status → Status → Prop where
  | recommend {cs : List Candidate} {c : Candidate} :
      m.admission.isEnabled s.restrictions = true → m.admission.screenOn = true →
      m.repeatAt ≤ s.now → Selection.recommend? cs m.blocklist = some c →
      Edge s m (.scan cs) .noNotification .recommending
  | request {held : Candidate} {config : NetworkConfig} :
      m.recommended = some held → s.configure held = some config →
      Edge s m (.action ⟨m.identity.tag, .connect⟩) .recommending .connecting
  | connected (ssid : Option String) : Edge s m (.wifiConnected ssid) .connecting .connected
  | failure : Edge s m .connectionFailure .connecting .failed
  | sendFailure (reason : Int32) : Edge s m (.sendFailed reason) .connecting .failed
  | timeout : Edge s m (.timer ⟨.connectingTimeout, m.generation⟩) .connecting .failed
  | refused {source : Status} (cs : List Candidate) : source ≠ .noNotification →
      m.admission.isEnabled s.restrictions = false →
      Edge s m (.scan cs) source .noNotification
  | lost {cs : List Candidate} : Selection.recommend? cs m.blocklist = none →
      Edge s m (.scan cs) .recommending .noNotification
  | switched {source : Status} : source ≠ .noNotification →
      Edge s m .settingChanged source .noNotification
  | cleared {source : Status} (r : Bool) : source ≠ .noNotification →
      Edge s m (.clear r) source .noNotification
  | left {source : Status} {action : Action} : source ≠ .noNotification → action ≠ .connect →
      Edge s m (.action ⟨m.identity.tag, action⟩) source .noNotification
  | joined {source : Status} (ssid : Option String) : source ≠ .noNotification →
      source ≠ .connecting → Edge s m (.wifiConnected ssid) source .noNotification
  | connectedShown : Edge s m (.timer ⟨.connectedShown, m.generation⟩) .connected .noNotification
  | failedShown : Edge s m (.timer ⟨.failedShown, m.generation⟩) .failed .noNotification

theorem SplitAdvisor.Edge.source_ne_target {s : Surroundings} {m : SplitAdvisor} {e : Event}
    {source target : Status} (h : Edge s m e source target) : source ≠ target := by
  cases h <;> first | assumption | decide

namespace Advisor

open SplitAdvisor (Edge)

variable {s : Surroundings} {a : Advisor} {e : Event} {source target : Status}

@[simp] theorem clear_status (a : Advisor) (r : Bool) :
    (a.clear r).1.status = .noNotification := by
  cases hp : a.phase <;> cases r <;> simp [clear, hp, status, Phase.status]

/-! ### Scans -/

theorem propose_status {c : Candidate}
    (h : a.status = .noNotification ∨ a.status = .recommending) :
    (a.propose s c).1.status = .recommending := by
  rcases h with h | h
  · obtain ⟨-, hp⟩ : ∃ _, a.phase = .idle := phase_of_status h
    simp [propose, hp, status, Phase.status, deferRepeat]
  · obtain ⟨held, hp⟩ : ∃ held, a.phase = .recommending held := phase_of_status h
    simp only [propose, hp]
    split <;> simp [status, hp, Phase.status, deferRepeat]

theorem onScan_refused (cs : List Candidate) (h : a.admission.isEnabled s.restrictions = false) :
    a.onScan s cs = a.clear true := by
  simp [onScan, h]

theorem onScan_recommends {cs : List Candidate} {c : Candidate}
    (hen : a.admission.isEnabled s.restrictions = true) (hon : a.admission.screenOn = true)
    (hnow : a.repeatAt ≤ s.now) (ha : a.status = .noNotification)
    (hc : Selection.recommend? cs a.blocklist = some c) : a.onScan s cs = a.propose s c := by
  obtain ⟨-, hp⟩ : ∃ _, a.phase = .idle := phase_of_status ha
  have hlt : ¬ s.now < a.repeatAt := UInt64.not_lt.mpr hnow
  simp [onScan, hen, hp, hlt, hon, hc]

theorem onScan_loses {cs : List Candidate} (hen : a.admission.isEnabled s.restrictions = true)
    (ha : a.status = .recommending) (hc : Selection.recommend? cs a.blocklist = none) :
    a.onScan s cs = a.clear false := by
  obtain ⟨held, hp⟩ : ∃ held, a.phase = .recommending held := phase_of_status ha
  simp [onScan, hen, hp, hc]

theorem onScan_edge (s : Surroundings) (a : Advisor) (cs : List Candidate) :
    (a.onScan s cs).1.status = a.status ∨
      Edge s a.split (.scan cs) a.status (a.onScan s cs).1.status := by
  cases hen : a.admission.isEnabled s.restrictions with
  | false =>
    rw [onScan_refused cs hen, clear_status]
    by_cases ha : a.status = .noNotification
    · exact .inl ha.symm
    · exact .inr (.refused cs ha hen)
  | true =>
    cases ha : a.status with
    | noNotification =>
      obtain ⟨-, hp⟩ : ∃ _, a.phase = .idle := phase_of_status ha
      by_cases hw : s.now < a.repeatAt ∨ a.admission.screenOn = false
      · have hstay : a.onScan s cs = (a, []) := by simp [onScan, hen, hp, hw]
        exact .inl (by rw [hstay, ha])
      · obtain ⟨hnow, hon⟩ := not_or.mp hw
        cases hc : Selection.recommend? cs a.blocklist with
        | none =>
          have hclear : a.onScan s cs = a.clear false := by simp [onScan, hen, hp, hw, hc]
          exact .inl (by rw [hclear, clear_status])
        | some c =>
          have hnow := UInt64.not_lt.mp hnow
          have hon := Bool.not_eq_false _ ▸ hon
          rw [onScan_recommends hen hon hnow ha hc, propose_status (.inl ha)]
          exact .inr (.recommend hen hon hnow hc)
    | recommending =>
      obtain ⟨held, hp⟩ : ∃ held, a.phase = .recommending held := phase_of_status ha
      cases hc : Selection.recommend? cs a.blocklist with
      | none =>
        rw [onScan_loses hen ha hc, clear_status]
        exact .inr (.lost hc)
      | some c =>
        have hpropose : a.onScan s cs = a.propose s c := by simp [onScan, hen, hp, hc]
        exact .inl (by rw [hpropose, propose_status (.inr ha)])
    | _ =>
      obtain ⟨held, hp⟩ := phase_of_status ha
      have hstay : a.onScan s cs = (a, []) := by simp [onScan, hen, hp, phaseOf]
      exact .inl (by rw [hstay, ha])

/-! ### Connections -/

theorem settle_status (a : Advisor) :
    a.settle.1.status = if a.status = .connecting then .connected else .noNotification := by
  by_cases h : a.status = .connecting
  · obtain ⟨held, hp⟩ : ∃ held, a.phase = .connecting held := phase_of_status h
    rw [if_pos h]
    simp [settle, hp, status, Phase.status, armTimer]
  · rw [if_neg h, settle_outside_connecting h, clear_status]

theorem onConnected_status (a : Advisor) (ssid : Option String) :
    (a.onConnected ssid).1.status =
      if a.status = .connecting then .connected else .noNotification := by
  cases ssid with
  | none => rw [onConnected_none, settle_status]
  | some x =>
    have hu : (a.unblock x).1.status = a.status := by
      unfold unblock
      split <;> rfl
    rw [onConnected_some, settle_status, hu]

theorem onFailure_status (a : Advisor) :
    a.onFailure.1.status = if a.status = .connecting then .failed else a.status := by
  by_cases h : a.status = .connecting
  · obtain ⟨held, hp⟩ : ∃ held, a.phase = .connecting held := phase_of_status h
    rw [if_pos h]
    simp [onFailure, hp, status, Phase.status, armTimer]
  · rw [if_neg h, onFailure_ignored h]

theorem onConnect_requests {held : Candidate} {config : NetworkConfig}
    (hp : a.phase = .recommending held) (hc : s.configure held = some config) :
    (a.onConnect s).1.status = .connecting := by
  have ht : (a.tally .connect).phase = .recommending held := hp
  simp [onConnect, ht, hc, status, Phase.status, armTimer]

theorem onConnect_stays
    (h : ∀ held, a.phase = .recommending held → s.configure held = none) :
    (a.onConnect s).1.status = a.status := by
  cases hp : a.phase with
  | recommending held => simp [onConnect, hp, h held hp, status, tally, count]
  | _ => simp [onConnect, hp, status, tally]

theorem onConnect_edge (s : Surroundings) (a : Advisor) :
    (a.onConnect s).1.status = a.status ∨
      Edge s a.split (.action ⟨a.identity.tag, .connect⟩) a.status (a.onConnect s).1.status := by
  rcases configures_or_refuses s a with ⟨held, config, hp, hc⟩ | h
  · have ha : a.status = .recommending := by simp [status, hp, Phase.status]
    have hheld : a.held? = some held := by simp [held?, hp, Phase.held?]
    rw [onConnect_requests hp hc, ha]
    exact .inr (.request hheld hc)
  · exact .inl (onConnect_stays h)

/-! ### The other ways out -/

@[simp] theorem onDismiss_status (s : Surroundings) (a : Advisor) :
    (a.onDismiss s).1.status = .noNotification := by
  simp only [onDismiss]
  exact clear_status _ false

@[simp] theorem onPick_status (a : Advisor) (action : Action) :
    (a.onPick action).1.status = .noNotification := by
  simp only [onPick]
  exact clear_status _ false

theorem onAction_leaves {action : Action} (h : action ≠ .connect) :
    (a.onAction s ⟨a.identity.tag, action⟩).1.status = .noNotification := by
  cases action <;> simp [onAction] at h ⊢

theorem onAction_edge (s : Surroundings) (a : Advisor) (event : ActionEvent) :
    (a.onAction s event).1.status = a.status ∨
      Edge s a.split (.action event) a.status (a.onAction s event).1.status := by
  obtain ⟨tag, action⟩ := event
  by_cases ht : tag = a.identity.tag
  · subst tag
    by_cases hc : action = .connect
    · subst action
      have ho : a.onAction s ⟨a.identity.tag, .connect⟩ = a.onConnect s := by simp [onAction]
      rw [ho]
      exact onConnect_edge s a
    · rw [onAction_leaves hc]
      by_cases ha : a.status = .noNotification
      · exact .inl ha.symm
      · exact .inr (.left ha hc)
  · have hstay : a.onAction s ⟨tag, action⟩ = (a, []) := by simp [onAction, ht]
    exact .inl (by rw [hstay])

theorem expire_status {kind : TimerKind} (h : a.status = kind.status) :
    (a.expire kind).1.status = if kind = .connectingTimeout then .failed else .noNotification := by
  cases kind with
  | connectingTimeout =>
    have ha : a.status = .connecting := h
    simp [expire, onFailure_status, ha]
  | _ => simp [expire]

theorem onTimer_edge (s : Surroundings) (a : Advisor) (t : Timer) :
    (a.onTimer t).1.status = a.status ∨
      Edge s a.split (.timer t) a.status (a.onTimer t).1.status := by
  rcases onTimer_cases a t with h | ⟨hg, hs, h⟩
  · exact .inl (by rw [h])
  · rw [h, expire_status hs, hs]
    obtain ⟨kind, generation⟩ := t
    cases hg
    cases kind with
    | connectingTimeout => exact .inr .timeout
    | connectedShown => exact .inr .connectedShown
    | failedShown => exact .inr .failedShown

/-! ### All events -/

theorem step_edge (s : Surroundings) (a : Advisor) (e : Event) :
    (a.step s e).1.status = a.status ∨ Edge s a.split e a.status (a.step s e).1.status := by
  cases e with
  | scan cs => exact onScan_edge s a cs
  | screen on => exact .inl rfl
  | wifiConnected ssid =>
    rw [step, onConnected_status]
    split
    · rename_i ha
      rw [ha]
      exact .inr (.connected ssid)
    · rename_i ha
      by_cases hn : a.status = .noNotification
      · exact .inl hn.symm
      · exact .inr (.joined ssid hn ha)
  | connectionFailure =>
    rw [step, onFailure_status]
    split
    · rename_i ha
      rw [ha]
      exact .inr .failure
    · exact .inl rfl
  | sendFailed reason =>
    have hf : (a.step s (.sendFailed reason)).1.status = a.onFailure.1.status := rfl
    rw [hf, onFailure_status]
    split
    · rename_i ha
      rw [ha]
      exact .inr (.sendFailure reason)
    · exact .inl rfl
  | action event => exact onAction_edge s a event
  | settingChanged =>
    rw [step, clear_status]
    by_cases hn : a.status = .noNotification
    · exact .inl hn.symm
    · exact .inr (.switched hn)
  | clear r =>
    rw [step, clear_status]
    by_cases hn : a.status = .noNotification
    · exact .inl hn.symm
    · exact .inr (.cleared r hn)
  | timer t => exact onTimer_edge s a t
  | restored ssids => exact .inl rfl

theorem edge_taken (h : Edge s a.split e source target) (hs : a.status = source) :
    (a.step s e).1.status = target := by
  cases h with
  | recommend hen hon hnow hc =>
    rw [step, onScan_recommends hen hon hnow hs hc, propose_status (.inl hs)]
  | request hheld hc =>
    obtain ⟨other, hp⟩ : ∃ held, a.phase = .recommending held := phase_of_status hs
    have hother : a.held? = some other := congrArg Phase.held? hp
    obtain rfl := Option.some_inj.mp (hother.symm.trans hheld)
    exact (congrArg (·.1.status) (step_own_connect s a)).trans (onConnect_requests hp hc)
  | connected ssid => rw [step, onConnected_status, if_pos hs]
  | failure => rw [step, onFailure_status, if_pos hs]
  | sendFailure reason => exact (onFailure_status a).trans (if_pos hs)
  | timeout => rw [step, onTimer_current rfl hs, expire_status hs, if_pos rfl]
  | refused cs _ hen => rw [step, onScan_refused cs hen, clear_status]
  | lost hc =>
    cases hen : a.admission.isEnabled s.restrictions with
    | false => rw [step, onScan_refused _ hen, clear_status]
    | true => rw [step, onScan_loses hen hs hc, clear_status]
  | switched => rw [step, clear_status]
  | cleared r => rw [step, clear_status]
  | left _ hne => exact onAction_leaves hne
  | joined ssid _ hc =>
    rw [step, onConnected_status, if_neg]
    rwa [hs]
  | connectedShown =>
    rw [step, onTimer_current rfl hs]
    exact clear_status a true
  | failedShown =>
    rw [step, onTimer_current rfl hs]
    exact clear_status a false

end Advisor

namespace SplitAdvisor

/-- In step, the states change along the edges and no others. -/
theorem InStep.edge_iff {m : SplitAdvisor} (h : InStep m.cells) (s : Surroundings) (e : Event)
    (target : Status) :
    Edge s m e m.status target ↔ m.status ≠ target ∧ (m.step s e).1.status = target := by
  obtain ⟨a, rfl⟩ := (Advisor.inStep_iff_split m).mp h
  rw [Advisor.split_step]
  constructor
  · intro hedge
    exact ⟨hedge.source_ne_target, Advisor.edge_taken hedge rfl⟩
  · rintro ⟨hne, ht⟩
    rcases Advisor.step_edge s a e with hstay | hedge
    · exact (hne (hstay.symm.trans ht)).elim
    · have ht : (a.step s e).1.status = target := ht
      rwa [ht] at hedge

/-- After every run a network is recommended exactly outside the idle state, the states change along
the edges and no others, and the two fields are those of a phase: the advisor that keeps one does
the same on every event. -/
theorem lifecycle_exact (boot : Surroundings) (identity : Identity) (timing : Timing)
    (supports : Bool) (loaded : Except StoreFailure Blocklist) (past : List Input)
    (s : Surroundings) (e : Event) :
    let m := (start boot identity timing supports loaded).1.after past
    let a := (Advisor.start boot identity timing supports loaded).1.after past
    (m.recommended.isSome ↔ m.status ≠ .noNotification) ∧
      (∀ target, Edge s m e m.status target ↔
        m.status ≠ target ∧ (m.step s e).1.status = target) ∧
      m = a.split ∧ m.step s e = ((a.step s e).1.split, (a.step s e).2) := by
  intro m a
  have hm : InStep m.cells := (start_inStep boot identity timing supports loaded).after past
  have hstart : (start boot identity timing supports loaded).1 =
      (Advisor.start boot identity timing supports loaded).1.split :=
    congrArg Prod.fst (Advisor.split_start boot identity timing supports loaded)
  have ha : m = a.split := (congrArg (after · past) hstart).trans (Advisor.split_after _ past)
  refine ⟨hm, hm.edge_iff s e, ha, ?_⟩
  rw [ha]
  exact Advisor.split_step s a e

end SplitAdvisor

end WifiAdvisor
