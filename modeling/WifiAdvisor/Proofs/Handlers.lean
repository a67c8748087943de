import WifiAdvisor.Advisor

/-! What a handler with several ways out can do, one disjunct for each. Proofs about all events go
through these lemmas and leave the handlers themselves closed. -/
namespace WifiAdvisor

/-- The state that a timer is armed for. -/
def TimerKind.status : TimerKind → Status
  | .connectingTimeout => .connecting
  | .connectedShown => .connected
  | .failedShown => .failed

namespace Advisor

variable {a : Advisor} {source : Status}

/-- The phase of a state, about `held` unless it is idle. -/
def phaseOf (held : Candidate) : Status → Phase
  | .noNotification => .idle
  | .recommending => .recommending held
  | .connecting => .connecting held
  | .connected => .connected held
  | .failed => .failed held

theorem phase_of_status (h : a.status = source) : ∃ held, a.phase = phaseOf held source := by
  subst source
  cases hp : a.phase with
  | idle => exact ⟨default, by simp [status, hp, Phase.status, phaseOf]⟩
  | _ held => exact ⟨held, by simp [status, hp, Phase.status, phaseOf]⟩

/-- What becomes of a scan. -/
inductive ScanCase (s : Surroundings) (a : Advisor) (cs : List Candidate) : Prop where
  | refused : a.admission.isEnabled s.restrictions = false → a.onScan s cs = a.clear true →
      ScanCase s a cs
  | ignored : a.admission.isEnabled s.restrictions = true → a.onScan s cs = (a, []) →
      ScanCase s a cs
  | lost : a.admission.isEnabled s.restrictions = true →
      Selection.recommend? cs a.blocklist = none → a.onScan s cs = a.clear false → ScanCase s a cs
  | proposed (c : Candidate) : a.admission.isEnabled s.restrictions = true →
      (a.phase = .idle → a.repeatAt ≤ s.now) → Selection.recommend? cs a.blocklist = some c →
      a.onScan s cs = a.propose s c → ScanCase s a cs

theorem onScan_cases (s : Surroundings) (a : Advisor) (cs : List Candidate) :
    ScanCase s a cs := by
  cases hen : a.admission.isEnabled s.restrictions with
  | false => exact .refused hen (by simp [onScan, hen])
  | true =>
    cases hp : a.phase with
    | idle =>
      by_cases hw : s.now < a.repeatAt ∨ a.admission.screenOn = false
      · exact .ignored hen (by simp [onScan, hen, hp, hw])
      · obtain ⟨hnow, -⟩ := not_or.mp hw
        cases hc : Selection.recommend? cs a.blocklist with
        | none => exact .lost hen hc (by simp [onScan, hen, hp, hw, hc])
        | some c =>
          refine .proposed c hen (fun _ => UInt64.not_lt.mp hnow) hc ?_
          simp [onScan, hen, hp, hw, hc]
    | recommending held =>
      cases hc : Selection.recommend? cs a.blocklist with
      | none => exact .lost hen hc (by simp [onScan, hen, hp, hc])
      | some c =>
        refine .proposed c hen (fun hi => ?_) hc (by simp [onScan, hen, hp, hc])
        rw [hp] at hi
        cases hi
    | _ => exact .ignored hen (by simp [onScan, hen, hp])

/-- What a connection does to the state, the blocklist aside. -/
def settle (a : Advisor) : Advisor × List Effect :=
  match a.phase with
  | .connecting held =>
    let (b, armed) :=
      ({ a.count .connected with phase := .connected held }).armTimer .connectedShown
    (b, a.posting .connected held :: armed)
  | _ => a.clear true

theorem onConnected_none (a : Advisor) : a.onConnected none = a.settle := by
  simp only [onConnected, settle]
  cases a.phase <;> rfl

theorem onConnected_some (a : Advisor) (ssid : String) :
    a.onConnected (some ssid) =
      ((a.unblock ssid).1.settle.1, (a.unblock ssid).2 ++ (a.unblock ssid).1.settle.2) := by
  simp only [onConnected, settle]
  cases (a.unblock ssid).1.phase <;> rfl

theorem settle_outside_connecting (h : a.status ≠ .connecting) : a.settle = a.clear true := by
  cases hp : a.phase <;> simp [settle, hp, status, Phase.status] at h ⊢

theorem onFailure_ignored (h : a.status ≠ .connecting) : a.onFailure = (a, []) := by
  cases hp : a.phase <;> simp [onFailure, hp, status, Phase.status] at h ⊢

theorem configures_or_refuses (s : Surroundings) (a : Advisor) :
    (∃ held config, a.phase = .recommending held ∧ s.configure held = some config) ∨
      ∀ held, a.phase = .recommending held → s.configure held = none := by
  by_cases h : ∃ held config, a.phase = .recommending held ∧ s.configure held = some config
  · exact .inl h
  · refine .inr fun held hp => ?_
    cases hc : s.configure held with
    | none => rfl
    | some config => exact (h ⟨held, config, hp, hc⟩).elim

theorem step_own_connect (s : Surroundings) (a : Advisor) :
    a.step s (.action ⟨a.identity.tag, .connect⟩) = a.onConnect s := by
  simp [step, onAction]

theorem step_own_dismiss (s : Surroundings) (a : Advisor) :
    a.step s (.action ⟨a.identity.tag, .dismiss⟩) = a.onDismiss s := by
  simp [step, onAction]

theorem step_foreign_action {event : ActionEvent} (s : Surroundings)
    (h : event.tag ≠ a.identity.tag) : a.step s (.action event) = (a, []) := by
  simp [step, onAction, h]

/-- What becomes of the stay whose timer goes off. -/
def expire (a : Advisor) : TimerKind → Advisor × List Effect
  | .connectingTimeout => a.onFailure
  | .connectedShown => a.clear true
  | .failedShown => a.clear false

theorem onTimer_stale {t : Timer} (h : ¬ (t.generation = a.generation ∧ a.status = t.kind.status)) :
    a.onTimer t = (a, []) := by
  by_cases hg : t.generation = a.generation
  · have hs : a.status ≠ t.kind.status := fun hs => h ⟨hg, hs⟩
    obtain ⟨kind, generation⟩ := t
    cases kind <;> cases hp : a.phase <;>
      simp [onTimer, hp, status, Phase.status, TimerKind.status] at hs ⊢
  · simp [onTimer, hg]

theorem onTimer_current {t : Timer} (hg : t.generation = a.generation)
    (hs : a.status = t.kind.status) : a.onTimer t = a.expire t.kind := by
  obtain ⟨kind, generation⟩ := t
  obtain ⟨held, hp⟩ := phase_of_status hs
  cases kind <;> simp_all [onTimer, phaseOf, TimerKind.status, expire]

theorem onTimer_cases (a : Advisor) (t : Timer) :
    a.onTimer t = (a, []) ∨ t.generation = a.generation ∧ a.status = t.kind.status ∧
      a.onTimer t = a.expire t.kind := by
  by_cases h : t.generation = a.generation ∧ a.status = t.kind.status
  · exact .inr ⟨h.1, h.2, onTimer_current h.1 h.2⟩
  · exact .inl (onTimer_stale h)

end Advisor

end WifiAdvisor
