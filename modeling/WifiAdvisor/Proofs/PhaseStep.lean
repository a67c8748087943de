import WifiAdvisor.Proofs.Handlers
import WifiAdvisor.Proofs.History

/-!
# What an event does to the phase

With the phase go the repeat delay, the display and the numbers of the networks that were taken
over. An event changes them together, and in one of eight ways: `step_phase` says so for all
events. Blocklist, counters and timers are left out; they have step lemmas of their own.
-/
namespace WifiAdvisor.Advisor

open Effect

variable {s : Surroundings} {a : Advisor} {e : Event} {held : Candidate}

/-- The events that lift the repeat delay. -/
def resets (s : Surroundings) (a : Advisor) : Event → Bool
  | .scan _ => !a.admission.isEnabled s.restrictions
  | .wifiConnected _ => a.status ≠ .connecting
  | .settingChanged => true
  | .clear resetRepeat => resetRepeat
  | .timer t =>
    t.kind = .connectedShown && t.generation = a.generation && a.status = .connected
  | _ => false

/-- The user asks for the held network, and it can be configured. -/
def Asks (s : Surroundings) (a : Advisor) (e : Event) : Prop :=
  ∃ held config, e = .action ⟨a.identity.tag, .connect⟩ ∧ a.phase = .recommending held ∧
    s.configure held = some config

/-- The user asks for the held network, and it cannot be configured. -/
def unconfigurable (s : Surroundings) (a : Advisor) : Event → Bool
  | .action ⟨tag, .connect⟩ =>
    tag = a.identity.tag &&
      match a.phase with
      | .recommending held => (s.configure held).isNone
      | _ => false
  | _ => false

/-- The instant before which nothing fresh is recommended after a recommendation or a
dismissal. -/
def deferral (s : Surroundings) (a : Advisor) : Millis := Millis.after s.now a.timing.repeatDelay

/-- A notice about `network` goes up. -/
def showing (a : Advisor) (kind : NoticeKind) (network : Candidate) : Int32 × Option Notice :=
  (a.identity.slot, some (Notice.compose kind a.identity.tag (some network)))

/-- Whatever is up comes down. -/
def removal (a : Advisor) : List (Int32 × Option Notice) :=
  if a.status = .noNotification then [] else [(a.identity.slot, none)]

/-- What a step leaves of the phase, the repeat delay, the display and the numbers. -/
structure Leaves (a : Advisor) (phase : Phase) (repeatAt : Millis)
    (shown : List (Int32 × Option Notice)) (given : List NetworkId)
    (r : Advisor × List Effect) : Prop where
  identity : r.1.identity = a.identity
  timing : r.1.timing = a.timing
  phase : r.1.phase = phase
  repeatAt : r.1.repeatAt = repeatAt
  shown : shows r.2 = shown
  given : numbers r.2 = given

theorem Leaves.refl (a : Advisor) : Leaves a a.phase a.repeatAt [] [] (a, []) :=
  ⟨rfl, rfl, rfl, rfl, rfl, rfl⟩

theorem Leaves.notices_eq {phase : Phase} {repeatAt : Millis}
    {shown : List (Int32 × Option Notice)} {given : List NetworkId} {r : Advisor × List Effect}
    (h : Leaves a phase repeatAt shown given r) : notices r.2 = shown.filterMap Prod.snd := by
  rw [notices_eq_shows, h.shown]

@[simp] theorem removal_notices (a : Advisor) : a.removal.filterMap Prod.snd = [] := by
  unfold removal
  split <;> rfl

@[simp] theorem showing_notices (a : Advisor) (kind : NoticeKind) (network : Candidate) :
    [a.showing kind network].filterMap Prod.snd =
      [Notice.compose kind a.identity.tag (some network)] := rfl

theorem clear_leaves (a : Advisor) (r : Bool) :
    Leaves a .idle (if r then 0 else a.repeatAt) a.removal [] (a.clear r) := by
  cases r <;> cases hp : a.phase <;> constructor <;>
    simp [clear, hp, removal, status, Phase.status]

theorem propose_leaves_idle (s : Surroundings) {c : Candidate} (hp : a.phase = .idle) :
    Leaves a (.recommending c) (a.deferral s) [a.showing .recommend c] [] (a.propose s c) := by
  constructor <;> simp [propose, hp, count, deferRepeat, deferral, posting, showing]

theorem propose_same (s : Surroundings) {c : Candidate} (hp : a.phase = .recommending held)
    (hs : held.ssid = c.ssid) : a.propose s c = (a, []) := by
  simp [propose, hp, hs]

theorem propose_leaves_other (s : Surroundings) {c : Candidate}
    (hp : a.phase = .recommending held) (hs : held.ssid ≠ c.ssid) :
    Leaves a (.recommending c) (a.deferral s) [a.showing .recommend c] [] (a.propose s c) := by
  constructor <;> simp [propose, hp, hs, deferRepeat, deferral, posting, showing]

theorem onFailure_leaves (hp : a.phase = .connecting held) :
    Leaves a (.failed held) a.repeatAt [a.showing .failed held] [] a.onFailure := by
  constructor <;> simp [onFailure, hp, armTimer, count, posting, showing]

theorem settle_leaves (hp : a.phase = .connecting held) :
    Leaves a (.connected held) a.repeatAt [a.showing .connected held] [] a.settle := by
  constructor <;> simp [settle, hp, armTimer, count, posting, showing]

/-- Handlers that first touch what is left out here go on from an advisor that looks the same. -/
theorem Leaves.followed_by {b : Advisor} {front : List Effect} {r : Advisor × List Effect}
    {phase : Phase} {repeatAt : Millis} {shown : List (Int32 × Option Notice)}
    {given : List NetworkId} (h : Leaves a a.phase a.repeatAt [] [] (b, front))
    (k : Leaves b phase repeatAt shown given r) :
    Leaves a phase repeatAt shown given (r.1, front ++ r.2) := by
  have hs : shows front = [] := h.shown
  have hn : numbers front = [] := h.given
  refine ⟨k.identity.trans h.identity, k.timing.trans h.timing, k.phase, k.repeatAt, ?_, ?_⟩
  · calc shows (front ++ r.2)
      _ = shows front ++ shows r.2 := view_append show? front r.2
      _ = shown := by rw [hs, k.shown, List.nil_append]
  · calc numbers (front ++ r.2)
      _ = numbers front ++ numbers r.2 := view_append number? front r.2
      _ = given := by rw [hn, k.given, List.nil_append]

theorem block_leaves (a : Advisor) (ssid : String) :
    Leaves a a.phase a.repeatAt [] [] (a.block ssid) := by
  constructor <;> simp [block, withBlocklist, persist]

theorem unblock_leaves (a : Advisor) (ssid : String) :
    Leaves a a.phase a.repeatAt [] [] (a.unblock ssid) := by
  unfold unblock
  split
  · constructor <;> simp [withBlocklist, persist]
  · exact .refl a

theorem onConnected_settles (a : Advisor) (ssid : Option String) :
    ∃ b front, Leaves a a.phase a.repeatAt [] [] (b, front) ∧
      a.onConnected ssid = (b.settle.1, front ++ b.settle.2) := by
  cases ssid with
  | none => exact ⟨a, [], .refl a, onConnected_none a⟩
  | some x => exact ⟨_, _, unblock_leaves a x, onConnected_some a x⟩

theorem onConnected_leaves_connecting (ssid : Option String) (hp : a.phase = .connecting held) :
    Leaves a (.connected held) a.repeatAt [a.showing .connected held] [] (a.onConnected ssid) := by
  obtain ⟨b, front, hb, he⟩ := onConnected_settles a ssid
  have hi : b.identity = a.identity := hb.identity
  have ht : b.repeatAt = a.repeatAt := hb.repeatAt
  have hk := settle_leaves (hb.phase.trans hp)
  rw [ht, showing, hi] at hk
  rw [he]
  exact hb.followed_by hk

theorem onConnected_leaves_elsewhere (ssid : Option String) (h : a.status ≠ .connecting) :
    Leaves a .idle 0 a.removal [] (a.onConnected ssid) := by
  obtain ⟨b, front, hb, he⟩ := onConnected_settles a ssid
  have hi : b.identity = a.identity := hb.identity
  have hs : b.status = a.status := congrArg Phase.status hb.phase
  have hk := clear_leaves b true
  rw [← settle_outside_connecting (hs ▸ h), removal, hs, hi] at hk
  rw [he]
  exact hb.followed_by hk

theorem onDismiss_clears (s : Surroundings) (a : Advisor) :
    ∃ b front, Leaves a a.phase a.repeatAt [] [] (b, front) ∧
      a.onDismiss s = ((b.clear false).1.deferRepeat s.now, front ++ (b.clear false).2) := by
  cases hp : a.phase with
  | recommending held =>
    obtain ⟨hi, ht, hph, hr, hs, hn⟩ := block_leaves (a.tally .dismiss) held.ssid
    refine ⟨((a.tally .dismiss).block held.ssid).1, ((a.tally .dismiss).block held.ssid).2, ?_, ?_⟩
    · exact ⟨hi, ht, hph.trans hp, hr, hs, hn⟩
    · simp [onDismiss, tally, hp]
  | _ =>
    refine ⟨a.tally .dismiss, [], ?_, by simp [onDismiss, tally, hp]⟩
    exact ⟨rfl, rfl, hp, rfl, rfl, rfl⟩

theorem onDismiss_leaves (s : Surroundings) (a : Advisor) :
    Leaves a .idle (a.deferral s) a.removal [] (a.onDismiss s) := by
  obtain ⟨b, front, hb, he⟩ := onDismiss_clears s a
  have hi : b.identity = a.identity := hb.identity
  have hs : b.status = a.status := congrArg Phase.status hb.phase
  have hk := hb.followed_by (clear_leaves b false)
  have ht : (b.clear false).1.timing = a.timing := hk.timing
  rw [removal, hs, hi] at hk
  rw [he]
  exact ⟨hk.identity, hk.timing, hk.phase, by simp [deferRepeat, deferral, ht], hk.shown, hk.given⟩

theorem onPick_leaves (a : Advisor) (action : Action) :
    Leaves a .idle a.repeatAt a.removal [] (a.onPick action) := by
  have hk := clear_leaves (a.tally action) false
  exact ⟨hk.identity, hk.timing, hk.phase, hk.repeatAt, hk.shown, hk.given⟩

theorem onConnect_leaves_connecting {config : NetworkConfig} (hp : a.phase = .recommending held)
    (hc : s.configure held = some config) :
    Leaves a (.connecting held) a.repeatAt [a.showing .connecting held]
      (s.addNetwork config).toOption.toList (a.onConnect s) := by
  cases h : s.addNetwork config <;> constructor <;>
    simp [onConnect, hp, hc, request, h, tally, count, block, withBlocklist, persist, armTimer,
      posting, showing, Except.toOption]

theorem onConnect_leaves_unconfigured (hp : a.phase = .recommending held)
    (hc : s.configure held = none) :
    Leaves a a.phase a.repeatAt [a.showing .connecting held] [] (a.onConnect s) := by
  constructor <;> simp [onConnect, hp, hc, tally, count, posting, showing]

theorem onConnect_leaves_elsewhere (s : Surroundings) (h : a.status ≠ .recommending) :
    Leaves a a.phase a.repeatAt [] [] (a.onConnect s) := by
  cases hp : a.phase with
  | recommending held => exact (h (by simp [status, hp, Phase.status])).elim
  | _ => constructor <;> simp [onConnect, hp, tally]

/-! ### All events -/

/-- Everything that an event can do to the phase. -/
inductive PhaseStep (s : Surroundings) (a : Advisor) (e : Event) : Prop where
  | kept : a.resets s e = false → e ≠ .action ⟨a.identity.tag, .dismiss⟩ →
      a.unconfigurable s e = false →
      Leaves a a.phase a.repeatAt [] [] (a.step s e) → PhaseStep s a e
  | cleared : e ≠ .action ⟨a.identity.tag, .dismiss⟩ →
      Leaves a .idle (if a.resets s e then 0 else a.repeatAt) a.removal [] (a.step s e) →
      PhaseStep s a e
  | dismissed : e = .action ⟨a.identity.tag, .dismiss⟩ →
      Leaves a .idle (a.deferral s) a.removal [] (a.step s e) → PhaseStep s a e
  | recommended (cs : List Candidate) (c : Candidate) : e = .scan cs →
      a.admission.isEnabled s.restrictions = true → (a.phase = .idle → a.repeatAt ≤ s.now) →
      Selection.recommend? cs a.blocklist = some c →
      Leaves a (.recommending c) (a.deferral s) [a.showing .recommend c] [] (a.step s e) →
      PhaseStep s a e
  | requested (held : Candidate) (config : NetworkConfig) :
      e = .action ⟨a.identity.tag, .connect⟩ → a.phase = .recommending held →
      s.configure held = some config →
      Leaves a (.connecting held) a.repeatAt [a.showing .connecting held]
        (s.addNetwork config).toOption.toList (a.step s e) → PhaseStep s a e
  | unconfigured (held : Candidate) : e = .action ⟨a.identity.tag, .connect⟩ →
      a.phase = .recommending held → s.configure held = none →
      Leaves a a.phase a.repeatAt [a.showing .connecting held] [] (a.step s e) →
      PhaseStep s a e
  | connected (held : Candidate) (ssid : Option String) : e = .wifiConnected ssid →
      a.phase = .connecting held →
      Leaves a (.connected held) a.repeatAt [a.showing .connected held] [] (a.step s e) →
      PhaseStep s a e
  | failed (held : Candidate) : a.resets s e = false →
      e ≠ .action ⟨a.identity.tag, .dismiss⟩ → a.phase = .connecting held →
      Leaves a (.failed held) a.repeatAt [a.showing .failed held] [] (a.step s e) →
      PhaseStep s a e

section

variable (hd : e ≠ .action ⟨a.identity.tag, .dismiss⟩)

include hd

private theorem step_phase_of_clear {r : Bool} (hr : a.resets s e = r)
    (h : a.step s e = a.clear r) : PhaseStep s a e := by
  refine .cleared hd ?_
  rw [h, hr]
  exact clear_leaves a r

private theorem step_phase_of_stay (hr : a.resets s e = false) (hu : a.unconfigurable s e = false)
    (h : a.step s e = (a, [])) : PhaseStep s a e := by
  refine .kept hr hd hu ?_
  rw [h]
  exact .refl a

/-- A failure is the end of connecting, and without effect elsewhere. -/
private theorem step_phase_of_failure (hr : a.resets s e = false)
    (hu : a.unconfigurable s e = false) (h : a.step s e = a.onFailure) : PhaseStep s a e := by
  by_cases hs : a.status = .connecting
  · obtain ⟨held, hp⟩ : ∃ held, a.phase = .connecting held := phase_of_status hs
    refine .failed held hr hd hp ?_
    rw [h]
    exact onFailure_leaves hp
  · exact step_phase_of_stay hd hr hu (h.trans (onFailure_ignored hs))

end

theorem onScan_phase (s : Surroundings) (a : Advisor) (cs : List Candidate) :
    PhaseStep s a (.scan cs) := by
  cases onScan_cases s a cs with
  | refused hen h => exact step_phase_of_clear (by simp) (by simp [resets, hen]) h
  | ignored hen h => exact step_phase_of_stay (by simp) (by simp [resets, hen]) rfl h
  | lost hen _ h => exact step_phase_of_clear (by simp) (by simp [resets, hen]) h
  | proposed c hen hnow hc h =>
    have hr : a.resets s (.scan cs) = false := by simp [resets, hen]
    have hs : a.step s (.scan cs) = a.propose s c := h
    cases hp : a.phase with
    | idle =>
      refine .recommended cs c rfl hen hnow hc ?_
      rw [hs]
      exact propose_leaves_idle s hp
    | recommending held =>
      by_cases heq : held.ssid = c.ssid
      · exact step_phase_of_stay (by simp) hr rfl (hs.trans (propose_same s hp heq))
      · refine .recommended cs c rfl hen hnow hc ?_
        rw [hs]
        exact propose_leaves_other s hp heq
    | _ => exact step_phase_of_stay (by simp) hr rfl (hs.trans (by simp [propose, hp]))

theorem onConnect_phase (s : Surroundings) (a : Advisor) :
    PhaseStep s a (.action ⟨a.identity.tag, .connect⟩) := by
  have hs := step_own_connect s a
  cases hp : a.phase with
  | recommending held =>
    cases hc : s.configure held with
    | none =>
      refine .unconfigured held rfl hp hc ?_
      rw [hs]
      exact onConnect_leaves_unconfigured hp hc
    | some config =>
      refine .requested held config rfl hp hc ?_
      rw [hs]
      exact onConnect_leaves_connecting hp hc
  | _ =>
    refine .kept rfl (by simp) (by simp [unconfigurable, hp]) ?_
    rw [hs]
    exact onConnect_leaves_elsewhere s (by simp [status, hp, Phase.status])

theorem onAction_phase (s : Surroundings) (a : Advisor) (event : ActionEvent) :
    PhaseStep s a (.action event) := by
  obtain ⟨tag, action⟩ := event
  by_cases ht : tag = a.identity.tag
  · subst tag
    have picked (action : Action) (ha : action ≠ .dismiss)
        (h : a.step s (.action ⟨a.identity.tag, action⟩) = a.onPick action) :
        PhaseStep s a (.action ⟨a.identity.tag, action⟩) := by
      refine .cleared (by simpa using ha) ?_
      rw [h]
      exact onPick_leaves a action
    cases action with
    | dismiss =>
      refine .dismissed rfl ?_
      rw [step_own_dismiss]
      exact onDismiss_leaves s a
    | connect => exact onConnect_phase s a
    | pick => exact picked .pick (by simp) (by simp [step, onAction])
    | pickAfterFailure => exact picked .pickAfterFailure (by simp) (by simp [step, onAction])
  · refine step_phase_of_stay (by simp [ht]) rfl ?_ (step_foreign_action s ht)
    cases action <;> simp [unconfigurable, ht]

theorem onTimer_phase (s : Surroundings) (a : Advisor) (t : Timer) :
    PhaseStep s a (.timer t) := by
  by_cases h : t.generation = a.generation ∧ a.status = t.kind.status
  · obtain ⟨hg, hs⟩ := h
    have he : a.step s (.timer t) = a.expire t.kind := onTimer_current hg hs
    cases hk : t.kind with
    | connectingTimeout =>
      rw [hk] at he
      exact step_phase_of_failure (by simp) (by simp [resets, hk]) rfl he
    | connectedShown =>
      rw [hk] at he hs
      exact step_phase_of_clear (by simp) (by simp [resets, hk, hg, hs, TimerKind.status]) he
    | failedShown =>
      rw [hk] at he
      exact step_phase_of_clear (by simp) (by simp [resets, hk]) he
  · refine step_phase_of_stay (by simp) ?_ rfl (onTimer_stale h)
    simp only [resets, Bool.and_eq_false_iff, decide_eq_false_iff_not]
    by_cases hk : t.kind = .connectedShown
    · rw [hk] at h
      by_cases hg : t.generation = a.generation
      · exact .inr fun hs => h ⟨hg, hs⟩
      · exact .inl (.inr hg)
    · exact .inl (.inl hk)

theorem step_phase (s : Surroundings) (a : Advisor) (e : Event) : PhaseStep s a e := by
  cases e with
  | scan cs => exact onScan_phase s a cs
  | screen on => exact .kept rfl (by simp) rfl ⟨rfl, rfl, rfl, rfl, rfl, rfl⟩
  | wifiConnected ssid =>
    by_cases hs : a.status = .connecting
    · obtain ⟨held, hp⟩ : ∃ held, a.phase = .connecting held := phase_of_status hs
      exact .connected held ssid rfl hp (onConnected_leaves_connecting ssid hp)
    · have hr : a.resets s (.wifiConnected ssid) = true := by simp [resets, hs]
      refine .cleared (by simp) ?_
      rw [hr]
      exact onConnected_leaves_elsewhere ssid hs
  | connectionFailure => exact step_phase_of_failure (by simp) rfl rfl rfl
  | sendFailed reason =>
    by_cases hs : a.status = .connecting
    · obtain ⟨held, hp⟩ : ∃ held, a.phase = .connecting held := phase_of_status hs
      have h := onFailure_leaves hp
      exact .failed held rfl (by simp) hp
        ⟨h.identity, h.timing, h.phase, h.repeatAt, h.shown, h.given⟩
    · have h : a.step s (.sendFailed reason) = (a.onSendFailed.1, []) := by
        simp [step, onSendFailed, onFailure_ignored hs]
      refine .kept rfl (by simp) rfl ?_
      rw [h]
      constructor <;> simp [onSendFailed, onFailure_ignored hs]
  | action event => exact onAction_phase s a event
  | settingChanged =>
    have h := clear_leaves (a.readSetting s) true
    exact .cleared (by simp) ⟨h.identity, h.timing, h.phase, h.repeatAt, h.shown, h.given⟩
  | clear r => exact step_phase_of_clear (by simp) rfl rfl
  | timer t => exact onTimer_phase s a t
  | restored ssids => exact .kept rfl (by simp) rfl ⟨rfl, rfl, rfl, rfl, rfl, rfl⟩

theorem step_timing (s : Surroundings) (a : Advisor) (e : Event) :
    (a.step s e).1.timing = a.timing := by
  cases step_phase s a e with
  | kept _ _ _ h => exact h.timing
  | cleared _ h => exact h.timing
  | dismissed _ h => exact h.timing
  | recommended _ _ _ _ _ _ h => exact h.timing
  | requested _ _ _ _ _ h => exact h.timing
  | unconfigured _ _ _ _ h => exact h.timing
  | connected _ _ _ _ h => exact h.timing
  | failed _ _ _ _ h => exact h.timing

theorem start_phase (opening : Surroundings) (identity : Identity) (timing : Timing)
    (supports : Bool) (loaded : Except StoreFailure Blocklist) :
    (start opening identity timing supports loaded).1.phase = .idle := by
  cases loaded <;> rfl

/-- Only an admitted scan with a winner recommends, and afresh only once the repeat delay is
over. -/
theorem scan_of_recommendation {n : Notice} (h : n ∈ notices (a.step s e).2)
    (hk : n.kind = .recommend) :
    ∃ cs c, e = .scan cs ∧ a.admission.isEnabled s.restrictions = true ∧
      (a.phase = .idle → a.repeatAt ≤ s.now) ∧ Selection.recommend? cs a.blocklist = some c ∧
      n.ssid = some c.ssid := by
  have other {kind : NoticeKind} {held : Candidate} (hne : kind ≠ .recommend)
      (hn : n ∈ [Notice.compose kind a.identity.tag (some held)]) : False := by
    rw [List.mem_singleton.mp hn] at hk
    exact hne hk
  cases step_phase s a e with
  | kept _ _ _ hl => simp [hl.notices_eq] at h
  | cleared _ hl => simp [hl.notices_eq] at h
  | dismissed _ hl => simp [hl.notices_eq] at h
  | recommended cs c he hen hnow hc hl =>
    rw [hl.notices_eq, showing_notices, List.mem_singleton] at h
    subst n
    exact ⟨cs, c, he, hen, hnow, hc, rfl⟩
  | requested held _ _ _ _ hl =>
    rw [hl.notices_eq] at h
    exact (other (by decide) h).elim
  | unconfigured held _ _ _ hl =>
    rw [hl.notices_eq] at h
    exact (other (by decide) h).elim
  | connected held _ _ _ hl =>
    rw [hl.notices_eq] at h
    exact (other (by decide) h).elim
  | failed held _ _ _ hl =>
    rw [hl.notices_eq] at h
    exact (other (by decide) h).elim

end WifiAdvisor.Advisor
