import WifiAdvisor.Proofs.Handlers
import WifiAdvisor.Proofs.History
import WifiAdvisor.SplitAdvisor

/-!
# State and recommendation in step

Each event writes the state and the recommendation in one of four ways, and none of them lets the
two part: something is recommended exactly outside the idle state. The states that are in step are
those that a `Phase` describes, and on them both machines do the same.
-/
namespace WifiAdvisor

namespace SplitAdvisor

/-- The advisor after the inputs of `past`, the latest first. -/
def after (m : SplitAdvisor) : List Input → SplitAdvisor
  | [] => m
  | i :: past => ((m.after past).step i.surroundings i.event).1

/-- The two fields side by side. -/
def cells (m : SplitAdvisor) : Status × Option Candidate := (m.status, m.recommended)

/-- Something is recommended exactly outside the idle state. -/
def InStep (cells : Status × Option Candidate) : Prop :=
  cells.2.isSome ↔ cells.1 ≠ .noNotification

/-- What an event may do to the two fields. -/
inductive Writes : Status × Option Candidate → Status × Option Candidate → Prop where
  | kept (cells) : Writes cells cells
  | cleared (cells) : Writes cells (.noNotification, none)
  | proposed (cells) (c : Candidate) : Writes cells (.recommending, some c)
  | moved {source target : Status} (recommended) : source ≠ .noNotification →
      target ≠ .noNotification → Writes (source, recommended) (target, recommended)

theorem Writes.inStep {before after : Status × Option Candidate} (h : Writes before after)
    (hb : InStep before) : InStep after := by
  cases h with
  | kept => exact hb
  | cleared => simp [InStep]
  | proposed _ c => simp [InStep]
  | moved recommended hsource htarget => exact ⟨fun _ => htarget, fun _ => hb.mpr hsource⟩

variable {s : Surroundings}

/-! ### One event -/

theorem clear_writes (m : SplitAdvisor) (r : Bool) : Writes m.cells (m.clear r).1.cells := by
  by_cases h : m.status = .noNotification
  · have hk : (m.clear r).1.cells = m.cells := by cases r <;> simp [clear, h, cells]
    rw [hk]
    exact .kept _
  · have hc : (m.clear r).1.cells = (.noNotification, none) := by
      cases r <;> simp [clear, h, cells]
    rw [hc]
    exact .cleared _

theorem propose_writes (m : SplitAdvisor) (c : Candidate) :
    Writes m.cells (m.propose s c).1.cells := by
  unfold propose
  split
  · exact .kept _
  · exact .proposed _ c

theorem onScan_writes (m : SplitAdvisor) (cs : List Candidate) :
    Writes m.cells (m.onScan s cs).1.cells := by
  unfold onScan
  split
  · exact clear_writes m true
  split
  · exact clear_writes m false
  split
  · exact .kept _
  split
  · split
    · exact propose_writes m _
    · exact clear_writes m false
  · exact .kept _

theorem settle_writes (m : SplitAdvisor) : Writes m.cells m.settle.1.cells := by
  unfold settle
  split
  · rename_i h
    split
    · exact clear_writes m true
    · exact .moved _ (by simp [h]) (by simp [armTimer])
  · exact clear_writes m true

theorem onConnected_writes (m : SplitAdvisor) (ssid : Option String) :
    Writes m.cells (m.onConnected ssid).1.cells := by
  cases ssid with
  | none => exact settle_writes m
  | some x =>
    have hu : (m.unblock x).1.cells = m.cells := by unfold unblock; split <;> rfl
    rw [← hu]
    exact settle_writes (m.unblock x).1

theorem onFailure_writes (m : SplitAdvisor) : Writes m.cells m.onFailure.1.cells := by
  unfold onFailure
  split
  · rename_i h
    exact .moved _ (by simp [h]) (by simp [armTimer])
  · exact .kept _

theorem request_recommended (m : SplitAdvisor) (held : Candidate) (config : NetworkConfig) :
    (m.request s held config).1.recommended = m.recommended := by
  unfold request
  split <;> rfl

theorem onConnect_writes (m : SplitAdvisor) : Writes m.cells (m.onConnect s).1.cells := by
  simp only [onConnect]
  split
  · rename_i h
    have h : m.status = .recommending := h
    split
    · exact .kept _
    · split
      · exact .kept _
      · rename_i held _ _ config _
        have hr := request_recommended (s := s) ((m.tally .connect).count .connecting) held config
        simp only [cells, armTimer, hr]
        exact .moved _ (by rw [h]; decide) (by decide)
  · exact .kept _

theorem onDismiss_writes (m : SplitAdvisor) : Writes m.cells (m.onDismiss s).1.cells := by
  simp only [onDismiss]
  split
  · rename_i held _ _
    exact clear_writes ((m.tally .dismiss).block held.ssid).1 false
  · exact clear_writes (m.tally .dismiss) false

theorem onPick_writes (m : SplitAdvisor) (action : Action) :
    Writes m.cells (m.onPick action).1.cells :=
  clear_writes (m.tally action) false

theorem onAction_writes (m : SplitAdvisor) (e : ActionEvent) :
    Writes m.cells (m.onAction s e).1.cells := by
  unfold onAction
  split
  · split
    · exact onDismiss_writes m
    · exact onConnect_writes m
    · exact onPick_writes m .pick
    · exact onPick_writes m .pickAfterFailure
  · exact .kept _

theorem onTimer_writes (m : SplitAdvisor) (t : Timer) :
    Writes m.cells (m.onTimer t).1.cells := by
  unfold onTimer
  split
  · split
    · split
      · exact onFailure_writes m
      · exact .kept _
    · split
      · exact clear_writes m true
      · exact .kept _
    · split
      · exact clear_writes m false
      · exact .kept _
  · exact .kept _

/-- In every state, whether the two fields are in step or not. -/
theorem step_writes (s : Surroundings) (m : SplitAdvisor) (e : Event) :
    Writes m.cells (m.step s e).1.cells := by
  cases e with
  | scan cs => exact onScan_writes m cs
  | screen on => exact .kept _
  | wifiConnected ssid => exact onConnected_writes m ssid
  | connectionFailure => exact onFailure_writes m
  | sendFailed reason => exact onFailure_writes m
  | action event => exact onAction_writes m event
  | settingChanged => exact clear_writes (m.readSetting s) true
  | clear r => exact clear_writes m r
  | timer t => exact onTimer_writes m t
  | restored ssids => exact .kept _

/-! ### Runs -/

theorem InStep.step {m : SplitAdvisor} (h : InStep m.cells) (s : Surroundings) (e : Event) :
    InStep (m.step s e).1.cells :=
  (step_writes s m e).inStep h

theorem InStep.after {m : SplitAdvisor} (h : InStep m.cells) (past : List Input) :
    InStep (m.after past).cells := by
  induction past with
  | nil => exact h
  | cons i past ih => exact ih.step i.surroundings i.event

theorem start_inStep (s : Surroundings) (identity : Identity) (timing : Timing) (supports : Bool)
    (loaded : Except StoreFailure Blocklist) :
    InStep (start s identity timing supports loaded).1.cells := by
  have hidle : (start s identity timing supports loaded).1.cells = (.noNotification, none) := by
    cases loaded <;> rfl
  simp [hidle, InStep]

end SplitAdvisor

/-! ### The same run with a phase -/

namespace Advisor

/-- The phase taken apart into the two fields. -/
def split (a : Advisor) : SplitAdvisor where
  identity := a.identity
  timing := a.timing
  status := a.status
  recommended := a.held?
  repeatAt := a.repeatAt
  blocklist := a.blocklist
  admission := a.admission
  metrics := a.metrics
  generation := a.generation

/-- What a handler gives, with its advisor taken apart. -/
def splitTurn (turn : Advisor × List Effect) : SplitAdvisor × List Effect := (turn.1.split, turn.2)

variable {a : Advisor} {s : Surroundings}

theorem split_unblock (a : Advisor) (ssid : String) :
    a.split.unblock ssid = splitTurn (a.unblock ssid) := by
  unfold SplitAdvisor.unblock unblock
  by_cases h : a.blocklist.contains ssid = true
  · rw [if_pos h, if_pos (show a.split.blocklist.contains ssid = true from h)]
    rfl
  · rw [if_neg h, if_neg (show ¬ a.split.blocklist.contains ssid = true from h)]
    rfl

theorem split_clear (a : Advisor) (r : Bool) : a.split.clear r = splitTurn (a.clear r) := by
  -- Once the phase is known, both sides compute; so it is below, where nothing else is asked.
  obtain ⟨identity, timing, phase, repeatAt, blocklist, admission, metrics, generation⟩ := a
  cases phase <;> cases r <;> rfl

/-! #### Scans -/

theorem split_propose (s : Surroundings) (c : Candidate)
    (h : a.status = .noNotification ∨ a.status = .recommending) :
    a.split.propose s c = splitTurn (a.propose s c) := by
  rcases h with h | h
  · obtain ⟨-, hp⟩ : ∃ _, a.phase = .idle := phase_of_status h
    have hidle : a.split.status = .noNotification := h
    -- With nothing recommended, no name can be the same.
    have hnone : a.split.recommended = none := congrArg Phase.held? hp
    simp only [SplitAdvisor.propose, propose, hp, hidle, hnone, Option.any_none]
    rfl
  · obtain ⟨held, hp⟩ : ∃ held, a.phase = .recommending held := phase_of_status h
    have hrecommending : a.split.status = .recommending := h
    have hsome : a.split.recommended = some held := congrArg Phase.held? hp
    by_cases hc : held.ssid = c.ssid
    · simp [SplitAdvisor.propose, propose, hp, hsome, hc, splitTurn]
    · simp only [SplitAdvisor.propose, propose, hp, hrecommending, hsome, Option.any_some, hc,
        decide_false, if_false]
      rfl

theorem split_onScan (s : Surroundings) (a : Advisor) (cs : List Candidate) :
    a.split.onScan s cs = splitTurn (a.onScan s cs) := by
  have hadm : a.split.admission = a.admission := rfl
  have hstatus : a.split.status = a.status := rfl
  have hrep : a.split.repeatAt = a.repeatAt := rfl
  have hblk : a.split.blocklist = a.blocklist := rfl
  unfold SplitAdvisor.onScan onScan
  rw [hadm, hstatus, hrep, hblk]
  cases hen : a.admission.isEnabled s.restrictions with
  | false => exact split_clear a true
  | true =>
    cases hp : a.phase with
    | idle =>
      have ha : a.status = .noNotification := by simp [status, hp, Phase.status]
      by_cases hw : s.now < a.repeatAt ∨ a.admission.screenOn = false
      · simp [ha, hw, splitTurn]
      · cases hc : Selection.recommend? cs a.blocklist with
        | none => simp [ha, hw, split_clear]
        | some c => simp [ha, hw, split_propose s c (.inl ha)]
    | recommending held =>
      have ha : a.status = .recommending := by simp [status, hp, Phase.status]
      -- An empty scan is told apart before the selection, which finds nothing in it either.
      cases cs with
      | nil => simp [ha, Selection.recommend?, Selection.firstStrongest?, split_clear]
      | cons c cs =>
        cases hc : Selection.recommend? (c :: cs) a.blocklist with
        | none => simp [ha, split_clear]
        | some best => simp [ha, split_propose s best (.inr ha)]
    | connecting held => simp [status, hp, Phase.status, splitTurn]
    | connected held => simp [status, hp, Phase.status, splitTurn]
    | failed held => simp [status, hp, Phase.status, splitTurn]

/-! #### Connections -/

theorem split_settle (a : Advisor) : a.split.settle = splitTurn a.settle := by
  obtain ⟨identity, timing, phase, repeatAt, blocklist, admission, metrics, generation⟩ := a
  cases phase <;> rfl

theorem split_onConnected (a : Advisor) (ssid : Option String) :
    a.split.onConnected ssid = splitTurn (a.onConnected ssid) := by
  cases ssid with
  | none =>
    rw [onConnected_none, ← split_settle]
    rfl
  | some x =>
    simp only [SplitAdvisor.onConnected, onConnected_some, split_unblock, splitTurn, split_settle]

theorem split_onFailure (a : Advisor) : a.split.onFailure = splitTurn a.onFailure := by
  obtain ⟨identity, timing, phase, repeatAt, blocklist, admission, metrics, generation⟩ := a
  cases phase <;> rfl

theorem split_onSendFailed (a : Advisor) : a.split.onSendFailed = splitTurn a.onSendFailed := by
  rw [SplitAdvisor.onSendFailed, split_onFailure]
  rfl

/-! #### Actions -/

theorem split_onConnect (s : Surroundings) (a : Advisor) :
    a.split.onConnect s = splitTurn (a.onConnect s) := by
  cases hp : a.phase with
  | recommending held =>
    have hrecommending : (a.split.tally .connect).status = .recommending :=
      congrArg Phase.status hp
    have hsome : (a.split.tally .connect).recommended = some held := congrArg Phase.held? hp
    have hheld : (a.tally .connect).phase = .recommending held := hp
    simp only [SplitAdvisor.onConnect, onConnect, hrecommending, hsome, hheld, if_true]
    cases hc : s.configure held with
    | none => rfl
    | some config =>
      obtain ⟨identity, timing, phase, repeatAt, blocklist, admission, metrics, generation⟩ := a
      cases hp
      simp only [SplitAdvisor.request, request]
      cases s.addNetwork config <;> rfl
  | _ =>
    obtain ⟨identity, timing, phase, repeatAt, blocklist, admission, metrics, generation⟩ := a
    cases hp
    rfl

theorem split_onDismiss (s : Surroundings) (a : Advisor) :
    a.split.onDismiss s = splitTurn (a.onDismiss s) := by
  obtain ⟨identity, timing, phase, repeatAt, blocklist, admission, metrics, generation⟩ := a
  cases phase <;> rfl

theorem split_onPick (a : Advisor) (action : Action) :
    a.split.onPick action = splitTurn (a.onPick action) := by
  have hclear : (a.split.tally action).clear false = splitTurn ((a.tally action).clear false) :=
    split_clear (a.tally action) false
  rw [SplitAdvisor.onPick, hclear]
  rfl

theorem split_onAction (s : Surroundings) (a : Advisor) (e : ActionEvent) :
    a.split.onAction s e = splitTurn (a.onAction s e) := by
  obtain ⟨tag, action⟩ := e
  have htag : a.split.identity = a.identity := rfl
  unfold SplitAdvisor.onAction onAction
  rw [htag]
  by_cases h : tag = a.identity.tag
  · rw [if_pos h, if_pos h]
    cases action with
    | dismiss => exact split_onDismiss s a
    | connect => exact split_onConnect s a
    | pick => exact split_onPick a .pick
    | pickAfterFailure => exact split_onPick a .pickAfterFailure
  · rw [if_neg h, if_neg h]
    rfl

theorem split_onTimer (a : Advisor) (t : Timer) : a.split.onTimer t = splitTurn (a.onTimer t) := by
  have hgeneration : a.split.generation = a.generation := rfl
  unfold SplitAdvisor.onTimer onTimer
  rw [hgeneration]
  by_cases h : t.generation = a.generation
  · rw [if_pos h, if_pos h]
    obtain ⟨identity, timing, phase, repeatAt, blocklist, admission, metrics, generation⟩ := a
    cases t.kind <;> cases phase <;> rfl
  · rw [if_neg h, if_neg h]
    rfl

/-! #### Steps and runs -/

/-- Taken apart, an advisor does what it does as a whole. -/
theorem split_step (s : Surroundings) (a : Advisor) (e : Event) :
    a.split.step s e = splitTurn (a.step s e) := by
  cases e with
  | scan cs => exact split_onScan s a cs
  | screen on => rfl
  | wifiConnected ssid => exact split_onConnected a ssid
  | connectionFailure => exact split_onFailure a
  | sendFailed reason => exact split_onSendFailed a
  | action event => exact split_onAction s a event
  | settingChanged => exact split_clear (a.readSetting s) true
  | clear r => exact split_clear a r
  | timer t => exact split_onTimer a t
  | restored ssids => rfl

theorem split_after (a : Advisor) (past : List Input) :
    a.split.after past = (a.after past).split := by
  induction past with
  | nil => rfl
  | cons i past ih =>
    rw [SplitAdvisor.after, ih, split_step, after_cons]
    rfl

theorem split_start (s : Surroundings) (identity : Identity) (timing : Timing) (supports : Bool)
    (loaded : Except StoreFailure Blocklist) :
    SplitAdvisor.start s identity timing supports loaded =
      splitTurn (start s identity timing supports loaded) := by
  cases loaded <;> rfl

theorem held?_isSome_iff (a : Advisor) : a.held?.isSome ↔ a.status ≠ .noNotification := by
  unfold held? status
  rw [Option.isSome_iff_ne_none, Ne, Ne, Phase.held?_eq_none_iff]

/-- The phases are the pairs that are in step. -/
theorem inStep_iff_split (m : SplitAdvisor) :
    SplitAdvisor.InStep m.cells ↔ ∃ a : Advisor, a.split = m := by
  constructor
  · intro h
    have hcells : m.recommended.isSome ↔ m.status ≠ .noNotification := h
    obtain ⟨identity, timing, status, recommended, repeatAt, blocklist, admission, metrics,
      generation⟩ := m
    cases recommended with
    | none =>
      have hidle : status = .noNotification := by simpa using hcells
      subst hidle
      exact ⟨⟨identity, timing, .idle, repeatAt, blocklist, admission, metrics, generation⟩, rfl⟩
    | some held =>
      have hbusy : status ≠ .noNotification := by simpa using hcells
      refine ⟨⟨identity, timing, phaseOf held status, repeatAt, blocklist, admission, metrics,
        generation⟩, ?_⟩
      cases status with
      | noNotification => exact (hbusy rfl).elim
      | _ => rfl
  · rintro ⟨a, rfl⟩
    exact held?_isSome_iff a

end Advisor

end WifiAdvisor
