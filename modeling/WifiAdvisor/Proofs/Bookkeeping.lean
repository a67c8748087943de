import WifiAdvisor.Proofs.BlocklistStep

/-!
# How an advisor keeps its books

An event is booked by itself and every call it leads to is booked as well, so the metrics after an
event are read off the event and its calls. The toggle changes on being told and with it the gauge.
`step_books` says so for all events.
-/
namespace WifiAdvisor

open Effect

/-- What a call adds to the books of an advisor that was in `status` when the event arrived. -/
def Metrics.book (status : Status) (nominator : Int32) (m : Metrics) : Effect → Metrics
  | .post _ notice =>
    if notice.kind = .recommend ∧ status = .recommending then m.recordUpdate
    else m.recordNotification notice.kind
  | .add _ _ (.ok id) => m.setNominator id nominator
  | .save _ set => { m with blocklistSize := UInt64.ofNat set.size }
  | _ => m

namespace Advisor

variable {s : Surroundings} {a b : Advisor} {e : Event} {m : Metrics}
  {known : Admission} {front : List Effect} {r : Advisor × List Effect}

/-- The books once the event itself is in them, its calls not yet. -/
def noted (s : Surroundings) (a : Advisor) : Event → Metrics
  | .action event =>
    if event.tag = a.identity.tag then a.metrics.recordAction event.action a.status else a.metrics
  | .sendFailed _ => a.metrics.recordSendFailure
  | .settingChanged => { a.metrics with settingEnabled := s.setting a.identity.settingsKey }
  | .restored ssids =>
    { a.metrics with blocklistSize := UInt64.ofNat (a.blocklist.merge ssids).size }
  | _ => a.metrics

theorem noted_action (s : Surroundings) (a : Advisor) (event : ActionEvent) :
    a.noted s (.action event) =
      if event.tag = a.identity.tag then a.metrics.recordAction event.action a.status
      else a.metrics := rfl

theorem noted_kept (s : Surroundings) (a : Advisor) (e : Event) :
    (a.noted s e).notifications = a.metrics.notifications ∧
      (a.noted s e).recommendationUpdates = a.metrics.recommendationUpdates ∧
      (a.noted s e).nominators = a.metrics.nominators := by
  cases e with
  | action event =>
    rw [noted_action]
    split <;> exact ⟨rfl, rfl, rfl⟩
  | _ => exact ⟨rfl, rfl, rfl⟩

/-- What an advisor remembers of the outside once it knows of the event. -/
def told (s : Surroundings) (a : Advisor) : Event → Admission
  | .screen on => { a.admission with screenOn := on }
  | .settingChanged => { a.admission with settingEnabled := s.setting a.identity.settingsKey }
  | _ => a.admission

/-- The calls are booked on top of `m`, and `known` is remembered. -/
structure Books (a : Advisor) (m : Metrics) (known : Admission) (r : Advisor × List Effect) :
    Prop where
  metrics : r.1.metrics = r.2.foldl (Metrics.book a.status a.identity.nominator) m
  admission : r.1.admission = known

theorem Books.refl (a : Advisor) : Books a a.metrics a.admission (a, []) := ⟨rfl, rfl⟩

/-- Handlers that first do something else go on from an advisor in the same state. -/
theorem Books.followed_by (h : Books a m known (b, front)) (hs : b.status = a.status)
    (hi : b.identity = a.identity) (k : Books b b.metrics b.admission r) :
    Books a m known (r.1, front ++ r.2) := by
  have hm : b.metrics = front.foldl (Metrics.book a.status a.identity.nominator) m := h.metrics
  constructor
  · rw [List.foldl_append, ← hm, k.metrics, hs, hi]
  · exact k.admission.trans h.admission

theorem clear_books (a : Advisor) (r : Bool) : Books a a.metrics a.admission (a.clear r) := by
  cases r <;> cases hp : a.phase <;> constructor <;> simp [clear, hp, Metrics.book]

theorem propose_books (s : Surroundings) (a : Advisor) (c : Candidate) :
    Books a a.metrics a.admission (a.propose s c) := by
  cases hp : a.phase with
  | idle =>
    constructor <;>
      simp [propose, hp, Metrics.book, posting, status, Phase.status, count, deferRepeat,
        Notice.compose]
  | recommending held =>
    by_cases hs : held.ssid = c.ssid
    · constructor <;> simp [propose, hp, hs]
    · constructor <;>
        simp [propose, hp, hs, Metrics.book, posting, status, Phase.status, deferRepeat,
          Notice.compose]
  | _ => constructor <;> simp [propose, hp]

theorem onScan_books (s : Surroundings) (a : Advisor) (cs : List Candidate) :
    Books a a.metrics a.admission (a.onScan s cs) := by
  cases onScan_cases s a cs with
  | refused _ h =>
    rw [h]
    exact clear_books a true
  | ignored _ h =>
    rw [h]
    exact .refl a
  | lost _ _ h =>
    rw [h]
    exact clear_books a false
  | proposed c _ _ _ h =>
    rw [h]
    exact propose_books s a c

theorem onFailure_books (a : Advisor) : Books a a.metrics a.admission a.onFailure := by
  cases hp : a.phase <;> constructor <;>
    simp [onFailure, hp, Metrics.book, posting, count, armTimer, Notice.compose]

theorem settle_books (a : Advisor) : Books a a.metrics a.admission a.settle := by
  by_cases hs : a.status = .connecting
  · obtain ⟨held, hp⟩ : ∃ held, a.phase = .connecting held := phase_of_status hs
    constructor <;> simp [settle, hp, Metrics.book, posting, count, armTimer, Notice.compose]
  · rw [settle_outside_connecting hs]
    exact clear_books a true

theorem block_books (a : Advisor) (ssid : String) :
    Books a a.metrics a.admission (a.block ssid) := ⟨rfl, rfl⟩

theorem unblock_books (a : Advisor) (ssid : String) :
    Books a a.metrics a.admission (a.unblock ssid) := by
  unfold unblock
  split
  · exact ⟨rfl, rfl⟩
  · exact .refl a

theorem onConnected_books (a : Advisor) (ssid : Option String) :
    Books a a.metrics a.admission (a.onConnected ssid) := by
  cases ssid with
  | none =>
    rw [onConnected_none]
    exact settle_books a
  | some x =>
    obtain ⟨hs, hi⟩ : (a.unblock x).1.status = a.status ∧
        (a.unblock x).1.identity = a.identity := by
      unfold unblock
      split <;> exact ⟨rfl, rfl⟩
    rw [onConnected_some]
    exact (unblock_books a x).followed_by hs hi (settle_books _)

theorem onConnect_books (s : Surroundings) (a : Advisor) :
    Books a (a.metrics.recordAction .connect a.status) a.admission (a.onConnect s) := by
  cases hp : a.phase with
  | recommending held =>
    cases hc : s.configure held with
    | none =>
      constructor <;>
        simp [onConnect, tally, hp, hc, Metrics.book, posting, count, Notice.compose]
    | some config =>
      cases ha : s.addNetwork config <;> constructor <;>
        simp [onConnect, tally, hp, hc, ha, request, block, withBlocklist, persist, Metrics.book,
          posting, count, armTimer, Notice.compose]
  | _ => constructor <;> simp [onConnect, tally, hp]

theorem onDismiss_books (s : Surroundings) (a : Advisor) :
    Books a (a.metrics.recordAction .dismiss a.status) a.admission (a.onDismiss s) := by
  have ht : (a.tally .dismiss).phase = a.phase := rfl
  cases hp : a.phase with
  | recommending held =>
    have hb := (block_books (a.tally .dismiss) held.ssid).followed_by rfl rfl (clear_books _ false)
    simp only [onDismiss, ht, hp]
    exact ⟨hb.metrics, hb.admission⟩
  | _ =>
    have hb := clear_books (a.tally .dismiss) false
    simp only [onDismiss, ht, hp]
    exact ⟨hb.metrics, hb.admission⟩

theorem onPick_books (a : Advisor) (action : Action) :
    Books a (a.metrics.recordAction action a.status) a.admission (a.onPick action) := by
  have hb := clear_books (a.tally action) false
  exact ⟨hb.metrics, hb.admission⟩

theorem onAction_books (s : Surroundings) (a : Advisor) (event : ActionEvent) :
    Books a (a.noted s (.action event)) a.admission (a.onAction s event) := by
  obtain ⟨tag, action⟩ := event
  by_cases ht : tag = a.identity.tag
  · simp only [noted_action, onAction, if_pos ht]
    cases action with
    | dismiss => exact onDismiss_books s a
    | connect => exact onConnect_books s a
    | pick => exact onPick_books a .pick
    | pickAfterFailure => exact onPick_books a .pickAfterFailure
  · simp only [noted_action, onAction, if_neg ht]
    exact .refl a

theorem onTimer_books (a : Advisor) (t : Timer) : Books a a.metrics a.admission (a.onTimer t) := by
  rcases onTimer_cases a t with h | ⟨-, -, h⟩
  · rw [h]
    exact .refl a
  · rw [h]
    cases t.kind with
    | connectingTimeout => exact onFailure_books a
    | connectedShown => exact clear_books a true
    | failedShown => exact clear_books a false

theorem book_recordSendFailure (status : Status) (nominator : Int32) (m : Metrics) (c : Effect) :
    (m.book status nominator c).recordSendFailure =
      m.recordSendFailure.book status nominator c := by
  cases c with
  | post slot notice =>
    simp only [Metrics.book]
    split <;> rfl
  | add config owner answer => cases answer <;> rfl
  | _ => rfl

theorem foldl_book_recordSendFailure (status : Status) (nominator : Int32) (m : Metrics)
    (calls : List Effect) :
    (calls.foldl (Metrics.book status nominator) m).recordSendFailure =
      calls.foldl (Metrics.book status nominator) m.recordSendFailure := by
  induction calls generalizing m with
  | nil => rfl
  | cons c calls ih => rw [List.foldl_cons, List.foldl_cons, ih, book_recordSendFailure]

theorem step_books (s : Surroundings) (a : Advisor) (e : Event) :
    Books a (a.noted s e) (a.told s e) (a.step s e) := by
  cases e with
  | scan cs => exact onScan_books s a cs
  | screen on => exact ⟨rfl, rfl⟩
  | wifiConnected ssid => exact onConnected_books a ssid
  | connectionFailure => exact onFailure_books a
  | sendFailed reason =>
    obtain ⟨hm, ha⟩ := onFailure_books a
    refine ⟨?_, ha⟩
    have hstep : (a.step s (.sendFailed reason)).1.metrics =
        a.onFailure.1.metrics.recordSendFailure := rfl
    -- The failure is counted last; booked first, it makes no difference to the calls.
    rw [hstep, hm, foldl_book_recordSendFailure]
    rfl
  | action event => exact onAction_books s a event
  | settingChanged =>
    obtain ⟨hm, ha⟩ := clear_books (a.readSetting s) true
    exact ⟨hm, ha⟩
  | clear r => exact clear_books a r
  | timer t => exact onTimer_books a t
  | restored ssids => exact ⟨rfl, rfl⟩

end Advisor

end WifiAdvisor
