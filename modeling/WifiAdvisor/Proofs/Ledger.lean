import Mathlib.Algebra.GroupWithZero.Nat
import WifiAdvisor.Proofs.Bookkeeping
import WifiAdvisor.Proofs.PhaseStep
import WifiAdvisor.Proofs.Timers

/-!
# The metrics are a ledger of the run

Each counter of the metrics is the number of times that something happened in the run, each gauge
shows what it measures, and the generation is the number of timers armed. Counters are words, so
the equations for them are equations between words: they count up to the size of a word.
-/
namespace WifiAdvisor

open Effect

namespace Metrics

variable {m : Metrics} {status : Status} {nominator : Int32} {kind : NoticeKind} {n : Nat}

/-- The entry of a counter that was raised `n` times. -/
def entry (n : Nat) : Option UInt64 := if n = 0 then none else some (UInt64.ofNat n)

theorem raised_entry (n : Nat) : raised (entry n) = UInt64.ofNat (n + 1) := by
  rw [UInt64.ofNat_add]
  by_cases h : n = 0
  · subst n
    rfl
  · rw [entry, if_neg h]
    rfl

theorem find?_recordAction {action : Action}
    (h : (m.actions.find? action).bind (·.find? status) = entry n) (taken : Action)
    (arrived : Status) :
    ((m.recordAction taken arrived).actions.find? action).bind (·.find? status) =
      entry (n + if taken = action ∧ arrived = status then 1 else 0) := by
  by_cases ht : taken = action
  · subst taken
    have hinner : ((m.actions.find? action).getD ∅).find? status = entry n := by
      rw [← h]
      cases m.actions.find? action <;> rfl
    rw [recordAction, SortedMap.find?_alter_self, Option.bind_some]
    by_cases ha : arrived = status
    · subst arrived
      rw [SortedMap.find?_alter_self, hinner, raised_entry, if_pos ⟨rfl, rfl⟩]
      rfl
    · rw [SortedMap.find?_alter_of_ne _ (Ne.symm ha), hinner, if_neg fun hb => ha hb.2]
      rfl
  · rw [recordAction, SortedMap.find?_alter_of_ne _ (Ne.symm ht), h, if_neg fun hb => ht hb.1]
    rfl

/-! ### What calls add to the books -/

theorem find?_recordNotification (h : m.notifications.find? kind = entry n) (other : NoticeKind) :
    (m.recordNotification other).notifications.find? kind =
      entry (n + if other = kind then 1 else 0) := by
  by_cases ho : other = kind
  · subst other
    rw [if_pos rfl, recordNotification, SortedMap.find?_alter_self, h, raised_entry]
    rfl
  · rw [if_neg ho, recordNotification, SortedMap.find?_alter_of_ne _ (Ne.symm ho), h]
    rfl

theorem book_notifications (c : Effect) (h : m.notifications.find? kind = entry n)
    (hk : ¬ (kind = .recommend ∧ status = .recommending)) :
    (m.book status nominator c).notifications.find? kind =
      entry (n + (notices [c]).countP fun n => n.kind = kind) := by
  cases c with
  | post slot notice =>
    have hone : ((notices [.post slot notice]).countP fun n => n.kind = kind) =
        if notice.kind = kind then 1 else 0 := by
      simp [List.countP_cons]
    rw [hone]
    by_cases hu : notice.kind = .recommend ∧ status = .recommending
    · have hother : notice.kind ≠ kind := by
        rintro rfl
        exact hk hu
      rw [if_neg hother, book, if_pos hu]
      exact h
    · rw [book, if_neg hu]
      exact find?_recordNotification h notice.kind
  | add config owner answer => cases answer <;> exact h
  | _ => exact h

theorem foldl_book_notifications (calls : List Effect)
    (h : m.notifications.find? kind = entry n)
    (hk : ¬ (kind = .recommend ∧ status = .recommending)) :
    (calls.foldl (book status nominator) m).notifications.find? kind =
      entry (n + (notices calls).countP fun n => n.kind = kind) := by
  induction calls generalizing m n with
  | nil => exact h
  | cons c calls ih =>
    have hsplit : notices (c :: calls) = notices [c] ++ notices calls :=
      view_append notice? [c] calls
    rw [List.foldl_cons, ih (book_notifications c h hk), hsplit, List.countP_append, Nat.add_assoc]

theorem book_recommendations (m : Metrics) (nominator : Int32) (c : Effect) :
    (m.book .recommending nominator c).notifications.find? .recommend =
        m.notifications.find? .recommend ∧
      (m.book .recommending nominator c).recommendationUpdates = m.recommendationUpdates +
        .ofNat ((notices [c]).countP fun n => n.kind = .recommend) := by
  cases c with
  | post slot notice =>
    by_cases hk : notice.kind = .recommend
    · simp [book, hk, recordUpdate]
    · simp [book, hk, recordNotification, SortedMap.find?_alter_of_ne _ (Ne.symm hk)]
  | add config owner answer => cases answer <;> simp [book, setNominator]
  | _ => simp [book]

theorem foldl_book_recommendations (calls : List Effect) (m : Metrics) :
    (calls.foldl (book .recommending nominator) m).notifications.find? .recommend =
        m.notifications.find? .recommend ∧
      (calls.foldl (book .recommending nominator) m).recommendationUpdates =
        m.recommendationUpdates + .ofNat ((notices calls).countP fun n => n.kind = .recommend) := by
  induction calls generalizing m with
  | nil => simp
  | cons c calls ih =>
    obtain ⟨hfirst, hupdates⟩ := book_recommendations m nominator c
    have hsplit : notices (c :: calls) = notices [c] ++ notices calls :=
      view_append notice? [c] calls
    rw [List.foldl_cons, (ih _).1, (ih _).2, hfirst, hupdates, hsplit, List.countP_append,
      UInt64.ofNat_add, UInt64.add_assoc]
    exact ⟨rfl, rfl⟩

theorem book_updates (c : Effect) (hs : status ≠ .recommending) :
    (m.book status nominator c).recommendationUpdates = m.recommendationUpdates := by
  cases c with
  | post slot notice => simp [book, hs, recordNotification]
  | add config owner answer => cases answer <;> rfl
  | _ => rfl

theorem foldl_book_updates (calls : List Effect) (m : Metrics) (hs : status ≠ .recommending) :
    (calls.foldl (book status nominator) m).recommendationUpdates = m.recommendationUpdates := by
  induction calls generalizing m with
  | nil => rfl
  | cons c calls ih => rw [List.foldl_cons, ih, book_updates c hs]

theorem book_kept (status : Status) (nominator : Int32) (m : Metrics) (c : Effect) :
    (m.book status nominator c).actions = m.actions ∧
      (m.book status nominator c).connectSendFailures = m.connectSendFailures ∧
      (m.book status nominator c).settingEnabled = m.settingEnabled := by
  cases c with
  | post slot notice =>
    simp only [book]
    split <;> exact ⟨rfl, rfl, rfl⟩
  | add config owner answer => cases answer <;> exact ⟨rfl, rfl, rfl⟩
  | _ => exact ⟨rfl, rfl, rfl⟩

/-- Actions, failures to send and the toggle are booked with the event. -/
theorem foldl_book_kept (calls : List Effect) (m : Metrics) :
    (calls.foldl (book status nominator) m).actions = m.actions ∧
      (calls.foldl (book status nominator) m).connectSendFailures = m.connectSendFailures ∧
      (calls.foldl (book status nominator) m).settingEnabled = m.settingEnabled := by
  induction calls generalizing m with
  | nil => exact ⟨rfl, rfl, rfl⟩
  | cons c calls ih =>
    obtain ⟨hactions, hfailures, hsetting⟩ := ih (m.book status nominator c)
    obtain ⟨ha, hf, hs⟩ := book_kept status nominator m c
    exact ⟨hactions.trans ha, hfailures.trans hf, hsetting.trans hs⟩

theorem foldl_book_nominators (calls : List Effect) (m : Metrics) (id : NetworkId) :
    (calls.foldl (book status nominator) m).nominators.find? id =
      if id ∈ numbers calls then some nominator else m.nominators.find? id := by
  induction calls generalizing m with
  | nil => simp
  | cons c calls ih =>
    rw [List.foldl_cons, ih]
    cases c with
    | post slot notice =>
      have hb : (m.book status nominator (.post slot notice)).nominators = m.nominators := by
        simp only [book]
        split <;> rfl
      rw [hb]
      rfl
    | add config owner answer =>
      cases answer with
      | error rejection => rfl
      | ok added =>
        by_cases hid : id = added
        · simp [hid, book, setNominator]
        · simp [hid, book, setNominator, SortedMap.find?_insert_of_ne]
    | _ => rfl

theorem foldl_book_blocklistSize (calls : List Effect) (m : Metrics) :
    (calls.foldl (book status nominator) m).blocklistSize =
      ((saves calls).getLast?.map fun save => UInt64.ofNat save.2.size).getD m.blocklistSize := by
  induction calls generalizing m with
  | nil => rfl
  | cons c calls ih =>
    rw [List.foldl_cons, ih]
    cases c with
    | post slot notice =>
      have hb : (m.book status nominator (.post slot notice)).blocklistSize = m.blocklistSize := by
        simp only [book]
        split <;> rfl
      rw [hb]
      rfl
    | add config owner answer => cases answer <;> rfl
    | save key set => cases h : (saves calls).getLast? <;> simp [h, book, List.getLast?_cons]
    | _ => rfl

end Metrics

namespace Advisor

open Metrics

variable {s : Surroundings} {a b : Advisor} {e : Event} {past : List Input} {n : Nat}

/-! ### Counts over a run -/

/-- What the inputs of a run add up to. -/
def total (a : Advisor) (adds : Advisor → Input → Nat) : List Input → Nat
  | [] => 0
  | i :: past => a.total adds past + adds (a.after past) i

/-- Notices of a kind that an input puts up. -/
def posts (kind : NoticeKind) (a : Advisor) (i : Input) : Nat :=
  (notices (a.step i.surroundings i.event).2).countP fun n => n.kind = kind

/-- Notices of a kind that an input puts up if it arrives in `status`. -/
def postsFrom (status : Status) (kind : NoticeKind) (a : Advisor) (i : Input) : Nat :=
  if a.status = status then posts kind a i else 0

/-- One for an action of the advisor's own that arrives in `status`. -/
def arrivals (action : Action) (status : Status) (a : Advisor) (i : Input) : Nat :=
  if i.event = .action ⟨a.identity.tag, action⟩ ∧ a.status = status then 1 else 0

def sendFailures (_ : Advisor) (i : Input) : Nat :=
  match i.event with
  | .sendFailed _ => 1
  | _ => 0

/-- One for an input that leads into `status`. -/
def entries (status : Status) (a : Advisor) (i : Input) : Nat :=
  if a.status ≠ status ∧ (a.step i.surroundings i.event).1.status = status then 1 else 0

def arming (a : Advisor) (i : Input) : Nat := (arms (a.step i.surroundings i.event).2).length

/-- What starts at zero and goes up with every step by what the input adds is the total. -/
theorem total_counts (Counts : Advisor → Nat → Prop) {adds : Advisor → Input → Nat}
    (hstart : Counts a 0)
    (hstep : ∀ b s e n, Counts b n → Counts (b.step s e).1 (n + adds b ⟨s, e⟩))
    (past : List Input) : Counts (a.after past) (a.total adds past) := by
  induction past with
  | nil => exact hstart
  | cons i past ih => exact hstep (a.after past) i.surroundings i.event _ ih

theorem total_congr {f g : Advisor → Input → Nat} (h : ∀ b i, f b i = g b i) (a : Advisor)
    (past : List Input) : a.total f past = a.total g past := by
  induction past with
  | nil => rfl
  | cons i past ih => rw [total, total, ih, h]

theorem total_add (f g : Advisor → Input → Nat) (a : Advisor) (past : List Input) :
    a.total (fun b i => f b i + g b i) past = a.total f past + a.total g past := by
  induction past with
  | nil => rfl
  | cons i past ih =>
    rw [total, total, total, ih]
    omega

/-! ### Steps -/

theorem step_notifications {kind : NoticeKind} (h : a.metrics.notifications.find? kind = entry n)
    (hk : ¬ (kind = .recommend ∧ a.status = .recommending)) :
    (a.step s e).1.metrics.notifications.find? kind = entry (n + posts kind a ⟨s, e⟩) := by
  have hnoted : (a.noted s e).notifications.find? kind = entry n := by
    rw [(noted_kept s a e).1, h]
  rw [(step_books s a e).metrics]
  exact foldl_book_notifications _ hnoted hk

theorem step_recommendations (s : Surroundings) (e : Event) (hs : a.status = .recommending) :
    (a.step s e).1.metrics.notifications.find? .recommend =
        a.metrics.notifications.find? .recommend ∧
      (a.step s e).1.metrics.recommendationUpdates =
        a.metrics.recommendationUpdates + .ofNat (posts .recommend a ⟨s, e⟩) := by
  obtain ⟨hnotifications, hupdates, -⟩ := noted_kept s a e
  rw [(step_books s a e).metrics, hs, ← hnotifications, ← hupdates]
  exact foldl_book_recommendations _ _

theorem step_updates (s : Surroundings) (e : Event) (hs : a.status ≠ .recommending) :
    (a.step s e).1.metrics.recommendationUpdates = a.metrics.recommendationUpdates := by
  rw [(step_books s a e).metrics, foldl_book_updates _ _ hs, (noted_kept s a e).2.1]

/-- Recommendations go up in the idle state, or in place of another. -/
theorem source_of_recommendation (h : posts .recommend a ⟨s, e⟩ ≠ 0) :
    a.status = .noNotification ∨ a.status = .recommending := by
  cases step_phase s a e with
  | recommended cs c _ _ _ _ hl =>
    have hafter : (a.step s e).1.status = .recommending := congrArg Phase.status hl.phase
    -- Into recommending only one edge of the lifecycle leads, and that from the idle state.
    rcases step_edge s a e with hstay | hedge
    · exact .inr (hstay.symm.trans hafter)
    · rw [hafter] at hedge
      generalize a.status = source at hedge
      cases hedge with
      | recommend => exact .inl rfl
  | kept _ _ _ hl => simp [posts, hl.notices_eq] at h
  | cleared _ hl => simp [posts, hl.notices_eq] at h
  | dismissed _ hl => simp [posts, hl.notices_eq] at h
  | requested _ _ _ _ _ hl => simp [posts, hl.notices_eq, Notice.compose] at h
  | unconfigured _ _ _ _ hl => simp [posts, hl.notices_eq, Notice.compose] at h
  | connected _ _ _ _ hl => simp [posts, hl.notices_eq, Notice.compose] at h
  | failed _ _ _ _ hl => simp [posts, hl.notices_eq, Notice.compose] at h

theorem posts_recommend_eq (a : Advisor) (i : Input) :
    posts .recommend a i =
      postsFrom .noNotification .recommend a i + postsFrom .recommending .recommend a i := by
  by_cases h : posts .recommend a i = 0
  · simp [postsFrom, h]
  · rcases source_of_recommendation h with hs | hs
    · simp [postsFrom, hs]
    · simp [postsFrom, hs]

theorem step_freshly_recommends
    (h : a.metrics.notifications.find? .recommend = entry n) :
    (a.step s e).1.metrics.notifications.find? .recommend =
      entry (n + postsFrom .noNotification .recommend a ⟨s, e⟩) := by
  by_cases hs : a.status = .recommending
  · rw [(step_recommendations s e hs).1, h, postsFrom, if_neg (by rw [hs]; decide)]
    rfl
  · have hposts : postsFrom .noNotification .recommend a ⟨s, e⟩ = posts .recommend a ⟨s, e⟩ := by
      rw [posts_recommend_eq, postsFrom, postsFrom, if_neg hs]
      rfl
    rw [hposts]
    exact step_notifications h fun hk => hs hk.2

theorem step_updates_counts (h : a.metrics.recommendationUpdates = .ofNat n) :
    (a.step s e).1.metrics.recommendationUpdates =
      .ofNat (n + postsFrom .recommending .recommend a ⟨s, e⟩) := by
  by_cases hs : a.status = .recommending
  · rw [(step_recommendations s e hs).2, h, postsFrom, if_pos hs, UInt64.ofNat_add]
  · rw [step_updates s e hs, h, postsFrom, if_neg hs]
    rfl

theorem step_actions {action : Action} {status : Status}
    (h : (a.metrics.actions.find? action).bind (·.find? status) = entry n) :
    ((a.step s e).1.metrics.actions.find? action).bind (·.find? status) =
      entry (n + arrivals action status a ⟨s, e⟩) := by
  rw [(step_books s a e).metrics, (foldl_book_kept _ _).1]
  cases e with
  | action event =>
    obtain ⟨tag, taken⟩ := event
    by_cases ht : tag = a.identity.tag
    · have ha : arrivals action status a ⟨s, .action ⟨tag, taken⟩⟩ =
          if taken = action ∧ a.status = status then 1 else 0 := by
        simp [arrivals, ht]
      rw [noted_action, if_pos ht, ha]
      exact find?_recordAction h taken a.status
    · rw [noted_action, if_neg ht, arrivals, if_neg (by simp [ht]), h]
      rfl
  | _ => exact h

/-- One for an action of the advisor's own, in whatever state it arrives. -/
theorem sum_arrivals (action : Action) (a : Advisor) (i : Input) :
    ((Named.all : List Status).map fun status => arrivals action status a i).sum =
      if i.event = .action ⟨a.identity.tag, action⟩ then 1 else 0 := by
  by_cases he : i.event = .action ⟨a.identity.tag, action⟩
  · rw [if_pos he]
    cases hs : a.status <;> simp [Named.all, arrivals, he, hs]
  · simp [Named.all, arrivals, he]

theorem step_actionCount {action : Action} (h : a.metrics.actionCount action = .ofNat n) :
    (a.step s e).1.metrics.actionCount action =
      .ofNat (n + ((Named.all : List Status).map fun status =>
        arrivals action status a ⟨s, e⟩).sum) := by
  have hsame {m : Metrics} (hm : m.actions = a.metrics.actions) :
      m.actionCount action = .ofNat n := by
    rw [actionCount, hm]
    exact h
  have hbooks : (a.step s e).1.metrics.actionCount action = (a.noted s e).actionCount action := by
    rw [actionCount, (step_books s a e).metrics, (foldl_book_kept _ _).1, actionCount]
  rw [hbooks, sum_arrivals]
  cases e with
  | action event =>
    obtain ⟨tag, taken⟩ := event
    by_cases ht : tag = a.identity.tag
    · rw [noted_action, if_pos ht]
      by_cases ha : taken = action
      · subst taken
        rw [actionCount_recordAction_self, h, if_pos (by rw [ht]), UInt64.ofNat_add]
        rfl
      · rw [actionCount_recordAction_of_ne _ (Ne.symm ha), h, if_neg (by simp [ha])]
        rfl
    · rw [noted_action, if_neg ht, h, if_neg (by simp [ht])]
      rfl
  | _ => exact hsame rfl

theorem step_sendFailures (h : a.metrics.connectSendFailures = .ofNat n) :
    (a.step s e).1.metrics.connectSendFailures = .ofNat (n + sendFailures a ⟨s, e⟩) := by
  rw [(step_books s a e).metrics, (foldl_book_kept _ _).2.1]
  cases e with
  | sendFailed reason =>
    have hn : (a.noted s (.sendFailed reason)).connectSendFailures =
        a.metrics.connectSendFailures + 1 := rfl
    rw [hn, h, sendFailures, UInt64.ofNat_add]
    rfl
  | action event =>
    have hn : (a.noted s (.action event)).connectSendFailures =
        a.metrics.connectSendFailures := by
      rw [noted_action]
      split <;> rfl
    rw [hn, h]
    rfl
  | _ => exact h

theorem step_nominators (s : Surroundings) (a : Advisor) (e : Event) (id : NetworkId) :
    (a.step s e).1.metrics.nominators.find? id =
      if id ∈ numbers (a.step s e).2 then some a.identity.nominator
      else a.metrics.nominators.find? id := by
  rw [(step_books s a e).metrics, foldl_book_nominators, (noted_kept s a e).2.2]

theorem step_settingEnabled (h : a.metrics.settingEnabled = a.admission.settingEnabled) :
    (a.step s e).1.metrics.settingEnabled = (a.step s e).1.admission.settingEnabled := by
  rw [(step_books s a e).metrics, (foldl_book_kept _ _).2.2, (step_books s a e).admission]
  cases e with
  | action event =>
    rw [noted_action]
    split <;> exact h
  | settingChanged => rfl
  | _ => exact h

theorem step_blocklistSize (h : a.metrics.blocklistSize = .ofNat a.blocklist.size) :
    (a.step s e).1.metrics.blocklistSize = .ofNat (a.step s e).1.blocklist.size := by
  rw [(step_books s a e).metrics, foldl_book_blocklistSize]
  cases step_blocklist s a e with
  | rejected other _ hb =>
    rw [hb.saved, hb.blocklist]
    rfl
  | connected other _ _ hb =>
    rw [hb.saved, hb.blocklist]
    rfl
  | restored ssids he hb =>
    subst he
    rw [hb.saved, hb.blocklist]
    rfl
  | kept _ _ hr hb =>
    rw [hb.saved, hb.blocklist, ← h]
    cases e with
    | restored ssids => exact (hr ssids rfl).elim
    | action event =>
      rw [noted_action]
      split <;> rfl
    | _ => rfl

theorem arming_of_stayed
    (h : ∀ kind : TimerKind, (a.step s e).1.status = kind.status → a.status = kind.status)
    (hc : posts .connected a ⟨s, e⟩ = 0) (hf : posts .failed a ⟨s, e⟩ = 0) :
    arming a ⟨s, e⟩ =
      entries .connecting a ⟨s, e⟩ + posts .connected a ⟨s, e⟩ + posts .failed a ⟨s, e⟩ := by
  have hentries : entries .connecting a ⟨s, e⟩ = 0 := by
    rw [entries, if_neg]
    rintro ⟨hne, hafter⟩
    exact hne (h .connectingTimeout hafter)
  rw [arming, arms_of_stayed h, hentries, hc, hf]
  rfl

/-- A timer is armed on the way into connecting and with every outcome. -/
theorem arming_eq (s : Surroundings) (a : Advisor) (e : Event) :
    arming a ⟨s, e⟩ =
      entries .connecting a ⟨s, e⟩ + posts .connected a ⟨s, e⟩ + posts .failed a ⟨s, e⟩ := by
  have at_rest {status : Status} (hs : (a.step s e).1.status = status)
      (hn : status = .noNotification ∨ status = .recommending) (kind : TimerKind)
      (hk : (a.step s e).1.status = kind.status) : a.status = kind.status :=
    (untimed (hs ▸ hn) kind hk).elim
  cases step_phase s a e with
  | kept _ _ _ hl =>
    have hs : (a.step s e).1.status = a.status := congrArg Phase.status hl.phase
    refine arming_of_stayed (fun kind hk => hs.symm.trans hk) ?_ ?_
    · simp [posts, hl.notices_eq]
    · simp [posts, hl.notices_eq]
  | cleared _ hl =>
    refine arming_of_stayed (at_rest (congrArg Phase.status hl.phase) (.inl rfl)) ?_ ?_
    · simp [posts, hl.notices_eq]
    · simp [posts, hl.notices_eq]
  | dismissed _ hl =>
    refine arming_of_stayed (at_rest (congrArg Phase.status hl.phase) (.inl rfl)) ?_ ?_
    · simp [posts, hl.notices_eq]
    · simp [posts, hl.notices_eq]
  | recommended cs c _ _ _ _ hl =>
    refine arming_of_stayed (at_rest (congrArg Phase.status hl.phase) (.inr rfl)) ?_ ?_
    · simp [posts, hl.notices_eq, Notice.compose]
    · simp [posts, hl.notices_eq, Notice.compose]
  | unconfigured held _ _ _ hl =>
    have hs : (a.step s e).1.status = a.status := congrArg Phase.status hl.phase
    refine arming_of_stayed (fun kind hk => hs.symm.trans hk) ?_ ?_
    · simp [posts, hl.notices_eq, Notice.compose]
    · simp [posts, hl.notices_eq, Notice.compose]
  | requested held config _ hp _ hl =>
    have hs : a.status = .recommending := congrArg Phase.status hp
    have hafter : (a.step s e).1.status = .connecting := congrArg Phase.status hl.phase
    have harms : arms (a.step s e).2 = [⟨.connectingTimeout, a.generation + 1⟩] :=
      arms_of_entered hafter (by rw [hs]; decide)
    simp [arming, harms, entries, posts, hs, hafter, hl.notices_eq, Notice.compose]
  | connected held ssid _ hp hl =>
    have hs : a.status = .connecting := congrArg Phase.status hp
    have hafter : (a.step s e).1.status = .connected := congrArg Phase.status hl.phase
    have harms : arms (a.step s e).2 = [⟨.connectedShown, a.generation + 1⟩] :=
      arms_of_entered hafter (by rw [hs]; decide)
    simp [arming, harms, entries, posts, hs, hafter, hl.notices_eq, Notice.compose]
  | failed held _ _ hp hl =>
    have hs : a.status = .connecting := congrArg Phase.status hp
    have hafter : (a.step s e).1.status = .failed := congrArg Phase.status hl.phase
    have harms : arms (a.step s e).2 = [⟨.failedShown, a.generation + 1⟩] :=
      arms_of_entered hafter (by rw [hs]; decide)
    simp [arming, harms, entries, posts, hs, hafter, hl.notices_eq, Notice.compose]

theorem step_generation (h : a.generation = .ofNat n) :
    (a.step s e).1.generation = .ofNat (n + arming a ⟨s, e⟩) := by
  cases step_timers s a e with
  | armed kind ha =>
    rw [ha.generation, h, arming, ha.armed, UInt64.ofNat_add]
    rfl
  | kept hk =>
    rw [hk.generation, h, arming, hk.armed]
    rfl

/-! ### Runs -/

theorem after_nominators (h : ∀ id, a.metrics.nominators.find? id = none) (past : List Input)
    (id : NetworkId) :
    (a.after past).metrics.nominators.find? id =
      if id ∈ numbers (a.log past).flatten then some a.identity.nominator else none := by
  induction past with
  | nil => exact h id
  | cons i past ih =>
    rw [after_cons, step_nominators, ih, after_identity, log, List.flatten_cons, numbers, view_append]
    by_cases hn : id ∈ numbers (a.callsOn past i)
    · have hc : id ∈ numbers ((a.after past).step i.surroundings i.event).2 := hn
      rw [if_pos hc, if_pos (List.mem_append_left _ hn)]
    · have hc : id ∉ numbers ((a.after past).step i.surroundings i.event).2 := hn
      simp [hc, hn]

theorem after_settingEnabled (h : a.metrics.settingEnabled = a.admission.settingEnabled)
    (past : List Input) :
    (a.after past).metrics.settingEnabled = (a.after past).admission.settingEnabled := by
  induction past with
  | nil => exact h
  | cons i past ih => exact step_settingEnabled ih

theorem after_blocklistSize (h : a.metrics.blocklistSize = .ofNat a.blocklist.size)
    (past : List Input) :
    (a.after past).metrics.blocklistSize = .ofNat (a.after past).blocklist.size := by
  induction past with
  | nil => exact h
  | cons i past ih => exact step_blocklistSize ih

theorem total_sum {ι : Type} (f : ι → Advisor → Input → Nat) (l : List ι) (a : Advisor)
    (past : List Input) :
    a.total (fun b i => (l.map fun x => f x b i).sum) past =
      (l.map fun x => a.total (f x) past).sum := by
  induction l with
  | nil =>
    induction past with
    | nil => rfl
    | cons i past ih => rw [total, ih]; rfl
  | cons x l ih =>
    simp only [List.map_cons, List.sum_cons]
    rw [total_add, ih]

section

variable (opening : Surroundings) (identity : Identity) (timing : Timing) (supports : Bool)
  (loaded : Except StoreFailure Blocklist)

/-- What the books of a new advisor say, the gauges aside: nothing. -/
theorem start_books :
    let a := (start opening identity timing supports loaded).1
    a.metrics.notifications = ∅ ∧ a.metrics.actions = ∅ ∧ a.metrics.recommendationUpdates = 0 ∧
      a.metrics.connectSendFailures = 0 ∧ a.metrics.nominators = ∅ ∧
      a.metrics.settingEnabled = a.admission.settingEnabled ∧
      a.metrics.blocklistSize = .ofNat a.blocklist.size := by
  cases loaded <;> exact ⟨rfl, rfl, rfl, rfl, rfl, rfl, rfl⟩

/-- After every run the metrics say what happened in it. -/
theorem ledger_exact (past : List Input) :
    let a := (start opening identity timing supports loaded).1
    let now := a.after past
    let m := now.metrics
    let count (adds : Advisor → Input → Nat) : Nat := a.total adds past
    (∀ kind ≠ .recommend, m.notifications.find? kind = entry (count (posts kind))) ∧
    (m.notifications.find? .recommend =
        entry (count (postsFrom .noNotification .recommend)) ∧
      m.recommendationUpdates = .ofNat (count (postsFrom .recommending .recommend)) ∧
      count (posts .recommend) = count (postsFrom .noNotification .recommend) +
        count (postsFrom .recommending .recommend)) ∧
    (∀ action status, (m.actions.find? action).bind (·.find? status) =
      entry (count (arrivals action status))) ∧
    (∀ action, m.actionCount action =
      .ofNat ((Named.all : List Status).map fun status => count (arrivals action status)).sum) ∧
    m.connectSendFailures = .ofNat (count sendFailures) ∧
    m.blocklistSize = .ofNat now.blocklist.size ∧
    m.settingEnabled = now.admission.settingEnabled ∧
    (∀ id, m.nominators.find? id =
      if id ∈ numbers (a.log past).flatten then some identity.nominator else none) ∧
    now.generation = .ofNat (count arming) ∧
    count arming =
      count (entries .connecting) + count (posts .connected) + count (posts .failed) := by
  intro a now m count
  obtain ⟨hnotifications, hactions, hupdates, hfailures, hnominators, hsetting, hsize⟩ :=
    start_books opening identity timing supports loaded
  have hidentity : a.identity = identity := start_identity opening identity timing supports loaded
  refine ⟨?_, ⟨?_, ?_, ?_⟩, ?_, ?_, ?_, after_blocklistSize hsize past,
    after_settingEnabled hsetting past, ?_, ?_, ?_⟩
  · intro kind hk
    refine total_counts (fun b n => b.metrics.notifications.find? kind = entry n) ?_ ?_ past
    · rw [hnotifications]
      rfl
    · intro b s e n h
      exact step_notifications h fun hr => hk hr.1
  · refine total_counts (fun b n => b.metrics.notifications.find? .recommend = entry n)
      ?_ (fun b s e n h => step_freshly_recommends h) past
    rw [hnotifications]
    rfl
  · exact total_counts (fun b n => b.metrics.recommendationUpdates = .ofNat n)
      hupdates (fun b s e n h => step_updates_counts h) past
  · rw [← total_add]
    exact total_congr posts_recommend_eq a past
  · intro action status
    refine total_counts
      (fun b n => (b.metrics.actions.find? action).bind (·.find? status) = entry n)
      ?_ (fun b s e n h => step_actions h) past
    rw [hactions]
    rfl
  · intro action
    rw [← total_sum]
    refine total_counts (fun b n => b.metrics.actionCount action = .ofNat n) ?_ ?_ past
    · rw [actionCount, hactions]
      rfl
    · intro b s e n h
      exact step_actionCount h
  · exact total_counts (fun b n => b.metrics.connectSendFailures = .ofNat n)
      hfailures (fun b s e n h => step_sendFailures h) past
  · intro id
    rw [← hidentity]
    refine after_nominators (fun id => ?_) past id
    rw [hnominators]
    rfl
  · exact total_counts (fun b n => b.generation = .ofNat n)
      (start_generation opening identity timing supports loaded)
      (fun b s e n h => step_generation h) past
  · rw [← total_add, ← total_add]
    exact total_congr (fun b i => arming_eq i.surroundings b i.event) a past

end

end Advisor

end WifiAdvisor
