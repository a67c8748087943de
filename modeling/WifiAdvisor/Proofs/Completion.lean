import WifiAdvisor.Proofs.Loop

/-!
# The event loop to its end

Wherever the loop stands, it can get to its end. On time it does what `run` does: every wait of the
reader is an advance of the timeline, in which the alarms that fall due are handled one by one.
-/
namespace WifiAdvisor.Feed

variable {pace : Pace} {linger : Nat}

/-- What can be done on time can be done at any pace. -/
theorem Step.of_virtual {l m : Loop} (h : Step .virtual linger l m) : Step pace linger l m := by
  cases h with
  | skip line rest hreader hunread hevent => exact .skip line rest hreader hunread hevent
  | pause line rest ms hreader hunread hevent => exact .pause line rest ms hreader hunread hevent
  | send line rest e hreader hunread hevent he => exact .send line rest e hreader hunread hevent he
  | linger hreader hunread => exact .linger hreader hunread
  | wake due hreader hdue => exact .wake due hreader fun _ => hdue rfl
  | close due hreader hdue => exact .close due hreader fun _ => hdue rfl
  | ring front a back halarms hdue => exact .ring front a back halarms fun _ => hdue rfl
  | handle p rest hrunning hqueue => exact .handle p rest hrunning hqueue
  | pass ms hidle => exact .pass ms fun _ => hidle rfl

theorem Reaches.of_virtual {l m : Loop} (h : Reaches .virtual linger l m) :
    Reaches pace linger l m := by
  induction h with
  | refl => exact .refl
  | tail _ hstep ih => exact ih.tail hstep.of_virtual

/-- The queue can be emptied, unless the loop stops before. -/
theorem drains (l : Loop) (hrunning : l.running = true) :
    ∃ m, Reaches .virtual linger l m ∧ (m.running = false ∨ m.running = true ∧ m.queue = []) := by
  induction hqueue : l.queue generalizing l with
  | nil => exact ⟨l, .refl, .inr ⟨hrunning, hqueue⟩⟩
  | cons p rest ih =>
    have hstep : Step .virtual linger l (l.handle p rest) := .handle p rest hrunning hqueue
    cases hnext : (l.handle p rest).running with
    | false => exact ⟨l.handle p rest, .single hstep, .inl hnext⟩
    | true =>
      obtain ⟨m, hreaches, hm⟩ := ih (l.handle p rest) hnext rfl
      exact ⟨m, .head hstep hreaches, hm⟩

section Resting

variable {t : Timeline} {unread : List String} {reader : Reader} {handled : List Handled}

/-- Time passes until an alarm is due, if it is not yet. -/
theorem passes {due : Nat} (halarms : ∀ a ∈ t.alarms, due ≤ a.due)
    (hreader : reader.SleepsUntil due) :
    Reaches .virtual linger { timeline := t, unread, reader, handled }
      { timeline := { t with elapsed := max t.elapsed due }, unread, reader, handled } := by
  by_cases hdue : due ≤ t.elapsed
  · rw [Nat.max_eq_left hdue]
    exact .refl
  · have htarget : t.elapsed + (due - t.elapsed) = due := by omega
    have hpass : Step .virtual linger { timeline := t, unread, reader, handled } _ :=
      .pass (due - t.elapsed) fun _ =>
        { queue := rfl
          alarms := by
            intro a ha
            have hle := halarms a ha
            simp only [Loop.now]
            omega
          reader := by
            simp only [Loop.now, htarget]
            exact hreader }
    rw [Nat.max_eq_right (Nat.le_of_not_le hdue)]
    simp only [Loop.pass, Loop.now, htarget] at hpass
    exact .single hpass

/-- An alarm goes off and its timer is handled. -/
theorem rings {front back : List Alarm} {a : Alarm} (halarms : t.alarms = front ++ a :: back)
    (hdue : a.due ≤ t.elapsed) :
    Reaches .virtual linger { timeline := t, unread, reader, handled }
      { timeline :=
          (Timeline.dispatch { t with alarms := front ++ back } (.timer a.advisor a.timer)).2
        unread, reader
        handled := { queued := .timer a.advisor a.timer, due := a.due, sent := t.elapsed
                     time := t.elapsed } :: handled } := by
  have hring : Step .virtual linger { timeline := t, unread, reader, handled } _ :=
    .ring front a back halarms fun _ => hdue
  have hhandle : Step .virtual linger
      (Loop.ring { timeline := t, unread, reader, handled } a (front ++ back)) _ :=
    .handle _ [] rfl rfl
  exact .head hring (.single hhandle)

/-- The reader posts the event of a line and the dispatcher handles it. -/
theorem sends {line : String} {rest : List String} {e : Event} (hevent : event? line = some e)
    (he : e.isPause = false) :
    Reaches .virtual linger { timeline := t, unread := line :: rest, handled }
      { timeline := (t.dispatch (.feed e)).2, unread := rest
        handled := { queued := .feed e, due := t.elapsed, sent := t.elapsed
                     time := t.elapsed } :: handled } := by
  have hsend : Step .virtual linger { timeline := t, unread := line :: rest, handled } _ :=
    .send line rest e rfl rfl hevent he
  have hhandle : Step .virtual linger
      (Loop.post { timeline := t, unread := rest, handled } (.feed e) t.elapsed) _ :=
    .handle _ [] rfl rfl
  exact .head hsend (.single hhandle)

/-- Firing is a matter of steps that are made on time. -/
theorem fires {target : Nat} (fuel : Nat) (hreader : reader.SleepsUntil target) :
    ∃ later, Reaches .virtual linger { timeline := t, unread, reader, handled }
      { timeline := Timeline.alarmClock.fire target fuel t, unread, reader
        handled := later } := by
  induction fuel generalizing t handled with
  | zero => exact ⟨handled, .refl⟩
  | succ fuel ih =>
    rw [AlarmClock.fire]
    cases hearliest : AlarmClock.earliest? Timeline.alarmClock.due
        (Timeline.alarmClock.alarms t) with
    | none => exact ⟨handled, .refl⟩
    | some r =>
      obtain ⟨a, others⟩ := r
      obtain ⟨front, back, halarms, rfl, hfront, hback⟩ :=
        AlarmClock.earliest?_eq_some hearliest
      have halarms : t.alarms = front ++ a :: back := halarms
      by_cases hdue : Timeline.alarmClock.due a ≤ target
      · simp only [if_pos hdue]
        -- All others can wait until the earliest alarm is due.
        have hfirst : ∀ b ∈ t.alarms, a.due ≤ b.due := by
          intro b hb
          rw [halarms, List.mem_append, List.mem_cons] at hb
          rcases hb with hb | rfl | hb
          · exact Nat.le_of_lt (hfront b hb)
          · exact Nat.le_refl _
          · exact hback b hb
        have hsleeps : reader.SleepsUntil a.due := by
          cases reader with
          | reading => exact hreader
          | finished => trivial
          | _ due => exact Nat.le_trans hdue hreader
        let due : Timeline := { t with elapsed := max t.elapsed a.due }
        have hpassed : Reaches .virtual linger { timeline := t, unread, reader, handled }
            { timeline := due, unread, reader, handled } := passes hfirst hsleeps
        have hrung : Reaches .virtual linger { timeline := due, unread, reader, handled } _ :=
          rings halarms (Nat.le_max_right _ _)
        obtain ⟨later, hlater⟩ := ih
        exact ⟨later, (hpassed.trans hrung).trans hlater⟩
      · simp only [if_neg hdue]
        exact ⟨handled, .refl⟩

/-- Time passes up to some target, and whatever is due by then is handled on the way. -/
theorem rests {target : Nat} (hnow : t.elapsed ≤ target) (hreader : reader.SleepsUntil target) :
    ∃ later, Reaches .virtual linger { timeline := t, unread, reader, handled }
      { timeline :=
          { Timeline.alarmClock.fireAll target t with elapsed := target }
        unread, reader, handled := later } := by
  let fired := Timeline.alarmClock.fireAll target t
  have hdone := Timeline.alarmClock_wanes.fire_done target _ t (Nat.le_refl _)
  have helapsed : fired.elapsed ≤ target := Timeline.fire_elapsed _ hnow
  obtain ⟨later, hfired⟩ : ∃ later, Reaches .virtual linger
      { timeline := t, unread, reader, handled }
      { timeline := fired, unread, reader, handled := later } := fires _ hreader
  have hpassed : Reaches .virtual linger
      { timeline := fired, unread, reader, handled := later }
      { timeline := { fired with elapsed := max fired.elapsed target }, unread, reader
        handled := later } := passes (fun a ha => Nat.le_of_lt (hdone a ha)) hreader
  rw [Nat.max_eq_right helapsed] at hpassed
  exact ⟨later, hfired.trans hpassed⟩

theorem advances {ms : Nat} (hreader : reader.SleepsUntil (t.elapsed + Timeline.wait ms)) :
    ∃ later, Reaches .virtual linger { timeline := t, unread, reader, handled }
      { timeline := t.advance ms, unread, reader, handled := later } :=
  rests (Nat.le_add_right _ _) hreader

/-- A reader that sleeps can sleep for long enough. -/
theorem sleeps {due : Nat} (hreader : reader.SleepsUntil due) :
    ∃ u later, Reaches .virtual linger { timeline := t, unread, reader, handled }
      { timeline := u, unread, reader, handled := later } ∧ due ≤ u.elapsed := by
  by_cases hdue : due ≤ t.elapsed
  · exact ⟨t, handled, .refl, hdue⟩
  · obtain ⟨later, hlater⟩ := rests (Nat.le_of_not_le hdue) hreader
    exact ⟨_, later, hlater, Nat.le_refl _⟩

/-- Once the reader has lingered for long enough, the loop ends. -/
theorem ends {due : Nat} (hdue : due ≤ t.elapsed) :
    ∃ m, Reaches .virtual linger
      { timeline := t, unread, reader := .lingering due, handled } m ∧
      m.running = false ∧ m.timeline = (t.dispatch .shutdown).2 := by
  have hclose : Step .virtual linger
      { timeline := t, unread, reader := .lingering due, handled } _ := .close due rfl fun _ => hdue
  exact ⟨_, .head hclose (.single (.handle _ _ rfl rfl)), rfl, rfl⟩

end Resting

/-! ### Playing the lines that are left -/

theorem play_send {interrupt : Option Nat} {e : Event} (he : e.isPause = false) (t : Timeline)
    (rest : List Event) :
    play interrupt linger t (e :: rest) = play interrupt linger (t.dispatch (.feed e)).2 rest := by
  cases e with
  | sleep ms => cases he
  | _ => rfl

theorem plays (unread : List String) (t : Timeline) (handled : List Handled) :
    ∃ m, Reaches .virtual linger { timeline := t, unread, handled } m ∧
      m.running = false ∧ m.timeline = play none linger t (events unread) := by
  induction unread generalizing t handled with
  | nil =>
    have hlinger : Step .virtual linger { timeline := t, unread := [], handled } _ :=
      .linger rfl rfl
    obtain ⟨later, hlater⟩ : ∃ later, Reaches .virtual linger
        { timeline := t, unread := [], reader := .lingering (t.elapsed + Timeline.wait linger)
          handled }
        { timeline := t.advance linger, unread := []
          reader := .lingering (t.elapsed + Timeline.wait linger), handled := later } :=
      advances (Nat.le_refl (t.elapsed + Timeline.wait linger))
    obtain ⟨m, hm, hstopped, htimeline⟩ := ends (Nat.le_refl _)
    exact ⟨m, .head hlinger (hlater.trans hm), hstopped, htimeline⟩
  | cons line rest ih =>
    cases hevent : event? line with
    | none =>
      obtain ⟨m, hm, hstopped, htimeline⟩ := ih t handled
      rw [events_cons, hevent]
      exact ⟨m, .head (.skip line rest rfl rfl hevent) hm, hstopped, htimeline⟩
    | some e =>
      rw [events_cons, hevent]
      cases hpause : e.isPause with
      | false =>
        obtain ⟨m, hm, hstopped, htimeline⟩ := ih (t.dispatch (.feed e)).2 _
        exact ⟨m, (sends hevent hpause).trans hm, hstopped,
          htimeline.trans (play_send hpause t _).symm⟩
      | true =>
        cases e with
        | sleep ms =>
          have hsleep : Step .virtual linger { timeline := t, unread := line :: rest, handled } _ :=
            .pause line rest ms rfl rfl hevent
          obtain ⟨later, hlater⟩ : ∃ later, Reaches .virtual linger
              { timeline := t, unread := rest
                reader := .paused (t.elapsed + Timeline.wait ms.toNat), handled }
              { timeline := t.advance ms.toNat, unread := rest
                reader := .paused (t.elapsed + Timeline.wait ms.toNat), handled := later } :=
            advances (Nat.le_refl (t.elapsed + Timeline.wait ms.toNat))
          obtain ⟨m, hm, hstopped, htimeline⟩ := ih (t.advance ms.toNat) later
          exact ⟨m, .head hsleep (hlater.trans (.head (.wake _ rfl fun _ => Nat.le_refl _) hm)),
            hstopped, htimeline⟩
        | _ => cases hpause

/-- A run of a feed is one that the loop makes on time. -/
theorem run_reached (origin : Millis) (d : Dispatcher) (lines : List String) :
    ∃ l, Reaches .virtual linger (Loop.start origin d lines) l ∧ l.running = false ∧
      l.timeline = run none linger { origin, dispatcher := d } lines :=
  plays lines { origin, dispatcher := d } []

/-- The loop never gets stuck. -/
theorem Reaches.stops {origin : Millis} {d : Dispatcher} {lines : List String} {l : Loop}
    (h : Reaches pace linger (Loop.start origin d lines) l) :
    ∃ m, Reaches pace linger l m ∧ m.running = false := by
  cases hrunning : l.running with
  | false => exact ⟨l, .refl, hrunning⟩
  | true =>
    obtain ⟨k, hdrained, hk⟩ := drains l hrunning
    have hdrained : Reaches pace linger l k := hdrained.of_virtual
    rcases hk with hstopped | ⟨hrunning, hqueue⟩
    · exact ⟨k, hdrained, hstopped⟩
    · suffices hrest : ∃ m, Reaches .virtual linger k m ∧ m.running = false by
        obtain ⟨m, hm, hstopped⟩ := hrest
        exact ⟨m, hdrained.trans hm.of_virtual, hstopped⟩
      have hfaithful := Faithful.of_reaches (h.trans hdrained)
      obtain ⟨t, unread, reader, queue, handled, running⟩ := k
      obtain rfl : queue = [] := hqueue
      obtain rfl : running = true := hrunning
      cases reader with
      | reading =>
        obtain ⟨m, hm, hstopped, -⟩ := plays unread t handled
        exact ⟨m, hm, hstopped⟩
      | paused due =>
        have hsleeps : (Reader.paused due).SleepsUntil due := Nat.le_refl due
        obtain ⟨u, later, hlater, hdue⟩ := sleeps hsleeps
        obtain ⟨m, hm, hstopped, -⟩ := plays unread u later
        exact ⟨m, hlater.trans (.head (.wake due rfl fun _ => hdue) hm), hstopped⟩
      | lingering due =>
        have hsleeps : (Reader.lingering due).SleepsUntil due := Nat.le_refl due
        obtain ⟨u, later, hlater, hdue⟩ := sleeps hsleeps
        obtain ⟨m, hm, hstopped, -⟩ := ends hdue
        exact ⟨m, hlater.trans hm, hstopped⟩
      | finished =>
        -- The end that the reader has posted is not in the queue any more.
        have hends := hfaithful.ends
        rw [if_pos rfl, Loop.posted, List.append_nil] at hends
        obtain ⟨p, hp⟩ := List.exists_mem_of_length_pos (hends ▸ Nat.one_pos)
        obtain ⟨hp, hend⟩ := List.mem_filter.mp hp
        obtain ⟨x, hx, rfl⟩ := mem_inOrder.mp hp
        obtain ⟨later, earlier, hsplit⟩ := List.append_of_mem hx
        have hfalse := (hfaithful.stops later x earlier hsplit (of_decide_eq_true hend)).2
        cases hfalse

end WifiAdvisor.Feed
