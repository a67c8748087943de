import Mathlib.Data.List.Perm.Subperm
import Mathlib.Logic.Relation
import WifiAdvisor.Feed.Run
import WifiAdvisor.Proofs.Firing

/-!
# The event loop

A reader, sleeping alarms and a dispatcher share a queue. The reader posts the events of its lines
and behind them an end; an alarm posts its timer; the dispatcher handles what stands first. Whoever
goes next: nothing is lost, made twice or put in another order.
-/
namespace WifiAdvisor.Feed

/-! ### The loop and its steps -/

inductive Reader where
  | reading
  | paused (due : Nat)
  /-- Behind the last line. -/
  | lingering (due : Nat)
  | finished
  deriving DecidableEq

/-- What stands in the queue. What does not wait for anything is due when it is posted. -/
structure Posted where
  queued : Queued
  due : Nat
  sent : Nat
  deriving DecidableEq

structure Handled extends Posted where
  time : Nat
  deriving DecidableEq

structure Loop where
  timeline : Timeline
  unread : List String
  reader : Reader := .reading
  queue : List Posted := []
  /-- What was handled, the latest first. -/
  handled : List Handled := []
  running : Bool := true
  deriving DecidableEq

inductive Pace where
  /-- Everyone takes turns as it happens, however long anyone sleeps. -/
  | free
  /-- Nobody wakes before it is due, and time passes only while all wait. -/
  | virtual

/-- The event of a line, if it has one. -/
def event? (line : String) : Option Event :=
  match parseLine line with
  | .ok e => e
  | .error _ => none

def Event.isPause : Event → Bool
  | .sleep _ => true
  | _ => false

/-- The events that lines have for the queue. -/
def sendable (lines : List String) : List Event := (events lines).filter fun e => !e.isPause

def Reader.SleepsUntil (time : Nat) : Reader → Prop
  | .reading => False
  | .paused due => time ≤ due
  | .lingering due => time ≤ due
  | .finished => True

instance (time : Nat) : (r : Reader) → Decidable (r.SleepsUntil time)
  | .reading => inferInstanceAs (Decidable False)
  | .paused due => inferInstanceAs (Decidable (time ≤ due))
  | .lingering due => inferInstanceAs (Decidable (time ≤ due))
  | .finished => inferInstanceAs (Decidable True)

namespace Loop

def start (origin : Millis) (d : Dispatcher) (lines : List String) : Loop where
  timeline := { origin, dispatcher := d }
  unread := lines

def now (l : Loop) : Nat := l.timeline.elapsed

def post (l : Loop) (queued : Queued) (due : Nat) : Loop :=
  { l with queue := l.queue ++ [{ queued, due, sent := l.now }] }

def ring (l : Loop) (a : Alarm) (others : List Alarm) : Loop :=
  { l with timeline := { l.timeline with alarms := others } }.post (.timer a.advisor a.timer) a.due

def handle (l : Loop) (p : Posted) (rest : List Posted) : Loop :=
  let r := l.timeline.dispatch p.queued
  { l with
    timeline := r.2
    queue := rest
    handled := { p with time := l.now } :: l.handled
    running := r.1 }

def pass (l : Loop) (ms : Nat) : Loop :=
  { l with timeline := { l.timeline with elapsed := l.now + ms } }

/-- All wait, and none of them for less than `ms` more milliseconds. -/
structure Idle (l : Loop) (ms : Nat) : Prop where
  queue : l.queue = []
  alarms : ∀ a ∈ l.timeline.alarms, l.now + ms ≤ a.due
  reader : l.reader.SleepsUntil (l.now + ms)

end Loop

/-- A step of the reader, of an alarm, of the dispatcher or of the clock. -/
inductive Step (pace : Pace) (linger : Nat) (l : Loop) : Loop → Prop where
  | skip (line : String) (rest : List String) : l.reader = .reading → l.unread = line :: rest →
      event? line = none → Step pace linger l { l with unread := rest }
  | pause (line : String) (rest : List String) (ms : UInt64) : l.reader = .reading →
      l.unread = line :: rest → event? line = some (.sleep ms) →
      Step pace linger l
        { l with unread := rest, reader := .paused (l.now + Timeline.wait ms.toNat) }
  | send (line : String) (rest : List String) (e : Event) : l.reader = .reading →
      l.unread = line :: rest → event? line = some e → e.isPause = false →
      Step pace linger l ({ l with unread := rest }.post (.feed e) l.now)
  | linger : l.reader = .reading → l.unread = [] →
      Step pace linger l { l with reader := .lingering (l.now + Timeline.wait linger) }
  | wake (due : Nat) : l.reader = .paused due → (pace = .virtual → due ≤ l.now) →
      Step pace linger l { l with reader := .reading }
  | close (due : Nat) : l.reader = .lingering due → (pace = .virtual → due ≤ l.now) →
      Step pace linger l ({ l with reader := .finished }.post .shutdown l.now)
  | ring (front : List Alarm) (a : Alarm) (back : List Alarm) :
      l.timeline.alarms = front ++ a :: back → (pace = .virtual → a.due ≤ l.now) →
      Step pace linger l (l.ring a (front ++ back))
  | handle (p : Posted) (rest : List Posted) : l.running = true → l.queue = p :: rest →
      Step pace linger l (l.handle p rest)
  | pass (ms : Nat) : (pace = .virtual → l.Idle ms) → Step pace linger l (l.pass ms)

/-- The loop can get from one state to another. -/
def Reaches (pace : Pace) (linger : Nat) : Loop → Loop → Prop :=
  Relation.ReflTransGen (Step pace linger)

/-! ### What has been posted and handled -/

def Handled.entry (origin : Millis) (h : Handled) : Entry where
  now := Millis.clamp (origin.toNat + h.time)
  queued := h.queued

def Posted.feed? (p : Posted) : Option Event :=
  match p.queued with
  | .feed e => some e
  | _ => none

/-- The alarm of which a timer was posted. -/
def Posted.alarm? (p : Posted) : Option Alarm :=
  match p.queued with
  | .timer advisor timer => some { due := p.due, advisor, timer }
  | _ => none

def feeds (ps : List Posted) : List Event := ps.filterMap Posted.feed?

def rung (ps : List Posted) : List Alarm := ps.filterMap Posted.alarm?

/-- What was handled, in order, as it had been posted. -/
def inOrder (hs : List Handled) : List Posted := hs.reverse.map Handled.toPosted

/-- What a dispatcher sees of all that was handled. -/
def entries (origin : Millis) (hs : List Handled) : List Entry := hs.map (·.entry origin)

/-- The alarms that were set while all that was handled. -/
def armings (origin : Millis) (d : Dispatcher) : List Handled → List Alarm
  | [] => []
  | h :: earlier =>
    armings origin d earlier ++
      ((d.after (entries origin earlier)).dispatch (h.entry origin).now h.queued).2.2.filterMap
        (Timeline.alarmOf? h.time)

/-- All that was ever posted, in order. -/
def Loop.posted (l : Loop) : List Posted := inOrder l.handled ++ l.queue

@[simp] theorem feeds_append (front back : List Posted) :
    feeds (front ++ back) = feeds front ++ feeds back := List.filterMap_append

@[simp] theorem rung_append (front back : List Posted) :
    rung (front ++ back) = rung front ++ rung back := List.filterMap_append

theorem inOrder_cons (h : Handled) (hs : List Handled) :
    inOrder (h :: hs) = inOrder hs ++ [h.toPosted] := by
  simp [inOrder]

theorem mem_inOrder {p : Posted} {hs : List Handled} :
    p ∈ inOrder hs ↔ ∃ h ∈ hs, h.toPosted = p := by
  rw [inOrder, List.mem_map]
  constructor
  · rintro ⟨h, hh, heq⟩
    exact ⟨h, List.mem_reverse.mp hh, heq⟩
  · rintro ⟨h, hh, heq⟩
    exact ⟨h, List.mem_reverse.mpr hh, heq⟩

/-- What is to hold of everything handled with what was handled before it. -/
theorem split_cons {P : List Handled → Handled → List Handled → Prop} {x : Handled}
    {hs : List Handled} (hnew : P [] x hs)
    (hold : ∀ later h earlier, hs = later ++ h :: earlier → P (x :: later) h earlier) :
    ∀ later h earlier, x :: hs = later ++ h :: earlier → P later h earlier := by
  intro later h earlier heq
  rcases List.cons_eq_append_iff.mp heq with ⟨rfl, hcons⟩ | ⟨others, rfl, hothers⟩
  · obtain ⟨rfl, rfl⟩ := List.cons.inj hcons
    exact hnew
  · exact hold others h earlier hothers

theorem events_cons (line : String) (rest : List String) :
    events (line :: rest) = (event? line).toList ++ events rest := by
  have hline : events (line :: rest) = (line :: rest).filterMap event? := rfl
  rw [hline, List.filterMap_cons]
  cases event? line <;> rfl

theorem sendable_skip {line : String} (h : event? line = none) (rest : List String) :
    sendable (line :: rest) = sendable rest := by
  rw [sendable, events_cons, h]
  rfl

theorem sendable_pause {line : String} {ms : UInt64} (h : event? line = some (.sleep ms))
    (rest : List String) : sendable (line :: rest) = sendable rest := by
  rw [sendable, events_cons, h]
  rfl

theorem sendable_send {line : String} {e : Event} (h : event? line = some e)
    (he : e.isPause = false) (rest : List String) :
    sendable (line :: rest) = e :: sendable rest := by
  rw [sendable, events_cons, h, Option.toList_some, List.singleton_append, List.filter_cons, he]
  rfl

/-! ### Nothing is lost, made twice or put in another order -/

/-- Behind an end there are only timers. -/
def EndsLast (ps : List Posted) : Prop :=
  ∀ front p back, ps = front ++ p :: back → p.queued = .shutdown →
    ∀ q ∈ back, ∃ advisor timer, q.queued = .timer advisor timer

theorem EndsLast.append {ps : List Posted} (h : EndsLast ps) {x : Posted}
    (hx : (∃ advisor timer, x.queued = .timer advisor timer) ∨ ∀ p ∈ ps, p.queued ≠ .shutdown) :
    EndsLast (ps ++ [x]) := by
  intro front p back heq hp q hq
  rcases List.eq_nil_or_concat back with rfl | ⟨before, y, rfl⟩
  · cases hq
  · have hsplit : ps ++ [x] = (front ++ p :: before) ++ [y] := by
      rw [heq, List.concat_eq_append, List.append_assoc, List.cons_append]
    obtain ⟨hps, hxy⟩ := List.append_inj' hsplit rfl
    obtain rfl : x = y := List.singleton_inj.mp hxy
    rw [List.concat_eq_append, List.mem_append, List.mem_singleton] at hq
    rcases hq with hq | rfl
    · exact h front p before hps hp q hq
    · rcases hx with htimer | hnone
      · exact htimer
      · exact (hnone p (by simp [hps]) hp).elim

/-- What the loop has done so far is in keeping with its lines and with what was armed. -/
structure Faithful (origin : Millis) (d : Dispatcher) (lines : List String) (l : Loop) : Prop where
  clock : l.timeline.origin = origin
  dispatcher : l.timeline.dispatcher = d.after (entries origin l.handled)
  records : l.timeline.records = emitted (d.demands (entries origin l.handled))
  feeds : feeds l.posted ++ sendable l.unread = sendable lines
  read : l.unread = [] ∨ l.reader = .reading ∨ ∃ due, l.reader = .paused due
  alarms : (rung l.posted ++ l.timeline.alarms).Perm (armings origin d l.handled)
  /-- An end is posted when the reader has finished, and only then. -/
  ends : (l.posted.filter fun p => p.queued = .shutdown).length =
    if l.reader = .finished then 1 else 0
  last : EndsLast l.posted
  /-- Nothing was handled after an end. -/
  stops : ∀ later h earlier, l.handled = later ++ h :: earlier → h.queued = .shutdown →
    later = [] ∧ l.running = false
  stopped : l.running = false → ∃ h earlier, l.handled = h :: earlier ∧ h.queued = .shutdown
  /-- Timers were armed before they were handled, each of them as often at least. -/
  timers : ∀ later h earlier, l.handled = later ++ h :: earlier →
    (rung (inOrder (h :: earlier))).Subperm (armings origin d earlier)

namespace Faithful

variable {origin : Millis} {d : Dispatcher} {lines : List String} {l m : Loop} {pace : Pace}
  {linger : Nat}

theorem start : Faithful origin d lines (Loop.start origin d lines) where
  clock := rfl
  dispatcher := rfl
  records := rfl
  feeds := rfl
  read := .inr (.inl rfl)
  alarms := List.Perm.nil
  ends := rfl
  last front p back heq := by simp [Loop.posted, Loop.start, inOrder] at heq
  stops later h earlier heq := by simp [Loop.start] at heq
  stopped h := by cases h
  timers later h earlier heq := by simp [Loop.start] at heq

theorem posted_post (l : Loop) (q : Queued) (due : Nat) :
    (l.post q due).posted = l.posted ++ [{ queued := q, due, sent := l.now }] :=
  (List.append_assoc _ _ _).symm

theorem posted_handle {p : Posted} {rest : List Posted} (h : l.queue = p :: rest) :
    (l.handle p rest).posted = l.posted := by
  simp [Loop.posted, Loop.handle, inOrder_cons, h]

theorem no_end (h : Faithful origin d lines l) (hreader : l.reader ≠ .finished) :
    ∀ p ∈ l.posted, p.queued ≠ .shutdown := by
  have hends := h.ends
  rw [if_neg hreader, List.length_eq_zero_iff, List.filter_eq_nil_iff] at hends
  intro p hp
  simpa using hends p hp

theorem all_read (h : Faithful origin d lines l) (hreading : l.reader ≠ .reading)
    (hpaused : ∀ due, l.reader ≠ .paused due) : l.unread = [] := by
  rcases h.read with hread | hreader | ⟨due, hreader⟩
  · exact hread
  · exact (hreading hreader).elim
  · exact (hpaused due hreader).elim

theorem send (h : Faithful origin d lines l) {line : String} {rest : List String} {e : Event}
    (hreader : l.reader = .reading) (hunread : l.unread = line :: rest)
    (hevent : event? line = some e) (he : e.isPause = false) :
    Faithful origin d lines ({ l with unread := rest }.post (.feed e) l.now) := by
  have hopen : l.reader ≠ .finished := by simp [hreader]
  have hposted : ({ l with unread := rest }.post (.feed e) l.now).posted =
      l.posted ++ [{ queued := .feed e, due := l.now, sent := l.now }] := posted_post _ _ _
  refine { h with feeds := ?_, read := .inr (.inl hreader), alarms := ?_, ends := ?_, last := ?_ }
  · have hfeeds := h.feeds
    rw [hunread, sendable_send hevent he] at hfeeds
    rw [hposted, feeds_append, List.append_assoc]
    exact hfeeds
  · rw [hposted, rung_append, List.append_assoc]
    exact h.alarms
  · rw [hposted, List.filter_append, List.length_append]
    exact h.ends
  · rw [hposted]
    exact h.last.append (.inr (h.no_end hopen))

theorem close (h : Faithful origin d lines l) {due : Nat} (hreader : l.reader = .lingering due) :
    Faithful origin d lines ({ l with reader := .finished }.post .shutdown l.now) := by
  have hopen : l.reader ≠ .finished := by simp [hreader]
  have hposted : ({ l with reader := .finished }.post .shutdown l.now).posted =
      l.posted ++ [{ queued := .shutdown, due := l.now, sent := l.now }] := posted_post _ _ _
  have hread := h.all_read (by simp [hreader]) (by simp [hreader])
  refine { h with feeds := ?_, read := .inl hread, alarms := ?_, ends := ?_, last := ?_ }
  · rw [hposted, feeds_append, List.append_assoc]
    exact h.feeds
  · rw [hposted, rung_append, List.append_assoc]
    exact h.alarms
  · have hends := h.ends
    rw [if_neg hopen] at hends
    rw [hposted, List.filter_append, List.length_append, hends]
    rfl
  · rw [hposted]
    exact h.last.append (.inr (h.no_end hopen))

theorem ring (h : Faithful origin d lines l) {front back : List Alarm} {a : Alarm}
    (halarms : l.timeline.alarms = front ++ a :: back) :
    Faithful origin d lines (l.ring a (front ++ back)) := by
  have hposted : (l.ring a (front ++ back)).posted =
      l.posted ++ [{ queued := .timer a.advisor a.timer, due := a.due, sent := l.now }] :=
    posted_post _ _ _
  refine { h with feeds := ?_, alarms := ?_, ends := ?_, last := ?_ }
  · rw [hposted, feeds_append, List.append_assoc]
    exact h.feeds
  · have hbefore := h.alarms
    rw [halarms] at hbefore
    have hmove : (rung l.posted ++ a :: (front ++ back)).Perm
        (rung l.posted ++ (front ++ a :: back)) := List.perm_middle.symm.append_left _
    rw [hposted, rung_append, List.append_assoc]
    exact hmove.trans hbefore
  · rw [hposted, List.filter_append, List.length_append]
    exact h.ends
  · rw [hposted]
    exact h.last.append (.inl ⟨a.advisor, a.timer, rfl⟩)

theorem handle (h : Faithful origin d lines l) {p : Posted} {rest : List Posted}
    (hrunning : l.running = true) (hqueue : l.queue = p :: rest) :
    Faithful origin d lines (l.handle p rest) := by
  have hposted := posted_handle hqueue
  obtain ⟨hflag, horigin, helapsed, hdispatcher, halarms, hrecords⟩ :=
    l.timeline.dispatch_meets p.queued
  -- The dispatcher sees the entry at the clock of the timeline.
  have hnow : l.timeline.now = (({ p with time := l.now } : Handled).entry origin).now := by
    rw [Timeline.now, h.clock]
    rfl
  have hrun : (l.timeline.dispatch p.queued).1 = true ↔ p.queued ≠ .shutdown := by
    rw [hflag]
    exact Dispatcher.dispatch_continues _ _ _
  rw [hnow, h.dispatcher] at hdispatcher halarms hrecords
  refine
    { clock := horigin.trans h.clock, dispatcher := hdispatcher, feeds := ?_, read := h.read
      records := ?_, alarms := ?_, ends := ?_, last := ?_, stops := ?_, stopped := ?_
      timers := ?_ }
  · refine hrecords.trans ?_
    rw [h.records, ← emitted_append]
    rfl
  · rw [hposted]
    exact h.feeds
  · have hnew : (rung l.posted ++ (l.handle p rest).timeline.alarms).Perm
        (rung l.posted ++ (l.timeline.alarms ++ _)) := (List.Perm.of_eq halarms).append_left _
    rw [hposted]
    refine hnew.trans ?_
    rw [← List.append_assoc]
    exact h.alarms.append_right _
  · rw [hposted]
    exact h.ends
  · rw [hposted]
    exact h.last
  · refine split_cons ?_ ?_
    · intro hend
      refine ⟨rfl, Bool.eq_false_iff.mpr fun htrue => ?_⟩
      exact hrun.mp htrue hend
    · intro others x earlier hothers hx
      have hfalse := (h.stops others x earlier hothers hx).2
      rw [hrunning] at hfalse
      cases hfalse
  · intro hfalse
    refine ⟨_, _, rfl, ?_⟩
    by_contra hne
    have htrue := hrun.mpr hne
    cases htrue.symm.trans hfalse
  · refine split_cons ?_ h.timers
    have hsub : (rung (inOrder ({ p with time := l.now } :: l.handled))).Subperm
        (rung l.posted ++ l.timeline.alarms) := by
      have hrest : rung (p :: rest) = rung [p] ++ rung rest := rung_append [p] rest
      rw [inOrder_cons, Loop.posted, hqueue, rung_append, rung_append, hrest,
        ← List.append_assoc, List.append_assoc _ (rung rest)]
      exact (List.sublist_append_left _ _).subperm
    exact hsub.trans h.alarms.subperm

theorem step (h : Faithful origin d lines l) (hstep : Step pace linger l m) :
    Faithful origin d lines m := by
  cases hstep with
  | skip line rest hreader hunread hevent =>
    have hfeeds := h.feeds
    rw [hunread, sendable_skip hevent] at hfeeds
    exact { h with feeds := hfeeds, read := .inr (.inl hreader) }
  | pause line rest ms hreader hunread hevent =>
    have hfeeds := h.feeds
    rw [hunread, sendable_pause hevent] at hfeeds
    have hends := h.ends
    rw [hreader] at hends
    exact { h with feeds := hfeeds, read := .inr (.inr ⟨_, rfl⟩), ends := hends }
  | send line rest e hreader hunread hevent he => exact h.send hreader hunread hevent he
  | linger hreader hunread =>
    have hends := h.ends
    rw [hreader] at hends
    exact { h with read := .inl hunread, ends := hends }
  | wake due hreader _ =>
    have hends := h.ends
    rw [hreader] at hends
    exact { h with read := .inr (.inl rfl), ends := hends }
  | close due hreader _ => exact h.close hreader
  | ring front a back halarms _ => exact h.ring halarms
  | handle p rest hrunning hqueue => exact h.handle hrunning hqueue
  | pass ms _ => exact { h with }

theorem of_reaches (h : Reaches pace linger (Loop.start origin d lines) l) :
    Faithful origin d lines l := by
  induction h with
  | refl => exact .start
  | tail _ hstep ih => exact ih.step hstep

theorem finished_of_end (h : Faithful origin d lines l) {p : Posted} (hp : p ∈ l.posted)
    (hend : p.queued = .shutdown) : l.reader = .finished := by
  by_contra hreader
  exact h.no_end hreader p hp hend

/-- What was handled so far is what the first lines hold. -/
theorem heard (h : Faithful origin d lines l) :
    Feed.feeds (inOrder l.handled) <+: sendable lines := by
  rw [← h.feeds, Loop.posted, feeds_append, List.append_assoc]
  exact List.prefix_append _ _

/-- In front of an end there is all that the lines hold. -/
theorem before_end (h : Faithful origin d lines l) {front back : List Posted} {p : Posted}
    (hsplit : l.posted = front ++ p :: back) (hend : p.queued = .shutdown) :
    Feed.feeds front = sendable lines := by
  have hfinished := h.finished_of_end (by simp [hsplit]) hend
  have hread := h.all_read (by simp [hfinished]) (by simp [hfinished])
  have hback : Feed.feeds (p :: back) = [] := by
    refine List.filterMap_eq_nil_iff.mpr fun q hq => ?_
    rcases List.mem_cons.mp hq with rfl | hq
    · rw [Posted.feed?, hend]
    · obtain ⟨advisor, timer, htimer⟩ := h.last front p back hsplit hend q hq
      rw [Posted.feed?, htimer]
  have hfeeds := h.feeds
  rw [hsplit, feeds_append, hback, hread, List.append_nil] at hfeeds
  exact (List.append_nil _).symm.trans hfeeds

/-- By the time it stops, the loop has handled all that its lines hold, and one end. -/
theorem complete (h : Faithful origin d lines l) (hstopped : l.running = false) :
    Feed.feeds (inOrder l.handled) = sendable lines ∧
      (l.posted.filter fun p => p.queued = .shutdown).length = 1 := by
  obtain ⟨x, earlier, hhandled, hx⟩ := h.stopped hstopped
  have hsplit : l.posted = inOrder earlier ++ x.toPosted :: l.queue := by
    rw [Loop.posted, hhandled, inOrder_cons, List.append_assoc]
    rfl
  have hfinished := h.finished_of_end (p := x.toPosted) (by simp [hsplit]) hx
  have hend : Posted.feed? x.toPosted = none := by rw [Posted.feed?, hx]
  constructor
  · rw [← h.before_end hsplit hx, hhandled, inOrder_cons, feeds_append, Feed.feeds, Feed.feeds,
      List.filterMap_cons, hend, List.filterMap_nil, List.append_nil]
  · rw [h.ends, if_pos hfinished]

end Faithful

end WifiAdvisor.Feed
