import WifiAdvisor.Proofs.Loop

/-!
# The event loop on time

When time passes only while all wait, whatever is posted is handled in the same instant. So an
entry finds all those alarms handled that were due before it was posted, and none that was due
later.
-/
namespace WifiAdvisor.Feed

variable {origin : Millis} {d : Dispatcher} {lines : List String} {linger : Nat}

theorem mem_rung {x : Alarm} {ps : List Posted} :
    x ∈ rung ps ↔ ∃ p ∈ ps, p.queued = .timer x.advisor x.timer ∧ p.due = x.due := by
  rw [rung, List.mem_filterMap]
  constructor
  · rintro ⟨p, hp, hx⟩
    refine ⟨p, hp, ?_⟩
    obtain ⟨queued, due, sent⟩ := p
    cases queued with
    | timer advisor timer =>
      cases hx
      exact ⟨rfl, rfl⟩
    | _ => cases hx
  · rintro ⟨p, hp, hqueued, hdue⟩
    refine ⟨p, hp, ?_⟩
    rw [Posted.alarm?, hqueued, hdue]

/-- The alarms that are due before some time. -/
def dueBefore (time : Nat) (alarms : List Alarm) : List Alarm :=
  alarms.filter fun a => decide (a.due < time)

theorem dueBefore_append (time : Nat) (front back : List Alarm) :
    dueBefore time (front ++ back) = dueBefore time front ++ dueBefore time back :=
  List.filter_append front back

theorem dueBefore_eq_nil {time : Nat} {alarms : List Alarm} (h : ∀ a ∈ alarms, time ≤ a.due) :
    dueBefore time alarms = [] := by
  refine List.filter_eq_nil_iff.mpr fun a ha hdue => ?_
  have hle := h a ha
  have hlt := of_decide_eq_true hdue
  omega

/-- A loop in which everything happens when it is due. -/
structure Punctual (origin : Millis) (d : Dispatcher) (l : Loop) : Prop where
  alarms : ∀ a ∈ l.timeline.alarms, l.now ≤ a.due
  queue : ∀ p ∈ l.queue, p.sent = l.now ∧ p.due = l.now
  handled : ∀ h ∈ l.handled, h.sent = h.time ∧ h.due = h.time ∧ h.time ≤ l.now
  /-- No alarm was handled before an entry that was posted when it was not yet due. -/
  early : ∀ later h earlier, l.handled = later ++ h :: earlier →
    ∀ x ∈ rung (inOrder earlier), x.due ≤ h.sent
  /-- The alarms that were due when an entry was posted were all handled before it. -/
  late : ∀ later h earlier, l.handled = later ++ h :: earlier →
    (dueBefore h.sent (armings origin d l.handled)).Perm
      (dueBefore h.sent (rung (inOrder earlier)))

namespace Punctual

variable {l m : Loop}

theorem start : Punctual origin d (Loop.start origin d lines) where
  alarms a ha := by cases ha
  queue p hp := by cases hp
  handled h hh := by cases hh
  early later h earlier heq := by simp [Loop.start] at heq
  late later h earlier heq := by simp [Loop.start] at heq

/-- What waits was not due before now. -/
theorem dueBefore_waiting (h : Punctual origin d l) :
    dueBefore l.now (rung l.queue ++ l.timeline.alarms) = [] := by
  apply dueBefore_eq_nil
  intro a ha
  rcases List.mem_append.mp ha with ha | ha
  · obtain ⟨p, hp, -, hdue⟩ := mem_rung.mp ha
    have hnow := (h.queue p hp).2
    omega
  · exact h.alarms a ha

theorem post (h : Punctual origin d l) (q : Queued) :
    Punctual origin d (l.post q l.now) := by
  refine { h with queue := ?_ }
  intro p hp
  rcases List.mem_append.mp hp with hp | hp
  · exact h.queue p hp
  · rw [List.mem_singleton.mp hp]
    exact ⟨rfl, rfl⟩

theorem ring (h : Punctual origin d l) {front back : List Alarm} {a : Alarm}
    (halarms : l.timeline.alarms = front ++ a :: back) (hdue : a.due ≤ l.now) :
    Punctual origin d (l.ring a (front ++ back)) := by
  -- An alarm neither rings too early nor is left behind.
  have hnow : a.due = l.now := Nat.le_antisymm hdue (h.alarms a (by simp [halarms]))
  have hrest : Punctual origin d
      { l with timeline := { l.timeline with alarms := front ++ back } } := by
    refine { h with alarms := ?_ }
    intro b hb
    have hmem : b ∈ front ++ back := hb
    apply h.alarms
    rw [halarms]
    rw [List.mem_append] at hmem
    rw [List.mem_append, List.mem_cons]
    rcases hmem with hb | hb
    · exact .inl hb
    · exact .inr (.inr hb)
  rw [Loop.ring, hnow]
  exact hrest.post _

theorem handle (hf : Faithful origin d lines l) (h : Punctual origin d l) {p : Posted}
    {rest : List Posted} (hqueue : l.queue = p :: rest) :
    Punctual origin d (l.handle p rest) := by
  obtain ⟨-, -, helapsed, -, halarms, -⟩ := l.timeline.dispatch_meets p.queued
  have hnow : (l.handle p rest).now = l.now := helapsed
  obtain ⟨hsent, hdue⟩ := h.queue p (by simp [hqueue])
  have hposted : rung l.posted = rung (inOrder l.handled) ++ rung l.queue := rung_append _ _
  refine { alarms := ?_, queue := ?_, handled := ?_, early := ?_, late := ?_ }
  · intro a ha
    have hmem : a ∈ l.timeline.alarms ++ _ := halarms ▸ ha
    rw [hnow]
    rcases List.mem_append.mp hmem with ha | ha
    · exact h.alarms a ha
    · exact Timeline.le_due_of_alarmOf? ha
  · intro q hq
    rw [hnow]
    exact h.queue q (hqueue ▸ List.mem_cons_of_mem p hq)
  · intro x hx
    rw [hnow]
    rcases List.mem_cons.mp hx with rfl | hx
    · exact ⟨hsent, hdue, Nat.le_refl _⟩
    · exact h.handled x hx
  · refine split_cons ?_ h.early
    intro y hy
    obtain ⟨q, hq, -, hy⟩ := mem_rung.mp hy
    obtain ⟨g, hg, rfl⟩ := mem_inOrder.mp hq
    obtain ⟨-, hgdue, hgtime⟩ := h.handled g hg
    have hxsent : ({ p with time := l.now } : Handled).sent = l.now := hsent
    omega
  · -- The demands made now set alarms that are due from now on.
    have hnew (time : Nat) (htime : time ≤ l.now) :
        dueBefore time (armings origin d (l.handle p rest).handled) =
          dueBefore time (armings origin d l.handled) := by
      refine (dueBefore_append time _ _).trans ?_
      rw [dueBefore_eq_nil fun a ha => Nat.le_trans htime (Timeline.le_due_of_alarmOf? ha),
        List.append_nil]
    refine split_cons ?_ ?_
    · -- All that was armed has been handled or waits, and what waits is not due before now.
      have hxsent : ({ p with time := l.now } : Handled).sent = l.now := hsent
      have hall := hf.alarms.symm.filter fun a => decide (a.due < l.now)
      rw [hposted, List.append_assoc, List.filter_append] at hall
      have hnone := h.dueBefore_waiting
      rw [dueBefore] at hnone
      rw [hnone, List.append_nil] at hall
      rw [hxsent, hnew _ (Nat.le_refl _)]
      exact hall
    · intro others x earlier hothers
      obtain ⟨hxsent, -, hxtime⟩ := h.handled x (by simp [hothers])
      rw [hnew _ (by omega)]
      exact h.late others x earlier hothers

theorem pass (h : Punctual origin d l) {ms : Nat} (hidle : l.Idle ms) :
    Punctual origin d (l.pass ms) := by
  have hnow : (l.pass ms).now = l.now + ms := rfl
  refine { h with alarms := ?_, queue := ?_, handled := ?_ }
  · exact hidle.alarms
  · intro p hp
    have hnone : p ∈ l.queue := hp
    rw [hidle.queue] at hnone
    cases hnone
  · intro x hx
    obtain ⟨hsent, hdue, htime⟩ := h.handled x hx
    exact ⟨hsent, hdue, by omega⟩

theorem step (hf : Faithful origin d lines l) (h : Punctual origin d l)
    (hstep : Step .virtual linger l m) : Punctual origin d m := by
  cases hstep with
  | skip line rest _ _ _ => exact { h with }
  | pause line rest ms _ _ _ => exact { h with }
  | send line rest e _ _ _ _ => exact post (l := { l with unread := rest }) { h with } (.feed e)
  | linger _ _ => exact { h with }
  | wake due _ _ => exact { h with }
  | close due _ _ => exact post (l := { l with reader := .finished }) { h with } .shutdown
  | ring front a back halarms hdue => exact h.ring halarms (hdue rfl)
  | handle p rest _ hqueue => exact handle hf h hqueue
  | pass ms hidle => exact h.pass (hidle rfl)

theorem of_reaches (h : Reaches .virtual linger (Loop.start origin d lines) l) :
    Punctual origin d l := by
  induction h with
  | refl => exact .start
  | tail hreaches hstep ih => exact step (.of_reaches hreaches) ih hstep

end Punctual

end WifiAdvisor.Feed
