import WifiAdvisor.Timeline
import WifiAdvisor.Proofs.Handlers
import WifiAdvisor.Proofs.Numbering

/-!
# Timers that go off

What handling an entry does to a timeline, and what it does when the entry is a timer: only the
advisor that armed it hears of it. A timer that goes off can be followed by one more, but only
once, so a timeline that has fired up to some time has nothing left that was due by then.
-/
namespace WifiAdvisor

/-! ### A timer at the dispatcher -/

namespace Advisor

/-- A timer adds no network. -/
theorem additions_onTimer (a : Advisor) (t : Timer) :
    Dispatcher.additions (a.onTimer t).2 = 0 := by
  have hclear (resetRepeat : Bool) : Dispatcher.additions (a.clear resetRepeat).2 = 0 := by
    cases resetRepeat <;> cases hp : a.phase <;> simp [clear, hp, Dispatcher.additions]
  rcases onTimer_cases a t with hstale | ⟨-, hs, hexpire⟩
  · rw [hstale]
    rfl
  · rw [hexpire]
    cases t.kind with
    | connectingTimeout =>
      cases hp : a.phase <;> simp [expire, onFailure, hp, armTimer, posting, Dispatcher.additions]
    | connectedShown => exact hclear true
    | failedShown => exact hclear false

end Advisor

namespace Dispatcher

variable (d : Dispatcher) (now : Millis) (t : Timer)

/-- The advisors behind the one that a timer is for do not hear of it. -/
theorem deliverFrom_past {advisor index : Nat} (h : advisor < index) (as : List Advisor)
    (next : NetworkId) :
    d.deliverFrom now (fun i _ => if i = advisor then some (.timer t) else none) index as next =
      (as, next, []) := by
  induction as generalizing index next with
  | nil => rfl
  | cons a rest ih =>
    have hne : index ≠ advisor := by omega
    simp only [deliverFrom, if_neg hne, ih (Nat.lt_succ_of_lt h)]

theorem deliverFrom_timer (index skipped : Nat) (as : List Advisor) (next : NetworkId) :
    d.deliverFrom now (fun i _ => if i = index + skipped then some (.timer t) else none) index as
        next =
      (as.modify skipped fun a => (a.onTimer t).1, next,
        as[skipped]?.elim [] fun a =>
          (a.onTimer t).2.filterMap (demand? (index + skipped) a.identity.tag)) := by
  induction as generalizing index skipped next with
  | nil => simp [deliverFrom]
  | cons a rest ih =>
    cases skipped with
    | zero =>
      have hnext : next + Int32.ofNat (additions (a.onTimer t).2) = next := by
        rw [a.additions_onTimer t]
        exact Int32.add_zero next
      have hrest := deliverFrom_past d now t (Nat.lt_succ_self index) rest next
      simp only [deliverFrom, Nat.add_zero, if_true, Advisor.step, hnext, hrest]
      simp
    | succ skipped =>
      have hne : index ≠ index + (skipped + 1) := by omega
      have hindex : index + (skipped + 1) = index + 1 + skipped := by omega
      have hih := ih (index + 1) skipped next
      simp only [deliverFrom, if_neg hne]
      rw [hindex, hih]
      simp

/-- A timer is handed to the advisor that it is for, and to no other. -/
theorem dispatch_timer (advisor : Nat) :
    d.dispatch now (.timer advisor t) =
      (true, { d with advisors := d.advisors.modify advisor fun a => (a.onTimer t).1 },
        d.advisors[advisor]?.elim [] fun a =>
          (a.onTimer t).2.filterMap (demand? advisor a.identity.tag)) := by
  have hfrom := d.deliverFrom_timer now t 0 advisor d.advisors d.nextNetwork
  rw [Nat.zero_add] at hfrom
  simp only [dispatch, deliver, hfrom]

theorem dispatch_continues (q : Queued) : (d.dispatch now q).1 = true ↔ q ≠ .shutdown := by
  cases q <;> simp [dispatch]

end Dispatcher

namespace Timeline

/-! ### Demands that a timeline meets -/

/-- The alarm that a demand made at some time sets. -/
def alarmOf? (time : Nat) : Demand → Option Alarm
  | .arm advisor delay timer => some { due := time + wait delay.toNat, advisor, timer }
  | _ => none

theorem mem_alarms {time : Nat} {demands : List Demand} {a : Alarm} :
    a ∈ demands.filterMap (alarmOf? time) ↔ ∃ delay,
      Demand.arm a.advisor delay a.timer ∈ demands ∧ a.due = time + wait delay.toNat := by
  rw [List.mem_filterMap]
  constructor
  · rintro ⟨demand, hmem, ha⟩
    cases demand with
    | arm advisor delay timer =>
      cases ha
      exact ⟨delay, hmem, rfl⟩
    | emit record => cases ha
    | save key ssids => cases ha
  · rintro ⟨delay, hmem, hdue⟩
    refine ⟨_, hmem, ?_⟩
    rw [alarmOf?, ← hdue]

theorem le_due_of_alarmOf? {time : Nat} {demands : List Demand} {a : Alarm}
    (h : a ∈ demands.filterMap (alarmOf? time)) : time ≤ a.due := by
  obtain ⟨delay, -, hdue⟩ := mem_alarms.mp h
  omega

/-- A timeline on which demands have been met. -/
structure Meets (t : Timeline) (demands : List Demand) (u : Timeline) : Prop where
  origin : u.origin = t.origin
  elapsed : u.elapsed = t.elapsed
  dispatcher : u.dispatcher = t.dispatcher
  alarms : u.alarms = t.alarms ++ demands.filterMap (alarmOf? t.elapsed)
  records : u.records = t.records ++ emitted demands

theorem foldl_meet (demands : List Demand) (t : Timeline) :
    Meets t demands (demands.foldl meet t) := by
  induction demands generalizing t with
  | nil => exact ⟨rfl, rfl, rfl, (List.append_nil _).symm, (List.append_nil _).symm⟩
  | cons x rest ih =>
    obtain ⟨horigin, helapsed, hdispatcher, halarms, hrecords⟩ := ih (t.meet x)
    rw [List.foldl_cons]
    cases x with
    | emit record =>
      refine ⟨horigin, helapsed, hdispatcher, halarms, ?_⟩
      rw [hrecords, meet, List.append_assoc]
      rfl
    | save key ssids => exact ⟨horigin, helapsed, hdispatcher, halarms, hrecords⟩
    | arm advisor delay timer =>
      refine ⟨horigin, helapsed, hdispatcher, ?_, hrecords⟩
      rw [halarms, meet, List.append_assoc]
      rfl

theorem dispatch_meets (t : Timeline) (q : Queued) :
    let r := t.dispatcher.dispatch t.now q
    (t.dispatch q).1 = r.1 ∧ Meets { t with dispatcher := r.2.1 } r.2.2 (t.dispatch q).2 :=
  ⟨rfl, foldl_meet _ _⟩

end Timeline

/-! ### The earliest alarm -/

namespace AlarmClock

variable {σ α : Type} {clock : AlarmClock σ α Nat} {due : α → Nat}

theorem earliest?_eq_none {alarms : List α} (h : earliest? due alarms = none) : alarms = [] := by
  cases alarms with
  | nil => rfl
  | cons a rest =>
    rw [earliest?] at h
    split at h
    · cases h
    · split at h <;> cases h

/-- The earliest alarm, and of several the one that was set first. -/
theorem earliest?_eq_some {alarms others : List α} {a : α}
    (h : earliest? due alarms = some (a, others)) :
    ∃ front back, alarms = front ++ a :: back ∧ others = front ++ back ∧
      (∀ b ∈ front, due a < due b) ∧ ∀ b ∈ back, due a ≤ due b := by
  induction alarms generalizing a others with
  | nil => cases h
  | cons x rest ih =>
    cases hrest : earliest? due rest with
    | none =>
      have hnil := earliest?_eq_none hrest
      rw [earliest?, hrest] at h
      cases h
      exact ⟨[], [], by rw [hnil, List.nil_append], rfl, by simp, by simp⟩
    | some r =>
      obtain ⟨y, left⟩ := r
      obtain ⟨front, back, hsplit, hleft, hfront, hback⟩ := ih hrest
      rw [earliest?, hrest] at h
      by_cases hlt : due y < due x
      · simp only [if_pos hlt] at h
        cases h
        refine ⟨x :: front, back, by rw [hsplit, List.cons_append], by rw [hleft, List.cons_append],
          ?_, hback⟩
        intro b hb
        rcases List.mem_cons.mp hb with rfl | hb
        · exact hlt
        · exact hfront b hb
      · simp only [if_neg hlt] at h
        cases h
        refine ⟨[], rest, rfl, rfl, by simp, ?_⟩
        intro b hb
        rw [hsplit, List.mem_append, List.mem_cons] at hb
        rcases hb with hb | rfl | hb
        · have hle := hfront b hb
          omega
        · omega
        · have hle := hback b hb
          omega

/-! ### As many alarms as can still go off -/

theorem one_le_weight (t : Timer) : 1 ≤ t.weight := by
  rw [Timer.weight]
  split <;> omega

theorem pending_cons (a : α) (rest : List α) :
    clock.pending (a :: rest) = (clock.timer a).weight + clock.pending rest := rfl

theorem pending_append (front back : List α) :
    clock.pending (front ++ back) = clock.pending front + clock.pending back := by
  induction front with
  | nil => exact (Nat.zero_add _).symm
  | cons a front ih => rw [List.cons_append, pending_cons, pending_cons, ih, Nat.add_assoc]

/-- With each alarm that goes off there are fewer that still can. -/
def Wanes (clock : AlarmClock σ α Nat) : Prop :=
  ∀ s a others, clock.pending (clock.alarms (clock.ring s a others)) <
    clock.pending others + (clock.timer a).weight

/-- Nothing that was due is left. -/
theorem Wanes.fire_done (h : clock.Wanes) (target fuel : Nat) (s : σ)
    (hfuel : clock.pending (clock.alarms s) ≤ fuel) :
    ∀ a ∈ clock.alarms (clock.fire target fuel s), target < clock.due a := by
  induction fuel generalizing s with
  | zero =>
    intro a ha
    obtain ⟨front, back, hsplit⟩ := List.append_of_mem ha
    have hone := one_le_weight (clock.timer a)
    have hsplit : clock.alarms s = front ++ a :: back := hsplit
    rw [hsplit, pending_append, pending_cons] at hfuel
    omega
  | succ fuel ih =>
    rw [fire]
    cases hearliest : earliest? clock.due (clock.alarms s) with
    | none =>
      intro a ha
      have hmem : a ∈ clock.alarms s := ha
      rw [earliest?_eq_none hearliest] at hmem
      cases hmem
    | some r =>
      obtain ⟨a, others⟩ := r
      obtain ⟨front, back, hsplit, hothers, hfront, hback⟩ := earliest?_eq_some hearliest
      by_cases hdue : clock.due a ≤ target
      · simp only [if_pos hdue]
        apply ih
        -- One alarm goes and brings at most what it stood for besides itself, so the fuel lasts.
        have hless := h s a others
        rw [hothers, pending_append] at hless
        rw [hsplit, pending_append, pending_cons] at hfuel
        rw [hothers]
        omega
      · simp only [if_neg hdue]
        intro b hb
        rw [hsplit, List.mem_append, List.mem_cons] at hb
        rcases hb with hb | rfl | hb
        · have hlt := hfront b hb
          omega
        · omega
        · have hle := hback b hb
          omega

end AlarmClock

namespace Timeline

open AlarmClock (one_le_weight pending_append)

/-- Only the end of an attempt in time sets another alarm, and that one is followed by none. -/
theorem pending_onTimer (a : Advisor) (t : Timer) (advisor : Nat) (tag : String) (time : Nat) :
    alarmClock.pending (((a.onTimer t).2.filterMap (Dispatcher.demand? advisor tag)).filterMap
      (alarmOf? time)) < t.weight := by
  have hclear (resetRepeat : Bool) :
      ((a.clear resetRepeat).2.filterMap (Dispatcher.demand? advisor tag)).filterMap
        (alarmOf? time) = [] := by
    cases resetRepeat <;> cases hp : a.phase <;>
      simp [Advisor.clear, hp, Dispatcher.demand?, alarmOf?]
  have hone := one_le_weight t
  rcases a.onTimer_cases t with hstale | ⟨-, hs, hexpire⟩
  · rw [hstale]
    exact hone
  · rw [hexpire]
    cases hkind : t.kind with
    | connectingTimeout =>
      have hweight : t.weight = 2 := by rw [Timer.weight, if_pos hkind]
      rw [hkind] at hs
      obtain ⟨held, hp⟩ := Advisor.phase_of_status hs
      rw [hweight, Advisor.expire, Advisor.onFailure, hp]
      exact Nat.lt_succ_self 1
    | connectedShown =>
      rw [Advisor.expire, hclear true]
      exact hone
    | failedShown =>
      rw [Advisor.expire, hclear false]
      exact hone

theorem pending_dispatch (t : Timeline) (advisor : Nat) (timer : Timer) :
    alarmClock.pending (t.dispatch (.timer advisor timer)).2.alarms <
      alarmClock.pending t.alarms + timer.weight := by
  have halarms := (t.dispatch_meets (.timer advisor timer)).2.alarms
  rw [Dispatcher.dispatch_timer] at halarms
  rw [halarms, pending_append]
  apply Nat.add_lt_add_left
  cases t.dispatcher.advisors[advisor]? with
  | none => exact one_le_weight timer
  | some a => exact pending_onTimer a timer advisor a.identity.tag t.elapsed

theorem alarmClock_wanes : alarmClock.Wanes := fun t a others =>
  pending_dispatch { t with alarms := others, elapsed := max t.elapsed a.due } a.advisor a.timer

theorem fire_elapsed {target : Nat} (fuel : Nat) {t : Timeline} (h : t.elapsed ≤ target) :
    (alarmClock.fire target fuel t).elapsed ≤ target := by
  induction fuel generalizing t with
  | zero => exact h
  | succ fuel ih =>
    rw [AlarmClock.fire]
    cases hearliest : AlarmClock.earliest? alarmClock.due (alarmClock.alarms t) with
    | none => exact h
    | some r =>
      obtain ⟨a, others⟩ := r
      by_cases hdue : alarmClock.due a ≤ target
      · simp only [if_pos hdue]
        apply ih
        let due : Timeline := { t with alarms := others, elapsed := max t.elapsed a.due }
        have helapsed : (alarmClock.ring t a others).elapsed = max t.elapsed a.due :=
          (dispatch_meets due (.timer a.advisor a.timer)).2.elapsed
        rw [helapsed]
        exact Nat.max_le.mpr ⟨h, hdue⟩
      · simp only [if_neg hdue]
        exact h

end Timeline

end WifiAdvisor
