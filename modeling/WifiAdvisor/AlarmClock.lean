import WifiAdvisor.Event
/-!
Alarms that wait in a state until they are due. Those due by some instant go off one at a time, the
earliest first and of several due together the one that was set first; each may set another.
-/

namespace WifiAdvisor

/-- How many alarms a timer stands for: a connecting timeout may be followed by one more. -/
def Timer.weight (t : Timer) : Nat := if t.kind = .connectingTimeout then 2 else 1

/-- How states `σ` keep alarms `α` that are due at instants `δ`. -/
structure AlarmClock (σ α δ : Type) where
  alarms : σ → List α
  due : α → δ
  timer : α → Timer
  /-- Lets one alarm go off and the others wait. -/
  ring : σ → α → List α → σ

namespace AlarmClock

variable {σ α δ : Type} [LT δ] [DecidableLT δ] [LE δ] [DecidableLE δ]

/-- The alarm that falls due first, of several the one set first, with the others. -/
def earliest? (due : α → δ) : List α → Option (α × List α)
  | [] => none
  | a :: rest =>
    match earliest? due rest with
    | none => some (a, [])
    | some (b, others) => if due b < due a then some (b, a :: others) else some (a, rest)

def pending (clock : AlarmClock σ α δ) (alarms : List α) : Nat :=
  alarms.foldr (fun a n => (clock.timer a).weight + n) 0

/-- Lets the alarms go off that fall due by `target`, at most `fuel` of them. -/
def fire (clock : AlarmClock σ α δ) (target : δ) : Nat → σ → σ
  | 0, s => s
  | fuel + 1, s =>
    match earliest? clock.due (clock.alarms s) with
    | none => s
    | some (a, others) =>
      if clock.due a ≤ target then clock.fire target fuel (clock.ring s a others) else s

def fireAll (clock : AlarmClock σ α δ) (target : δ) (s : σ) : σ :=
  clock.fire target (clock.pending (clock.alarms s)) s

end AlarmClock

end WifiAdvisor
