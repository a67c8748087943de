import WifiAdvisor.AlarmClock
import WifiAdvisor.Dispatcher
/-!
A dispatcher on virtual time. Time passes only when it is told to; every armed timer is handled at
the instant at which it falls due, timers due together in the order in which they were armed. No
wait, of a timer or of anything else, takes longer than thirty years.
-/

namespace WifiAdvisor

/-- An armed timer and the time at which it falls due, counted from the start. -/
structure Alarm where
  due : Nat
  advisor : Nat
  timer : Timer
  deriving DecidableEq, Inhabited, Repr

structure Timeline where
  origin : Millis
  elapsed : Nat := 0
  dispatcher : Dispatcher
  /-- Armed timers, in the order in which they were armed. -/
  alarms : List Alarm := []
  records : List Record := []
  saves : List (String × Blocklist) := []
  deriving DecidableEq, Inhabited

namespace Timeline

def now (t : Timeline) : Millis := Millis.clamp (t.origin.toNat + t.elapsed)

/-- Thirty years of 365 days, in milliseconds. -/
def longestWait : Nat := 946080000000

/-- How long a wait for `ms` milliseconds takes. -/
def wait (ms : Nat) : Nat := min ms longestWait

def meet (t : Timeline) : Demand → Timeline
  | .emit record => { t with records := t.records ++ [record] }
  | .save key ssids => { t with saves := t.saves ++ [(key, ssids)] }
  | .arm advisor delay timer =>
    { t with alarms := t.alarms ++ [{ due := t.elapsed + wait delay.toNat, advisor, timer }] }

/-- Handles an entry of the queue now; the flag says whether to go on after it. -/
def dispatch (t : Timeline) (q : Queued) : Bool × Timeline :=
  let (continues, dispatcher, demands) := t.dispatcher.dispatch t.now q
  (continues, demands.foldl meet { t with dispatcher })

/-- An alarm goes off at its time, or now if that has passed. -/
def alarmClock : AlarmClock Timeline Alarm Nat where
  alarms := alarms
  due := Alarm.due
  timer := Alarm.timer
  ring t a others :=
    ({ t with alarms := others, elapsed := max t.elapsed a.due }.dispatch
      (.timer a.advisor a.timer)).2

def advance (t : Timeline) (ms : Nat) : Timeline :=
  let target := t.elapsed + wait ms
  { alarmClock.fireAll target t with elapsed := target }

end Timeline

end WifiAdvisor
