import WifiAdvisor.Advisor
import WifiAdvisor.AlarmClock
import WifiAdvisor.Store.Memory
/-!
One advisor in surroundings that are scripted: the clock, the toggles, the restrictions, the answers
of the network store and the health of the blocklist store are all set from outside, and every call
is written down. Alarms go off only when time is told to pass.
-/

namespace WifiAdvisor

structure Rehearsal where
  identity : Identity
  timing : Timing
  supportsAddRestriction : Bool
  clock : Millis
  /-- Toggles; those not listed are on. -/
  settings : SortedMap String Bool
  restrictions : Restrictions
  store : Store.Memory
  storeFails : Bool
  /-- Why additions are refused, while they are. -/
  refusal : Option String
  nextNetwork : NetworkId
  alarms : List (Millis × Timer) := []
  advisor : Advisor
  /-- Calls since the log was last read. -/
  calls : List Effect := []

namespace Rehearsal

def surroundings (r : Rehearsal) : Surroundings where
  now := r.clock
  setting key := r.settings.findD key true
  restrictions := r.restrictions
  addNetwork config :=
    match r.refusal with
    | some reason => .error { ssid := config.ssid, reason }
    | none => .ok r.nextNetwork

/-- Writes a call down and does what it asks for. -/
def perform (r : Rehearsal) (call : Effect) : Rehearsal :=
  let r := { r with calls := r.calls ++ [call] }
  match call with
  | .save key ssids => if r.storeFails then r else { r with store := r.store.save key ssids }
  | .add _ _ (.ok _) => { r with nextNetwork := r.nextNetwork + 1 }
  | .arm delay timer => { r with alarms := r.alarms ++ [(Millis.after r.clock delay, timer)] }
  | _ => r

def handle (r : Rehearsal) (event : Event) : Rehearsal :=
  let (advisor, calls) := r.advisor.step r.surroundings event
  calls.foldl perform { r with advisor }

/-- Replaces the advisor by a new one; alarms armed before are lost. -/
def restart (r : Rehearsal) : Rehearsal :=
  let loaded := if r.storeFails then .error (.io "out of order") else
    .ok (r.store.load r.identity.storeKey)
  let (advisor, calls) :=
    Advisor.start r.surroundings r.identity r.timing r.supportsAddRestriction loaded
  calls.foldl perform { r with advisor, alarms := [] }

/-- An alarm goes off at its instant, even if the clock is past it. -/
def alarmClock : AlarmClock Rehearsal (Millis × Timer) Millis where
  alarms := alarms
  due := Prod.fst
  timer := Prod.snd
  ring r a others := { r with alarms := others, clock := a.1 }.handle (.timer a.2)

/-- The alarms left over are put in the order in which they will fall due. -/
def advance (r : Rehearsal) (ms : Millis) : Rehearsal :=
  let target := Millis.after r.clock ms
  let fired := alarmClock.fireAll target r
  { fired with
    clock := target
    alarms := fired.alarms.mergeSort fun a b => a.1 ≤ b.1 }

def report (r : Rehearsal) : List Effect × Rehearsal := (r.calls, { r with calls := [] })

end Rehearsal

end WifiAdvisor
