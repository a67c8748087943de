import WifiAdvisor.Feed.Line
import WifiAdvisor.Timeline
/-!
Running a feed. The reader goes through the lines in order, queues their events, pauses where a
line says so and skips what it cannot parse; after the last line it lingers and then asks for an
end. Alarms go off in the meantime. Nothing is handled after the end, nor after an interruption.
-/

namespace WifiAdvisor.Feed

/-- Splits bytes at line feeds; a carriage return before the line feed belongs to the line end. -/
def splitLines : List UInt8 → List UInt8 → List (List UInt8)
  | acc, [] => if acc.isEmpty then [] else [acc.reverse]
  | acc, b :: rest =>
    if b = 10 then
      let line := match acc with
        | 13 :: before => before
        | acc => acc
      line.reverse :: splitLines [] rest
    else splitLines (b :: acc) rest

/-- The lines up to the first that is not valid text. -/
def decodeLines : List (List UInt8) → List String
  | [] => []
  | l :: rest =>
    match String.fromUTF8? (ByteArray.mk l.toArray) with
    | some s => s :: decodeLines rest
    | none => []

def lines (bytes : List UInt8) : List String := decodeLines (splitLines [] bytes)

def events (lines : List String) : List Event :=
  lines.filterMap fun l =>
    match parseLine l with
    | .ok e => e
    | .error _ => none

/-- Lets time pass, but not beyond the interruption; tells whether it came to that. -/
def pause (interrupt : Option Nat) (t : Timeline) (ms : Nat) : Bool × Timeline :=
  match interrupt with
  | some i =>
    let i := Timeline.wait i
    if i ≤ t.elapsed + Timeline.wait ms then (true, t.advance (i - t.elapsed))
    else (false, t.advance ms)
  | none => (false, t.advance ms)

/-- Handles events, then lingers and shuts down. -/
def play (interrupt : Option Nat) (linger : Nat) (t : Timeline) : List Event → Timeline
  | [] =>
    let (interrupted, t) := pause interrupt t linger
    if interrupted then t else (t.dispatch .shutdown).2
  | .sleep ms :: rest =>
    let (interrupted, t) := pause interrupt t ms.toNat
    if interrupted then t else play interrupt linger t rest
  | e :: rest => play interrupt linger (t.dispatch (.feed e)).2 rest

/-- Runs a feed to its end. An interruption at the very start comes before the first line. -/
def run (interrupt : Option Nat) (linger : Nat) (t : Timeline) (lines : List String) : Timeline :=
  if interrupt = some 0 then t else play interrupt linger t (events lines)

end WifiAdvisor.Feed
