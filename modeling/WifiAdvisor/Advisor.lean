import WifiAdvisor.Admission
import WifiAdvisor.Blocklist
import WifiAdvisor.Event
import WifiAdvisor.Failure
import WifiAdvisor.Identity
import WifiAdvisor.Metrics
import WifiAdvisor.Selection
/-!
The advisor: one state machine per identity, which recommends an available network, follows the
connection that the user asks for and remembers what the user rejected. Handling an event is a
total function of the surroundings, the state and the event; it yields the next state and the
ordered list of calls to the outside.

From idle only an admitted scan with the screen on and the repeat delay over leads to a
recommendation; the connect action leads from there to connecting, and the outcome to connected or
failed, each of which a timer ends. There is no cancelling of timers: a timer that no longer
applies is recognised by its generation or by the state and ignored.
-/

namespace WifiAdvisor

/-- What an advisor can see of the outside while it handles one event. -/
structure Surroundings where
  now : Millis
  setting : String → Bool
  restrictions : Restrictions
  /-- Turns a scan record into something connectable, if it can. -/
  configure : Candidate → Option NetworkConfig := NetworkConfig.ofCandidate?
  /-- The answer of the network store to an addition. -/
  addNetwork : NetworkConfig → Except Rejection NetworkId

inductive Effect where
  | post (slot : Int32) (notice : Notice)
  | cancel (slot : Int32)
  | add (config : NetworkConfig) (owner : UInt32) (answer : Except Rejection NetworkId)
  | connect (id : NetworkId)
  | openPicker
  | arm (delay : Millis) (timer : Timer)
  | load (key : String)
  | save (key : String) (ssids : Blocklist)

structure Advisor where
  identity : Identity
  timing : Timing
  phase : Phase := .idle
  /-- Before this instant no fresh recommendation is posted from idle. -/
  repeatAt : Millis := 0
  blocklist : Blocklist := ∅
  admission : Admission
  metrics : Metrics := {}
  /-- Generation of the timer armed last. -/
  generation : UInt64 := 0
  deriving DecidableEq, Inhabited

structure Dump where
  tag : String
  settingEnabled : Bool
  currentTime : Millis
  repeatAt : Millis
  status : Status
  recommended : Option String
  blocklist : Blocklist
  metrics : Metrics
  deriving DecidableEq, Inhabited

namespace Advisor

def status (a : Advisor) : Status := a.phase.status

def held? (a : Advisor) : Option Candidate := a.phase.held?

def dump (a : Advisor) (now : Millis) : Dump where
  tag := a.identity.tag
  settingEnabled := a.admission.settingEnabled
  currentTime := now
  repeatAt := a.repeatAt
  status := a.status
  recommended := a.held?.map Candidate.ssid
  blocklist := a.blocklist
  metrics := a.metrics

/-! ### Steps from which the handlers are composed -/

/-- Replaces the blocklist and keeps the gauge in step. -/
def withBlocklist (a : Advisor) (b : Blocklist) : Advisor :=
  { a with
    blocklist := b
    metrics := { a.metrics with blocklistSize := UInt64.ofNat b.size } }

def restore (a : Advisor) (ssids : List String) : Advisor :=
  a.withBlocklist (a.blocklist.merge ssids)

def persist (a : Advisor) : Effect := .save a.identity.storeKey a.blocklist

/-- Blocks a network and saves the set, whether or not it grew. -/
def block (a : Advisor) (ssid : String) : Advisor × List Effect :=
  let a := a.withBlocklist (a.blocklist.insert ssid)
  (a, [a.persist])

/-- Unblocks a network; only a set that shrank is saved. -/
def unblock (a : Advisor) (ssid : String) : Advisor × List Effect :=
  if a.blocklist.contains ssid then
    let a := a.withBlocklist (a.blocklist.erase ssid)
    (a, [a.persist])
  else (a, [])

/-- The call that displays a notification about `network`. -/
def posting (a : Advisor) (kind : NoticeKind) (network : Candidate) : Effect :=
  .post a.identity.slot (Notice.compose kind a.identity.tag (some network))

def count (a : Advisor) (kind : NoticeKind) : Advisor :=
  { a with metrics := a.metrics.recordNotification kind }

def tally (a : Advisor) (action : Action) : Advisor :=
  { a with metrics := a.metrics.recordAction action a.status }

/-- The next fresh recommendation has to wait for the repeat delay from now on. -/
def deferRepeat (a : Advisor) (now : Millis) : Advisor :=
  { a with repeatAt := Millis.after now a.timing.repeatDelay }

def delayOf (a : Advisor) : TimerKind → Millis
  | .connectingTimeout => a.timing.connectingTimeout
  | .connectedShown => a.timing.connectedDisplay
  | .failedShown => a.timing.failedDisplay

/-- Arms a timer in a generation of its own. -/
def armTimer (a : Advisor) (kind : TimerKind) : Advisor × List Effect :=
  let generation := a.generation + 1
  ({ a with generation }, [.arm (a.delayOf kind) { kind, generation }])

/-- Takes whatever is displayed down and returns to idle; `resetRepeat` also lifts the repeat
delay. -/
def clear (a : Advisor) (resetRepeat : Bool) : Advisor × List Effect :=
  let a := if resetRepeat then { a with repeatAt := 0 } else a
  match a.phase with
  | .idle => (a, [])
  | _ => ({ a with phase := .idle }, [.cancel a.identity.slot])

def readSetting (a : Advisor) (s : Surroundings) : Advisor :=
  let enabled := s.setting a.identity.settingsKey
  { a with
    admission := { a.admission with settingEnabled := enabled }
    metrics := { a.metrics with settingEnabled := enabled } }

/-! ### Handlers -/

/-- Posts a recommendation unless its network is the one already held. -/
def propose (a : Advisor) (s : Surroundings) (c : Candidate) : Advisor × List Effect :=
  match a.phase with
  | .idle =>
    (({ a.count .recommend with phase := .recommending c }).deferRepeat s.now,
      [a.posting .recommend c])
  | .recommending held =>
    if held.ssid = c.ssid then (a, [])
    else
      (({ a with phase := .recommending c, metrics := a.metrics.recordUpdate }).deferRepeat s.now,
        [a.posting .recommend c])
  | _ => (a, [])

def onScan (a : Advisor) (s : Surroundings) (candidates : List Candidate) :
    Advisor × List Effect :=
  if !a.admission.isEnabled s.restrictions then a.clear true
  else
    match a.phase with
    | .idle =>
      if s.now < a.repeatAt || !a.admission.screenOn then (a, [])
      else
        match Selection.recommend? candidates a.blocklist with
        | some c => a.propose s c
        | none => a.clear false
    | .recommending _ =>
      match Selection.recommend? candidates a.blocklist with
      | some c => a.propose s c
      | none => a.clear false
    | _ => (a, [])

/-- The attempt failed; outside connecting this says nothing. -/
def onFailure (a : Advisor) : Advisor × List Effect :=
  match a.phase with
  | .connecting held =>
    let (b, armed) := ({ a.count .failed with phase := .failed held }).armTimer .failedShown
    (b, a.posting .failed held :: armed)
  | _ => (a, [])

def onSendFailed (a : Advisor) : Advisor × List Effect :=
  let (b, calls) := a.onFailure
  ({ b with metrics := b.metrics.recordSendFailure }, calls)

/-- A network that was connected to is no longer blocked; while connecting, any connection counts
as success. -/
def onConnected (a : Advisor) (ssid : Option String) : Advisor × List Effect :=
  let (a, saved) := match ssid with
    | some s => a.unblock s
    | none => (a, [])
  match a.phase with
  | .connecting held =>
    let (b, armed) :=
      ({ a.count .connected with phase := .connected held }).armTimer .connectedShown
    (b, saved ++ a.posting .connected held :: armed)
  | _ =>
    let (b, calls) := a.clear true
    (b, saved ++ calls)

/-- Adds the configured network; one that is accepted is attributed, connected to and blocked. -/
def request (a : Advisor) (s : Surroundings) (held : Candidate) (config : NetworkConfig) :
    Advisor × List Effect :=
  match s.addNetwork config with
  | .ok id =>
    let b := { a with metrics := a.metrics.setNominator id a.identity.nominator }
    let (b, saved) := b.block held.ssid
    (b, .add config ownerUid (.ok id) :: .connect id :: saved)
  | .error rejection => (a, [.add config ownerUid (.error rejection)])

/-- A rejected addition is left to the timeout; a record that cannot be configured ends the
attempt before it starts, with the notification already replaced. -/
def onConnect (a : Advisor) (s : Surroundings) : Advisor × List Effect :=
  let a := a.tally .connect
  match a.phase with
  | .recommending held =>
    let b := a.count .connecting
    let shown := a.posting .connecting held
    match s.configure held with
    | none => (b, [shown])
    | some config =>
      let (b, added) := b.request s held config
      let (b, armed) := ({ b with phase := .connecting held }).armTimer .connectingTimeout
      (b, shown :: added ++ armed)
  | _ => (a, [])

/-- Dismissing a recommendation blocks its network; dismissing anything restarts the repeat
delay. -/
def onDismiss (a : Advisor) (s : Surroundings) : Advisor × List Effect :=
  let a := a.tally .dismiss
  let (a, saved) := match a.phase with
    | .recommending held => a.block held.ssid
    | _ => (a, [])
  let (a, calls) := a.clear false
  (a.deferRepeat s.now, saved ++ calls)

def onPick (a : Advisor) (action : Action) : Advisor × List Effect :=
  let (a, calls) := (a.tally action).clear false
  (a, .openPicker :: calls)

/-- Actions addressed to another tag are ignored. -/
def onAction (a : Advisor) (s : Surroundings) (e : ActionEvent) : Advisor × List Effect :=
  if e.tag = a.identity.tag then
    match e.action with
    | .dismiss => a.onDismiss s
    | .connect => a.onConnect s
    | .pick => a.onPick .pick
    | .pickAfterFailure => a.onPick .pickAfterFailure
  else (a, [])

/-- Only a timer of the latest generation that finds the state it was armed for has an effect. -/
def onTimer (a : Advisor) (t : Timer) : Advisor × List Effect :=
  if t.generation = a.generation then
    match t.kind, a.phase with
    | .connectingTimeout, .connecting _ => a.onFailure
    | .connectedShown, .connected _ => a.clear true
    | .failedShown, .failed _ => a.clear false
    | _, _ => (a, [])
  else (a, [])

def step (s : Surroundings) (a : Advisor) : Event → Advisor × List Effect
  | .scan candidates => a.onScan s candidates
  | .screen on => ({ a with admission := { a.admission with screenOn := on } }, [])
  | .wifiConnected ssid => a.onConnected ssid
  | .connectionFailure => a.onFailure
  | .sendFailed _ => a.onSendFailed
  | .action e => a.onAction s e
  | .settingChanged => (a.readSetting s).clear true
  | .clear resetRepeat => a.clear resetRepeat
  | .timer t => a.onTimer t
  | .restored ssids => (a.restore ssids, [])

/-- A new advisor reads its toggle and loads its blocklist; a load that fails leaves the set
empty. -/
def start (s : Surroundings) (identity : Identity) (timing : Timing)
    (supportsAddRestriction : Bool) (loaded : Except StoreFailure Blocklist) :
    Advisor × List Effect :=
  let a : Advisor := { identity, timing, admission := { supportsAddRestriction } }
  let a := a.readSetting s
  let a := match loaded with
    | .ok set => a.restore set.toList
    | .error _ => a
  (a, [.load identity.storeKey])

end Advisor

end WifiAdvisor
