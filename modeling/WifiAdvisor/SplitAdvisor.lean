import WifiAdvisor.Advisor
/-!
The advisor with its state and its recommendation in fields of their own, which the handlers write
one after the other. Nothing in the record keeps the two in step, so a handler that needs a
recommendation looks whether there is one, and has a way out when there is none.
-/

namespace WifiAdvisor

structure SplitAdvisor where
  identity : Identity
  timing : Timing
  status : Status := .noNotification
  recommended : Option Candidate := none
  repeatAt : Millis := 0
  blocklist : Blocklist := ∅
  admission : Admission
  metrics : Metrics := {}
  generation : UInt64 := 0
  deriving DecidableEq, Inhabited

namespace SplitAdvisor

def withBlocklist (m : SplitAdvisor) (b : Blocklist) : SplitAdvisor :=
  { m with
    blocklist := b
    metrics := { m.metrics with blocklistSize := UInt64.ofNat b.size } }

def restore (m : SplitAdvisor) (ssids : List String) : SplitAdvisor :=
  m.withBlocklist (m.blocklist.merge ssids)

def persist (m : SplitAdvisor) : Effect := .save m.identity.storeKey m.blocklist

def block (m : SplitAdvisor) (ssid : String) : SplitAdvisor × List Effect :=
  let m := m.withBlocklist (m.blocklist.insert ssid)
  (m, [m.persist])

def unblock (m : SplitAdvisor) (ssid : String) : SplitAdvisor × List Effect :=
  if m.blocklist.contains ssid then
    let m := m.withBlocklist (m.blocklist.erase ssid)
    (m, [m.persist])
  else (m, [])

def posting (m : SplitAdvisor) (kind : NoticeKind) (network : Option Candidate) : Effect :=
  .post m.identity.slot (Notice.compose kind m.identity.tag network)

def count (m : SplitAdvisor) (kind : NoticeKind) : SplitAdvisor :=
  { m with metrics := m.metrics.recordNotification kind }

def tally (m : SplitAdvisor) (action : Action) : SplitAdvisor :=
  { m with metrics := m.metrics.recordAction action m.status }

def deferRepeat (m : SplitAdvisor) (now : Millis) : SplitAdvisor :=
  { m with repeatAt := Millis.after now m.timing.repeatDelay }

def armTimer (m : SplitAdvisor) (kind : TimerKind) : SplitAdvisor × List Effect :=
  let delay := match kind with
    | .connectingTimeout => m.timing.connectingTimeout
    | .connectedShown => m.timing.connectedDisplay
    | .failedShown => m.timing.failedDisplay
  let generation := m.generation + 1
  ({ m with generation }, [.arm delay { kind, generation }])

/-- From idle the recommendation is left alone, whatever it is. -/
def clear (m : SplitAdvisor) (resetRepeat : Bool) : SplitAdvisor × List Effect :=
  let m := if resetRepeat then { m with repeatAt := 0 } else m
  if m.status = .noNotification then (m, [])
  else ({ m with status := .noNotification, recommended := none }, [.cancel m.identity.slot])

def readSetting (m : SplitAdvisor) (s : Surroundings) : SplitAdvisor :=
  let enabled := s.setting m.identity.settingsKey
  { m with
    admission := { m.admission with settingEnabled := enabled }
    metrics := { m.metrics with settingEnabled := enabled } }

/-! ### Handlers -/

/-- What is compared is the recommendation alone, in every state. -/
def propose (m : SplitAdvisor) (s : Surroundings) (c : Candidate) : SplitAdvisor × List Effect :=
  if m.recommended.any (fun current => current.ssid = c.ssid) then (m, [])
  else
    let shown := m.posting .recommend (some c)
    let metrics :=
      if m.status = .noNotification then m.metrics.recordNotification .recommend
      else m.metrics.recordUpdate
    let m := { m with metrics, status := .recommending, recommended := some c }
    (m.deferRepeat s.now, [shown])

def onScan (m : SplitAdvisor) (s : Surroundings) (candidates : List Candidate) :
    SplitAdvisor × List Effect :=
  if !m.admission.isEnabled s.restrictions then m.clear true
  else if candidates.isEmpty ∧ m.status = .recommending then m.clear false
  else if m.status = .noNotification ∧ (s.now < m.repeatAt ∨ m.admission.screenOn = false) then
    (m, [])
  else if m.status = .noNotification ∨ m.status = .recommending then
    match Selection.recommend? candidates m.blocklist with
    | some c => m.propose s c
    | none => m.clear false
  else (m, [])

/-- Connecting with nothing recommended is treated like any other state. -/
def settle (m : SplitAdvisor) : SplitAdvisor × List Effect :=
  if m.status = .connecting then
    match m.recommended with
    | none => m.clear true
    | some held =>
      let shown := m.posting .connected (some held)
      let (m, armed) :=
        ({ m.count .connected with status := .connected }).armTimer .connectedShown
      (m, shown :: armed)
  else m.clear true

def onConnected (m : SplitAdvisor) (ssid : Option String) : SplitAdvisor × List Effect :=
  match ssid with
  | none => m.settle
  | some x =>
    let (m, saved) := m.unblock x
    let (m, calls) := m.settle
    (m, saved ++ calls)

/-- The notice says which network failed, if one is known. -/
def onFailure (m : SplitAdvisor) : SplitAdvisor × List Effect :=
  if m.status = .connecting then
    let shown := m.posting .failed m.recommended
    let (m, armed) := ({ m.count .failed with status := .failed }).armTimer .failedShown
    (m, shown :: armed)
  else (m, [])

def onSendFailed (m : SplitAdvisor) : SplitAdvisor × List Effect :=
  let (m, calls) := m.onFailure
  ({ m with metrics := m.metrics.recordSendFailure }, calls)

def request (m : SplitAdvisor) (s : Surroundings) (held : Candidate) (config : NetworkConfig) :
    SplitAdvisor × List Effect :=
  match s.addNetwork config with
  | .ok id =>
    let m := { m with metrics := m.metrics.setNominator id m.identity.nominator }
    let (m, saved) := m.block held.ssid
    (m, .add config ownerUid (.ok id) :: .connect id :: saved)
  | .error rejection => (m, [.add config ownerUid (.error rejection)])

def onConnect (m : SplitAdvisor) (s : Surroundings) : SplitAdvisor × List Effect :=
  let m := m.tally .connect
  if m.status = .recommending then
    match m.recommended with
    | none => (m, [])
    | some held =>
      let shown := m.posting .connecting (some held)
      let m := m.count .connecting
      match s.configure held with
      | none => (m, [shown])
      | some config =>
        let (m, added) := m.request s held config
        let (m, armed) := ({ m with status := .connecting }).armTimer .connectingTimeout
        (m, shown :: added ++ armed)
  else (m, [])

def onDismiss (m : SplitAdvisor) (s : Surroundings) : SplitAdvisor × List Effect :=
  let m := m.tally .dismiss
  let (m, saved) := match m.status, m.recommended with
    | .recommending, some held => m.block held.ssid
    | _, _ => (m, [])
  let (m, calls) := m.clear false
  (m.deferRepeat s.now, saved ++ calls)

def onPick (m : SplitAdvisor) (action : Action) : SplitAdvisor × List Effect :=
  let (m, calls) := (m.tally action).clear false
  (m, .openPicker :: calls)

def onAction (m : SplitAdvisor) (s : Surroundings) (e : ActionEvent) :
    SplitAdvisor × List Effect :=
  if e.tag = m.identity.tag then
    match e.action with
    | .dismiss => m.onDismiss s
    | .connect => m.onConnect s
    | .pick => m.onPick .pick
    | .pickAfterFailure => m.onPick .pickAfterFailure
  else (m, [])

def onTimer (m : SplitAdvisor) (t : Timer) : SplitAdvisor × List Effect :=
  if t.generation = m.generation then
    match t.kind with
    | .connectingTimeout => if m.status = .connecting then m.onFailure else (m, [])
    | .connectedShown => if m.status = .connected then m.clear true else (m, [])
    | .failedShown => if m.status = .failed then m.clear false else (m, [])
  else (m, [])

def step (s : Surroundings) (m : SplitAdvisor) : Event → SplitAdvisor × List Effect
  | .scan candidates => m.onScan s candidates
  | .screen on => ({ m with admission := { m.admission with screenOn := on } }, [])
  | .wifiConnected ssid => m.onConnected ssid
  | .connectionFailure => m.onFailure
  | .sendFailed _ => m.onSendFailed
  | .action e => m.onAction s e
  | .settingChanged => (m.readSetting s).clear true
  | .clear resetRepeat => m.clear resetRepeat
  | .timer t => m.onTimer t
  | .restored ssids => (m.restore ssids, [])

def start (s : Surroundings) (identity : Identity) (timing : Timing)
    (supportsAddRestriction : Bool) (loaded : Except StoreFailure Blocklist) :
    SplitAdvisor × List Effect :=
  let m : SplitAdvisor := { identity, timing, admission := { supportsAddRestriction } }
  let m := m.readSetting s
  let m := match loaded with
    | .ok set => m.restore set.toList
    | .error _ => m
  (m, [.load identity.storeKey])

end SplitAdvisor

end WifiAdvisor
