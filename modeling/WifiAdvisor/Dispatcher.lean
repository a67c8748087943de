import WifiAdvisor.Advisor
import WifiAdvisor.Config
import WifiAdvisor.Feed.Event
import WifiAdvisor.Record
/-!
Several advisors behind one queue. They share the toggles, the numbering of networks and the
output; each event of the queue becomes, for each advisor in turn, what that advisor is to see of
it.
-/

namespace WifiAdvisor

inductive Queued where
  | feed (event : Feed.Event)
  | timer (advisor : Nat) (fired : Timer)
  /-- The feed is over; nothing is handled after this. -/
  | shutdown
  deriving DecidableEq, Inhabited, Repr

/-- What handling an entry asks of the outside, in order. -/
inductive Demand where
  | emit (record : Record)
  | save (key : String) (ssids : Blocklist)
  | arm (advisor : Nat) (delay : Millis) (timer : Timer)

structure Dispatcher where
  advisors : List Advisor
  /-- Toggles; those never written are on. -/
  settings : SortedMap String Bool
  restrictions : Restrictions
  /-- The number of the next network to be added. -/
  nextNetwork : NetworkId
  deriving DecidableEq, Inhabited

/-- An advisor whose store could not be opened. -/
structure StartFailure where
  tag : String
  cause : String
  deriving DecidableEq, Inhabited, Repr

def StartFailure.message (e : StartFailure) : String :=
  "failed to open blocklist store for " ++ e.tag

namespace Dispatcher

/-- What the advisors see of a host that adds every network. -/
def surroundings (d : Dispatcher) (now : Millis) : Surroundings where
  now
  setting key := d.settings.findD key true
  restrictions := d.restrictions
  addNetwork _ := .ok d.nextNetwork

/-- What a call of the advisor at `index` asks of the outside. -/
def demand? (index : Nat) (tag : String) : Effect → Option Demand
  | .post slot notice => some (.emit (.notify slot notice))
  | .cancel slot => some (.emit (.cancel slot tag))
  | .add config owner (.ok id) => some (.emit (.networkAdded id config owner))
  | .add _ _ (.error _) => none
  | .connect id => some (.emit (.connect id))
  | .openPicker => some (.emit (.openPicker tag))
  | .arm delay timer => some (.arm index delay timer)
  | .load _ => none
  | .save key ssids => some (.save key ssids)

def additions (calls : List Effect) : Nat :=
  calls.countP fun
    | .add _ _ (.ok _) => true
    | _ => false

/-- Hands each advisor, in order, the event that `choose` picks for it; `index` is the position of
the first. -/
def deliverFrom (d : Dispatcher) (now : Millis) (choose : Nat → Advisor → Option Event) :
    Nat → List Advisor → NetworkId → List Advisor × NetworkId × List Demand
  | _, [], next => ([], next, [])
  | index, a :: rest, next =>
    match choose index a with
    | none =>
      let (rest, next, demands) := deliverFrom d now choose (index + 1) rest next
      (a :: rest, next, demands)
    | some event =>
      let (b, calls) := a.step ({ d with nextNetwork := next }.surroundings now) event
      let next := next + Int32.ofNat (additions calls)
      let (rest, next, demands) := deliverFrom d now choose (index + 1) rest next
      (b :: rest, next, calls.filterMap (demand? index a.identity.tag) ++ demands)

def deliver (d : Dispatcher) (now : Millis) (choose : Nat → Advisor → Option Event) :
    Dispatcher × List Demand :=
  let (advisors, nextNetwork, demands) := d.deliverFrom now choose 0 d.advisors d.nextNetwork
  ({ d with advisors, nextNetwork }, demands)

def indexOf? (d : Dispatcher) (tag : String) : Option Nat :=
  d.advisors.findIdx? fun a => a.identity.tag = tag

def addressee? (d : Dispatcher) (tag : Option String) : Option String :=
  tag <|> d.advisors.head?.map fun a => a.identity.tag

/-- What the advisor `a` at `index` is to see of a feed event. -/
def view (d : Dispatcher) : Feed.Event → Nat → Advisor → Option Event
  | .scan (some tag) candidates, index, _ =>
    if d.indexOf? tag = some index then some (.scan candidates) else none
  | .scan none candidates, _, _ => some (.scan candidates)
  | .screen on, _, _ => some (.screen on)
  | .wifiConnected ssid, _, _ => some (.wifiConnected ssid)
  | .connectionFailure, _, _ => some .connectionFailure
  | .sendFailed (some tag) reason, index, _ =>
    if d.indexOf? tag = some index then some (.sendFailed reason) else none
  | .sendFailed none reason, _, a =>
    if a.status = .connecting then some (.sendFailed reason) else none
  | .action tag kind, _, _ => (d.addressee? tag).map fun tag => .action { tag, action := kind }
  | .setting key _, _, a => if a.identity.settingsKey = key then some .settingChanged else none
  | .clear resetRepeat, _, _ => some (.clear resetRepeat)
  | .sleep _, _, _ => none
  | .dump, _, _ => none

def dumps (d : Dispatcher) (now : Millis) : List Dump := d.advisors.map (·.dump now)

/-- A toggle is written before the advisors that watch it hear of the change. -/
def onFeed (d : Dispatcher) (now : Millis) (e : Feed.Event) : Dispatcher × List Demand :=
  match e with
  | .setting key enabled =>
    { d with settings := d.settings.insert key enabled }.deliver now (d.view e)
  | .dump => (d, [.emit (.dump (d.dumps now))])
  | e => d.deliver now (d.view e)

/-- Handles one entry of the queue and says whether to go on. -/
def dispatch (d : Dispatcher) (now : Millis) : Queued → Bool × Dispatcher × List Demand
  | .feed e => (true, d.onFeed now e)
  | .timer index fired =>
    (true, d.deliver now fun i _ => if i = index then some (.timer fired) else none)
  | .shutdown => (false, d, [])

/-- One advisor for each configured identity, each with what its store holds. -/
def start {ε : Type} (config : Config) (now : Millis)
    (load : Identity → Except ε Blocklist) (describe : ε → String) :
    Except StartFailure Dispatcher := do
  let d : Dispatcher := {
    advisors := []
    settings := config.settings
    restrictions := config.restrictions.toRestrictions
    nextNetwork := 1 }
  let advisors ← config.advisors.mapM fun identity =>
    match load identity with
    | .ok set =>
      .ok (Advisor.start (d.surroundings now) identity config.timing
        config.restrictions.supportsAddRestriction (.ok set)).1
    | .error e => .error { tag := identity.tag, cause := describe e }
  return { d with advisors }

end Dispatcher

end WifiAdvisor
