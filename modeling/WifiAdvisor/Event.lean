import WifiAdvisor.Action
import WifiAdvisor.Candidate
/-!
Everything an advisor reacts to, as one ordered stream.
-/

namespace WifiAdvisor

inductive TimerKind where
  | connectingTimeout
  | connectedShown
  | failedShown
  deriving DecidableEq, Inhabited, Repr

instance : Named TimerKind where
  all := [.connectingTimeout, .connectedShown, .failedShown]
  name
    | .connectingTimeout => "connecting_timeout"
    | .connectedShown => "connected_shown"
    | .failedShown => "failed_shown"
  find_name a := by cases a <;> decide

structure Timer where
  kind : TimerKind
  generation : UInt64
  deriving DecidableEq, Inhabited, Repr

structure ActionEvent where
  tag : String
  action : Action
  deriving DecidableEq, Inhabited, Repr

inductive Event where
  | scan (candidates : List Candidate)
  | screen (on : Bool)
  /-- Wi-Fi connected, to any network and not only to the recommended one. -/
  | wifiConnected (ssid : Option String)
  | connectionFailure
  /-- The connection request could not be sent at all. -/
  | sendFailed (reason : Int32)
  | action (event : ActionEvent)
  | settingChanged
  | clear (resetRepeat : Bool)
  | timer (fired : Timer)
  /-- Names from a late load, to be merged into the blocklist. -/
  | restored (ssids : List String)
  deriving DecidableEq, Inhabited, Repr

end WifiAdvisor
