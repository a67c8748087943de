import WifiAdvisor.Action
import WifiAdvisor.Candidate
/-!
Events of a feed: one stream for any number of advisors, some addressed by tag. Without a tag a scan
is for every advisor, a send failure for those that are connecting and an action for the first.
-/

namespace WifiAdvisor.Feed

inductive Event where
  | scan (tag : Option String) (candidates : List Candidate)
  | screen (on : Bool)
  | wifiConnected (ssid : Option String)
  | connectionFailure
  | sendFailed (tag : Option String) (reason : Int32)
  | action (tag : Option String) (action : Action)
  | setting (key : String) (enabled : Bool)
  | clear (resetRepeat : Bool)
  /-- Pauses the reader; armed timers keep running. -/
  | sleep (ms : UInt64)
  | dump
  deriving DecidableEq, Inhabited, Repr

end WifiAdvisor.Feed
