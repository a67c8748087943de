import WifiAdvisor.Time
/-!
What tells one advisor from another, and its timing.
-/

namespace WifiAdvisor

structure Identity where
  /-- Addresses actions to this advisor. -/
  tag : String
  /-- Name of the stored set that holds its blocklist. -/
  storeKey : String
  settingsKey : String
  slot : Int32
  /-- Nominator to whom the networks it adds are attributed. -/
  nominator : Int32
  deriving DecidableEq, Inhabited, Repr

namespace Identity

def openNetworks : Identity where
  tag := "WifiOpenNetworkNotifier"
  storeKey := "OpenNetworkNotifierBlacklist"
  settingsKey := "wifi_networks_available_notification_on"
  slot := 17
  nominator := 9

def carrierNetworks : Identity where
  tag := "WifiCarrierNetworkNotifier"
  storeKey := "CarrierNetworkNotifierBlacklist"
  settingsKey := "wifi_carrier_networks_available_notification_on"
  slot := 18
  nominator := 5

end Identity

structure Timing where
  /-- Least time between fresh recommendations from the idle state. -/
  repeatDelaySecs : UInt64 := 900
  /-- How long connecting may last before it counts as failed. -/
  connectingTimeout : Millis := 10000
  connectedDisplay : Millis := 5000
  failedDisplay : Millis := 5000
  deriving DecidableEq, Inhabited, Repr

def Timing.repeatDelay (t : Timing) : Millis := Millis.ofSeconds t.repeatDelaySecs

end WifiAdvisor
