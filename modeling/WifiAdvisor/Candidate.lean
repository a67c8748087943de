import WifiAdvisor.Named
/-!
Scanned networks, and the connectable configurations that can be made from them. A network is
connectable from its scan record alone when it has a name and its capability flags, read without
regard to the case of ASCII letters, ask for neither enterprise credentials nor a WEP key; of the
security types that its flags mention the strongest counts.
-/

namespace WifiAdvisor

structure Candidate where
  ssid : String
  rssi : Int32
  bssid : String
  /-- Raw capability flags, such as `[WPA2-PSK-CCMP][ESS]`. -/
  capabilities : String
  frequencyMhz : UInt32
  deriving DecidableEq, Inhabited, Repr

def Candidate.ofSignal (ssid : String) (rssi : Int32) : Candidate :=
  { ssid, rssi, bssid := "", capabilities := "[ESS]", frequencyMhz := 2437 }

inductive Security where
  | «open»
  | owe
  | psk
  | sae
  deriving DecidableEq, Inhabited, Repr

instance : Named Security where
  all := [.open, .owe, .psk, .sae]
  name
    | .open => "open"
    | .owe => "owe"
    | .psk => "psk"
    | .sae => "sae"
  find_name a := by cases a <;> decide

namespace Security

def mentions (word : List Char) : List Char → Bool
  | [] => word.isEmpty
  | c :: rest => word.isPrefixOf (c :: rest) || mentions word rest

/-- The strongest type that upper-case flags mention; none when they rule a connection out. -/
def ofFlags? (flags : List Char) : Option Security :=
  if mentions ['E', 'A', 'P'] flags || mentions ['W', 'E', 'P'] flags then none
  else if mentions ['S', 'A', 'E'] flags then some .sae
  else if mentions ['P', 'S', 'K'] flags then some .psk
  else if mentions ['O', 'W', 'E'] flags then some .owe
  else some .open

def ofCapabilities? (capabilities : String) : Option Security :=
  ofFlags? (capabilities.toList.map Char.toUpper)

end Security

structure NetworkConfig where
  ssid : String
  security : Security
  deriving DecidableEq, Inhabited, Repr

def NetworkConfig.ofCandidate? (c : Candidate) : Option NetworkConfig :=
  if c.ssid.isEmpty then none
  else (Security.ofCapabilities? c.capabilities).map fun security => { ssid := c.ssid, security }

abbrev NetworkId := Int32

/-- The user id that owns every network added on behalf of the user. -/
def ownerUid : UInt32 := 1010

end WifiAdvisor
