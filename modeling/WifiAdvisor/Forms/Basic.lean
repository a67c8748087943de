import WifiAdvisor.Document.Schema
import WifiAdvisor.Identity
import WifiAdvisor.Admission
import WifiAdvisor.Candidate
/-!
The written forms of small types: what each is written as, and how it is read back.
-/

namespace WifiAdvisor

open Document

namespace Forms

def name {α : Type} [Named α] (a : α) : Value := .string (Named.name a)

def int32 (i : Int32) : Value := .int i.toInt

def uint32 (n : UInt32) : Value := .nat n.toNat

def uint64 (n : UInt64) : Value := .nat n.toNat

end Forms

namespace Candidate

def toValue (c : Candidate) : Value := .object [
  ("ssid", .string c.ssid),
  ("rssi", Forms.int32 c.rssi),
  ("bssid", .string c.bssid),
  ("capabilities", .string c.capabilities),
  ("frequency_mhz", Forms.uint32 c.frequencyMhz)]

def schema : Schema Candidate :=
  (((((Schema.pure Candidate.mk).field (.required "ssid" Decoder.string)).field
    (.required "rssi" Decoder.int32)).field
    (.defaulting "bssid" "" Decoder.string)).field
    (.defaulting "capabilities" "" Decoder.string)).field
    (.defaulting "frequency_mhz" 0 Decoder.uint32)

def decode : Decoder Candidate := schema.record "struct ScanCandidate"

end Candidate

namespace NetworkConfig

def toValue (c : NetworkConfig) : Value := .object [
  ("ssid", .string c.ssid),
  ("security", Forms.name c.security)]

def schema : Schema NetworkConfig :=
  ((Schema.pure NetworkConfig.mk).field (.required "ssid" Decoder.string)).field
    (.required "security" Decoder.named)

def decode : Decoder NetworkConfig := schema.record "struct NetworkConfig"

end NetworkConfig

namespace Identity

def toValue (i : Identity) : Value := .object [
  ("tag", .string i.tag),
  ("store_key", .string i.storeKey),
  ("settings_key", .string i.settingsKey),
  ("notification_id", Forms.int32 i.slot),
  ("nominator_id", Forms.int32 i.nominator)]

def schema : Schema Identity :=
  (((((Schema.pure Identity.mk).field (.required "tag" Decoder.string)).field
    (.required "store_key" Decoder.string)).field
    (.required "settings_key" Decoder.string)).field
    (.required "notification_id" Decoder.int32)).field
    (.required "nominator_id" Decoder.int32)

def decode : Decoder Identity := schema.record "struct NotifierIdentity"

end Identity

namespace Timing

def toValue (t : Timing) : Value := .object [
  ("repeat_delay_secs", Forms.uint64 t.repeatDelaySecs),
  ("connecting_timeout_ms", Forms.uint64 t.connectingTimeout),
  ("connected_display_ms", Forms.uint64 t.connectedDisplay),
  ("failed_display_ms", Forms.uint64 t.failedDisplay)]

def schema : Schema Timing :=
  ((((Schema.pure Timing.mk).field (.defaulting "repeat_delay_secs" 900 Decoder.uint64)).field
    (.defaulting "connecting_timeout_ms" 10000 Decoder.uint64)).field
    (.defaulting "connected_display_ms" 5000 Decoder.uint64)).field
    (.defaulting "failed_display_ms" 5000 Decoder.uint64)

def decode : Decoder Timing := schema.record "struct NotifierConfig"

end Timing

namespace Rule

def toValue (r : Rule) : Value := .object [
  ("user", Forms.uint32 r.user),
  ("restriction", Forms.name r.restriction)]

def schema : Schema Rule :=
  ((Schema.pure Rule.mk).field (.required "user" Decoder.uint32)).field
    (.required "restriction" Decoder.named)

def decode : Decoder Rule := schema.record "struct RestrictionRule"

end Rule

end WifiAdvisor
