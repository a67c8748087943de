import WifiAdvisor.Advisor
import WifiAdvisor.Document.Json.Numeral
import WifiAdvisor.Forms.Basic
/-!
The written forms of metrics and of snapshots. Maps are objects; network ids serve as names in
decimal.
-/

namespace WifiAdvisor

open Document

namespace Forms

def map {κ α : Type} [Ord κ] (key : κ → String) (value : α → Value) (m : SortedMap κ α) : Value :=
  .object (m.entries.map fun e => (.plain (key e.1), value e.2))

/-- Reads a number that has to be followed by just `rest`. -/
def numeric (d : Decoder Int32) (source : Source) (rest : List Char) :
    List Char → Except DecodeError Int32
  | [] => unreadable .malformed
  | c :: cs =>
    if c = '-' || Json.Numeral.startsWithDigit [c] then do
      let (n, after) ← orUnreadable (Json.Numeral.read (c :: cs))
      let i ← d source (.number n)
      if after = rest then return i else unreadable .malformed
    else unreadable .malformed

/-- A name that is a number. In JSON text it is read as it is written, up to the closing quote. -/
def numericName (d : Decoder Int32) (source : Source) (k : Name) : Except DecodeError Int32 :=
  match source with
  | .stream => numeric d source ['"'] k.head
  | _ => do
    let s ← orUnreadable k.text
    numeric d source [] s.toList

end Forms

namespace Metrics

def toValue (m : Metrics) : Value := .object [
  ("notifications", Forms.map Named.name Forms.uint64 m.notifications),
  ("actions", Forms.map Named.name (Forms.map Named.name Forms.uint64) m.actions),
  ("recommendation_updates", Forms.uint64 m.recommendationUpdates),
  ("blocklist_size", Forms.uint64 m.blocklistSize),
  ("connect_send_failures", Forms.uint64 m.connectSendFailures),
  ("setting_enabled", .bool m.settingEnabled),
  ("nominators", Forms.map (fun id => toString id.toInt) Forms.int32 m.nominators)]

def byName {κ α : Type} [Ord κ] [Std.TransOrd κ] [Std.LawfulEqOrd κ] [Named κ] (d : Decoder α) :
    Decoder (SortedMap κ α) :=
  Decoder.map (fun source k => do Decoder.ofName (← Decoder.nameText source k)) d

def schema : Schema Metrics :=
  (((((((Schema.pure Metrics.mk).field (.required "notifications" (byName Decoder.uint64))).field
    (.required "actions" (byName (byName Decoder.uint64)))).field
    (.required "recommendation_updates" Decoder.uint64)).field
    (.required "blocklist_size" Decoder.size)).field
    (.required "connect_send_failures" Decoder.uint64)).field
    (.required "setting_enabled" Decoder.bool)).field
    (.required "nominators"
      (Decoder.map (Forms.numericName Decoder.int32) Decoder.int32))

def decode : Decoder Metrics := schema.record "struct NotifierMetrics"

end Metrics

def Dump.toValue (d : Dump) : Value := .object [
  ("tag", .string d.tag),
  ("setting_enabled", .bool d.settingEnabled),
  ("current_time_ms", Forms.uint64 d.currentTime),
  ("repeat_at_ms", Forms.uint64 d.repeatAt),
  ("state", Forms.name d.status),
  ("recommended_ssid", .option .string d.recommended),
  ("blocklist", .texts d.blocklist.toList),
  ("metrics", d.metrics.toValue)]

end WifiAdvisor
