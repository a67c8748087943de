import WifiAdvisor.Document.Json.Reader
import WifiAdvisor.Feed.Event
import WifiAdvisor.Forms.Basic
import WifiAdvisor.Text.Blank
/-!
Lines of a feed. A line holds one event, as an object with a member `type` or as an array that
begins with the kind; a blank line and a line that begins with `#` hold none.
-/

namespace WifiAdvisor.Feed

open Document

namespace Event

def tagged : Tagged Event where
  title := "FeedEvent"
  variants := [
    ⟨"scan_results", "struct variant FeedEvent::ScanResults",
      ((Schema.pure Event.scan).field tag).field
        (.required "candidates" (Decoder.list Candidate.decode))⟩,
    ⟨"screen", "struct variant FeedEvent::Screen",
      (Schema.pure Event.screen).field (.required "on" Decoder.bool)⟩,
    ⟨"wifi_connected", "struct variant FeedEvent::WifiConnected",
      (Schema.pure Event.wifiConnected).field
        (.defaulting "ssid" none Decoder.string.optional)⟩,
    ⟨"connection_failure", "unit variant FeedEvent::ConnectionFailure",
      Schema.pure Event.connectionFailure⟩,
    ⟨"connection_send_failed", "struct variant FeedEvent::ConnectionSendFailed",
      ((Schema.pure Event.sendFailed).field tag).field
        (.defaulting "reason" 0 Decoder.int32)⟩,
    ⟨"action", "struct variant FeedEvent::Action",
      ((Schema.pure Event.action).field tag).field (.required "action" Decoder.named)⟩,
    ⟨"setting", "struct variant FeedEvent::Setting",
      ((Schema.pure Event.setting).field (.required "key" Decoder.string)).field
        (.required "enabled" Decoder.bool)⟩,
    ⟨"clear", "struct variant FeedEvent::Clear",
      (Schema.pure Event.clear).field (.defaulting "reset_repeat_time" false Decoder.bool)⟩,
    ⟨"sleep", "struct variant FeedEvent::Sleep",
      (Schema.pure Event.sleep).field (.required "ms" Decoder.uint64)⟩,
    ⟨"dump", "unit variant FeedEvent::Dump", Schema.pure Event.dump⟩]
where
  tag : RecordField (Option String) := .defaulting "tag" none Decoder.string.optional

def decode : Decoder Event := tagged.decode

def toValue (e : Event) : Value :=
  match e with
  | .scan tag candidates =>
    form "scan_results"
      [("tag", .option .string tag), ("candidates", .list Candidate.toValue candidates)]
  | .screen on => form "screen" [("on", .bool on)]
  | .wifiConnected ssid => form "wifi_connected" [("ssid", .option .string ssid)]
  | .connectionFailure => form "connection_failure" []
  | .sendFailed tag reason =>
    form "connection_send_failed" [("tag", .option .string tag), ("reason", Forms.int32 reason)]
  | .action tag kind =>
    form "action" [("tag", .option .string tag), ("action", Forms.name kind)]
  | .setting key enabled => form "setting" [("key", .string key), ("enabled", .bool enabled)]
  | .clear resetRepeat => form "clear" [("reset_repeat_time", .bool resetRepeat)]
  | .sleep ms => form "sleep" [("ms", Forms.uint64 ms)]
  | .dump => form "dump" []
where
  form (kind : String) (members : List (Name × Value)) : Value :=
    .object (("type", .string kind) :: members)

end Event

def parseLine (line : String) : Except DecodeError (Option Event) :=
  match Text.trim line.toList with
  | [] => .ok none
  | '#' :: _ => .ok none
  | cs => (Json.decode Event.decode (String.ofList cs)).map some

end WifiAdvisor.Feed
