import WifiAdvisor.Event
import WifiAdvisor.Forms.Basic
/-!
The written form of events: an object whose member `type` names the kind of event, with the fields
of that kind beside it. An event can also be written as an array of the kind and the fields.
-/

namespace WifiAdvisor

open Document

namespace Timer

def members (t : Timer) : List (Name × Value) :=
  [("timer", Forms.name t.kind), ("generation", Forms.uint64 t.generation)]

def toValue (t : Timer) : Value := .object t.members

def schema : Schema Timer :=
  ((Schema.pure Timer.mk).field (.required "timer" Decoder.named)).field
    (.required "generation" Decoder.uint64)

def decode : Decoder Timer := schema.record "struct TimerFired"

end Timer

namespace ActionEvent

def members (e : ActionEvent) : List (Name × Value) :=
  [("tag", .string e.tag), ("action", Forms.name e.action)]

def toValue (e : ActionEvent) : Value := .object e.members

def schema : Schema ActionEvent :=
  ((Schema.pure ActionEvent.mk).field (.required "tag" Decoder.string)).field
    (.required "action" Decoder.named)

def decode : Decoder ActionEvent := schema.record "struct ActionEvent"

end ActionEvent

namespace Document.Schema

def map {α β : Type} (f : α → β) (s : Schema α) : Schema β where
  names := s.names
  check := s.check
  build source members := (s.build source members).map f
  take source what position rest :=
    (s.take source what position rest).map fun r => (f r.1, r.2)

end Document.Schema

namespace Event

def tag : Event → String
  | .scan _ => "scan_results"
  | .screen _ => "screen_state_changed"
  | .wifiConnected _ => "wifi_connected"
  | .connectionFailure => "connection_failure"
  | .sendFailed _ => "connection_send_failed"
  | .action _ => "action"
  | .settingChanged => "setting_changed"
  | .clear _ => "clear_pending"
  | .timer _ => "timer"
  | .restored _ => "blocklist_restored"

def members : Event → List (Name × Value)
  | .scan candidates => [("candidates", .list Candidate.toValue candidates)]
  | .screen on => [("on", .bool on)]
  | .wifiConnected ssid => [("ssid", .option .string ssid)]
  | .connectionFailure => []
  | .sendFailed reason => [("reason", Forms.int32 reason)]
  | .action e => e.members
  | .settingChanged => []
  | .clear resetRepeat => [("reset_repeat_time", .bool resetRepeat)]
  | .timer t => t.members
  | .restored ssids => [("ssids", .texts ssids)]

def toValue (e : Event) : Value := .object (("type", .string e.tag) :: e.members)

def toArray (e : Event) : Value := .array (.string e.tag :: e.members.map Prod.snd)

def tagged : Tagged Event where
  title := "NotifierEvent"
  variants := [
    ⟨"scan_results", "struct variant NotifierEvent::ScanResults",
      (Schema.pure Event.scan).field (.required "candidates" (Decoder.list Candidate.decode))⟩,
    ⟨"screen_state_changed", "struct variant NotifierEvent::ScreenStateChanged",
      (Schema.pure Event.screen).field (.required "on" Decoder.bool)⟩,
    ⟨"wifi_connected", "struct variant NotifierEvent::WifiConnected",
      (Schema.pure Event.wifiConnected).field (.nullable "ssid" Decoder.string)⟩,
    ⟨"connection_failure", "unit variant NotifierEvent::ConnectionFailure",
      Schema.pure Event.connectionFailure⟩,
    ⟨"connection_send_failed", "struct variant NotifierEvent::ConnectionSendFailed",
      (Schema.pure Event.sendFailed).field (.required "reason" Decoder.int32)⟩,
    ⟨"action", "struct ActionEvent", ActionEvent.schema.map Event.action⟩,
    ⟨"setting_changed", "unit variant NotifierEvent::SettingChanged",
      Schema.pure Event.settingChanged⟩,
    ⟨"clear_pending", "struct variant NotifierEvent::ClearPending",
      (Schema.pure Event.clear).field (.required "reset_repeat_time" Decoder.bool)⟩,
    ⟨"timer", "struct TimerFired", Timer.schema.map Event.timer⟩,
    ⟨"blocklist_restored", "struct variant NotifierEvent::BlocklistRestored",
      (Schema.pure Event.restored).field (.required "ssids" (Decoder.list Decoder.string))⟩]

def decode : Decoder Event := tagged.decode

end Event

end WifiAdvisor
