import WifiAdvisor.Forms.Basic
import WifiAdvisor.Notice
/-!
The written form of notifications.
-/

namespace WifiAdvisor.Notice

open Document

def toValue (n : Notice) : Value := .object [
  ("kind", Forms.name n.kind),
  ("tag", .string n.tag),
  ("title", .string n.title),
  ("ssid", .option .string n.ssid),
  ("actions", .list Forms.name n.actions),
  ("delete_action", .option Forms.name n.deleteAction)]

def schema : Schema Notice :=
  ((((((Schema.pure Notice.mk).field (.required "kind" Decoder.named)).field
    (.required "tag" Decoder.string)).field
    (.required "title" Decoder.string)).field
    (.nullable "ssid" Decoder.string)).field
    (.required "actions" (Decoder.list Decoder.named))).field
    (.nullable "delete_action" Decoder.named)

def decode : Decoder Notice := schema.record "struct Notification"

end WifiAdvisor.Notice
