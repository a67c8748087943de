import WifiAdvisor.Config
import WifiAdvisor.Forms.Basic
/-!
The written form of configurations. Every part of a document may be left out; what is left out has
its default.
-/

namespace WifiAdvisor

open Document

namespace RestrictionConfig

def toValue (r : RestrictionConfig) : Value := .object [
  ("current_user", Forms.uint32 r.currentUser),
  ("supports_add_config_restriction", .bool r.supportsAddRestriction),
  ("rules", .list Rule.toValue r.rules)]

def schema : Schema RestrictionConfig :=
  (((Schema.pure RestrictionConfig.mk).field (.defaulting "current_user" 0 Decoder.uint32)).field
    (.defaulting "supports_add_config_restriction" true Decoder.bool)).field
    (.defaulting "rules" [] (Decoder.list Rule.decode))

def decode : Decoder RestrictionConfig := schema.record "struct RestrictionConfig"

end RestrictionConfig

namespace Config

def members (c : Config) : List (Name × Value) := [
  ("settings", .object (c.settings.entries.map fun e => (.plain e.1, .bool e.2))),
  ("timing", c.timing.toValue),
  ("restrictions", c.restrictions.toValue),
  ("notifiers", .list Identity.toValue c.advisors)]

/-- A path that is not configured is left out. -/
def toValue (c : Config) : Value :=
  match c.storePath with
  | some path => .object (("store_path", .string path) :: c.members)
  | none => .object c.members

def schema : Schema Config :=
  (((((Schema.pure Config.mk).field
    (.defaulting "store_path" none Decoder.path.optional)).field
    (.defaulting "settings" ∅ (Decoder.map Decoder.nameText Decoder.bool))).field
    (.defaulting "timing" {} Timing.decode)).field
    (.defaulting "restrictions" {} RestrictionConfig.decode)).field
    (.defaulting "notifiers" [.openNetworks] (Decoder.list Identity.decode))

def decode : Decoder Config := schema.record "struct RuntimeConfig"

end Config

end WifiAdvisor
