import WifiAdvisor.Document.Toml.Printer
import WifiAdvisor.Document.Toml.Reader
import WifiAdvisor.Forms.Config
/-!
Configurations as TOML text.
-/

namespace WifiAdvisor.Config

open Document

def ofToml (text : String) : Except DecodeError Config :=
  match Toml.parse? text with
  | some v => decode .toml v
  | none => unreadable .malformed

/-- The only configurations without a text are those with a time that TOML has no room for. -/
def toToml (c : Config) : Except Toml.OutOfRange String := Toml.print c.toValue

end WifiAdvisor.Config
