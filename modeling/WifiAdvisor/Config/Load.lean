import WifiAdvisor.Config.Location
import WifiAdvisor.Config.Toml
import WifiAdvisor.FileTree
/-!
Loading the configuration of a host. A file that was asked for has to be there; the default one may
be missing, and then every setting has its default.
-/

namespace WifiAdvisor

open Document

inductive LoadFailure where
  | unreadable (path : String)
  | invalid (path : String) (why : DecodeError)
  deriving DecidableEq, Inhabited, Repr

def LoadFailure.message : LoadFailure → String
  | .unreadable path => "failed to read config file " ++ path
  | .invalid path _ => "invalid config file " ++ path

namespace Config

def ofFile (path text : String) : Except LoadFailure Config :=
  match ofToml text with
  | .ok c => .ok c
  | .error why => .error (.invalid path why)

def load (files : FileTree) (env : Environment) (chosen : Option String) :
    Except LoadFailure Config :=
  match chosen <|> env.configPath? with
  | none => .ok {}
  | some path =>
    match files.readText path with
    | .ok (some text) => ofFile path text
    | .ok none => .error (.unreadable path)
    | .error why => if why = .missing && chosen.isNone then .ok {} else .error (.unreadable path)

end Config

end WifiAdvisor
