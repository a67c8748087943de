import WifiAdvisor.Config
/-!
Where a host looks for its configuration and keeps its blocklists, unless it is told otherwise: in
the directories that the environment names, in those below the home directory if it names none, and
blocklists in a temporary directory of the user as a last resort.
-/

namespace WifiAdvisor

structure Environment where
  configHome : Option String := none
  dataHome : Option String := none
  home : Option String := none
  user : Option String := none
  /-- Path of the store, for command lines that give none. -/
  store : Option String := none
  deriving DecidableEq, Inhabited, Repr

/-- A path below a directory; an empty name stands for the working directory. -/
def joinPath (base path : String) : String :=
  if base.isEmpty || base.toList.getLast? = some '/' then base ++ path else base ++ "/" ++ path

namespace Environment

def configPath? (env : Environment) : Option String :=
  match env.configHome, env.home with
  | some dir, _ => some (joinPath dir "wifinotify/config.toml")
  | none, some dir => some (joinPath dir ".config/wifinotify/config.toml")
  | none, none => none

def storePath (env : Environment) : String :=
  match env.dataHome, env.home with
  | some dir, _ => joinPath dir "wifinotify/blocklist.db"
  | none, some dir => joinPath dir ".local/share/wifinotify/blocklist.db"
  | none, none => "/tmp/wifinotify-" ++ env.user.getD "unknown" ++ "/blocklist.db"

end Environment

/-- The path of the store: `chosen` if there is one, else the configured one, else the default. -/
def Config.resolveStorePath (c : Config) (env : Environment) (chosen : Option String) : String :=
  (chosen <|> c.storePath).getD env.storePath

end WifiAdvisor
