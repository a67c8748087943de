import Std.Time.DateTime.Timestamp
import WifiAdvisor.Program
import WifiAdvisor.Store.Archive
/-!
The command line program. It takes a picture of the files that matter, lets the program work on the
picture, and writes down what was printed and stored.
-/

namespace WifiAdvisor

def readNode? (p : Place) : IO (Option FileNode) := do
  try
    let bytes ← IO.FS.readBinFile p.path
    match String.fromUTF8? bytes with
    | some text =>
      match Store.Rows.ofText? text with
      | some rows => return some (.database rows)
      | none => return some (.text text)
    | none => return some (.database {})
  catch
    | .noFileOrDirectory _ _ _ => return none
    | _ => return some .directory

/-- Adds a path, and the directories on the way to it, to a picture. -/
def picture (files : FileTree) (path : String) : IO FileTree :=
  (files.placesAlong path).foldlM (fun files p => do
    match ← readNode? p with
    | some node => return files.put p node
    | none => return files) files

def readEnvironment : IO Environment := do
  return {
    configHome := ← IO.getEnv "XDG_CONFIG_HOME"
    dataHome := ← IO.getEnv "XDG_DATA_HOME"
    home := ← IO.getEnv "HOME"
    user := ← IO.getEnv "USER"
    store := ← IO.getEnv "WIFINOTIFY_STORE" }

/-- The store that an invocation uses, as far as the configuration can be read. -/
def storePath? (files : FileTree) (env : Environment) (i : CommandLine.Invocation) :
    Option String :=
  match Config.load files env i.config with
  | .ok c => some (c.resolveStorePath env i.storePath)
  | .error _ => none

def databasePaths (name : String) : List String :=
  match Store.Address.ofName? name with
  | some a => name :: a.path :: a.model.toList
  | none => [name]

def writeNode (p : Place) : FileNode → IO Unit
  | .directory => IO.FS.createDirAll p.path
  | .text content => IO.FS.writeFile p.path content
  | .database rows => IO.FS.writeFile p.path rows.toText

/-- Writes down what differs from a picture; directories come before what is in them. -/
def writeBack (before after : FileTree) : IO Unit :=
  after.nodes.entries.forM fun (p, node) =>
    if before.nodes.find? p = some node then return else writeNode p node

def feedPath : CommandLine.Command → Option String
  | .run events _ => events
  | _ => none

def readInput : CommandLine.Command → IO (List UInt8)
  | .run none _ => do return (← (← IO.getStdin).readBinToEnd).toList
  | _ => return []

def readClock : IO Millis := do
  let stamp ← Std.Time.Timestamp.now
  return Millis.clamp stamp.toMillisecondsSinceUnixEpoch.val.toNat

/-- Shown in place of an answer to a command line that cannot be read. -/
def usage : String :=
  "usage: [-c FILE] [--store-path FILE] run [--events FILE] [--linger-ms N]\n"
    ++ "       [-c FILE] [--store-path FILE] blocklist list [--key KEY]\n"
    ++ "       [-c FILE] [--store-path FILE] blocklist remove --key KEY SSID\n"
    ++ "       [-c FILE] [--store-path FILE] blocklist clear --key KEY\n"
    ++ "       [-c FILE] [--store-path FILE] config"

/-- Carries an invocation out in a picture of the world and writes the result down. -/
def carryOut (env : Environment) (arguments : List String) (i : CommandLine.Invocation) :
    IO Outcome := do
  let paths := (i.config <|> env.configPath?).toList ++ (feedPath i.command).toList
  let home := Path.names (toString (← IO.currentDir))
  let files ← paths.foldlM picture { home }
  let store := (storePath? files env i).toList
  let files ← (store.flatMap databasePaths).foldlM picture files
  let w : World := {
    environment := env, now := ← readClock, input := ← readInput i.command, files }
  let outcome := Program.execute w arguments
  writeBack files outcome.files
  return outcome

def start (arguments : List String) : IO UInt32 := do
  let env ← readEnvironment
  match CommandLine.Invocation.ofArguments env.store arguments with
  | .error e =>
    IO.eprintln usage
    return UInt32.ofNat e.exitCode
  | .ok i =>
    let outcome ← carryOut env arguments i
    IO.print outcome.output
    if let some error := outcome.error then IO.eprintln error
    return UInt32.ofNat outcome.code

end WifiAdvisor

def main (arguments : List String) : IO UInt32 := WifiAdvisor.start arguments
