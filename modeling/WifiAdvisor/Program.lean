import WifiAdvisor.CommandLine.Invocation
import WifiAdvisor.Config.Load
import WifiAdvisor.Document.Json.Printer
import WifiAdvisor.Feed.Run
import WifiAdvisor.Store.Database
/-!
The program as a function: from the files, the environment, the command line and the standard input
to what is written, the exit code and the files afterwards. A run takes place on virtual time.
-/

namespace WifiAdvisor

open Document

structure World where
  environment : Environment
  now : Millis
  input : List UInt8
  files : FileTree

structure Outcome where
  code : Nat
  output : String
  error : Option String := none
  files : FileTree

inductive Failure where
  | config (why : LoadFailure)
  | start (why : StartFailure)
  | store (path : String) (why : StoreFailure)
  | refused (why : StoreFailure)
  | feed (path : String)
  | range (why : Toml.OutOfRange)

def Failure.message : Failure → String
  | .config why => why.message
  | .start why => why.message
  | .store path _ => "failed to open " ++ path
  | .refused why => why.message
  | .feed path => "failed to open event feed " ++ path
  | .range why => why.message

namespace Program

open CommandLine

def line (text : String) : String := text ++ "\n"

/-- The bytes of a feed. A file that cannot be read as text counts as empty. -/
def feedBytes (w : World) : Option String → Except Failure (List UInt8)
  | none => .ok w.input
  | some path =>
    match w.files.readText path with
    | .ok content => .ok (content.getD "").toUTF8.toList
    | .error _ => .error (.feed path)

def saveAll (now : Millis) (rows : Store.Rows) (saves : List (String × Blocklist)) : Store.Rows :=
  saves.foldl (fun rows (key, ssids) => (rows.replaceSet now key ssids).toOption.getD rows) rows

/-- Runs the advisors; without any of them no store is opened. -/
def run (w : World) (config : Config) (storePath : String) (events : Option String)
    (linger : UInt64) : FileTree × Except Failure String :=
  let (files, opened) :=
    if config.advisors.isEmpty then (w.files, .ok .temporary) else w.files.openDatabase storePath
  let load (identity : Identity) := opened.map fun d => d.rows.loadSet identity.storeKey
  match opened, Dispatcher.start config w.now load StoreFailure.message with
  | _, .error why => (files, .error (.start why))
  | .error why, _ => (files, .error (.store storePath why))
  | .ok database, .ok dispatcher =>
    match feedBytes { w with files } events with
    | .error e => (files, .error e)
    | .ok bytes =>
      let t := Feed.run none linger.toNat { origin := w.now, dispatcher } (Feed.lines bytes)
      let rows := saveAll w.now database.rows t.saves
      let output := t.records.map fun record => line (Json.print record.toValue)
      (files.keep ((database.write rows).toOption.getD database), .ok (String.join output))

def withStore (files : FileTree) (storePath : String)
    (act : Database → Except StoreFailure (String × Database)) : FileTree × Except Failure String :=
  let (files, opened) := files.openDatabase storePath
  match opened with
  | .error why => (files, .error (.store storePath why))
  | .ok database =>
    match act database with
    | .error why => (files, .error (.refused why))
    | .ok (output, database) => (files.keep database, .ok output)

def listing (key : Option String) (rows : Store.Rows) : String :=
  let keys := match key with
    | some key => [key]
    | none => rows.keys
  String.join ((rows.listing keys).map fun (key, ssid) => line (key ++ "\t" ++ ssid))

def command (w : World) (config : Config) (storePath : String) :
    Command → FileTree × Except Failure String
  | .run events linger => run w config storePath events linger
  | .list key => withStore w.files storePath fun d => .ok (listing key d.rows, d)
  | .remove key ssid => withStore w.files storePath fun d => do
    let (found, rows) := d.rows.removeMember key ssid
    let quoted := Text.Quoted.encode ssid
    let report := if found then "removed " ++ quoted ++ " from " ++ key
      else quoted ++ " is not in " ++ key
    return (line report, ← d.write rows)
  | .clear key => withStore w.files storePath fun d => do
    let (count, rows) := d.rows.clearSet key
    return (line ("cleared " ++ toString count ++ " entries from " ++ key), ← d.write rows)
  | .config =>
    match config.toToml with
    | .ok text => (w.files, .ok text)
    | .error why => (w.files, .error (.range why))

def invoke (w : World) (i : Invocation) : FileTree × Except Failure String :=
  match Config.load w.files w.environment i.config with
  | .error why => (w.files, .error (.config why))
  | .ok config => command w config (config.resolveStorePath w.environment i.storePath) i.command

/-- One run of the program. Failures exit with 1, a wrong command line with 2. -/
def execute (w : World) (arguments : List String) : Outcome :=
  match Invocation.ofArguments w.environment.store arguments with
  | .error e => { code := e.exitCode, output := "", files := w.files }
  | .ok i =>
    match invoke w i with
    | (files, .ok output) => { code := 0, output, files }
    | (files, .error e) =>
      { code := 1, output := "", error := some ("Error: " ++ e.message), files }

end Program

end WifiAdvisor
