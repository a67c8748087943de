import WifiAdvisor.CommandLine.Grammar
/-!
What a command line asks this program to do.
-/

namespace WifiAdvisor.CommandLine

inductive Command where
  /-- Runs the advisors on a feed, from a file or from standard input, and lingers after its end. -/
  | run (events : Option String) (linger : UInt64)
  | list (key : Option String)
  | remove (key ssid : String)
  | clear (key : String)
  | config
  deriving DecidableEq, Inhabited, Repr

structure Invocation where
  config : Option String
  storePath : Option String
  command : Command
  deriving DecidableEq, Inhabited, Repr

def everywhere : List Opt := [
  { name := "config", short := some 'c', kind := .path },
  { name := "store-path", kind := .path }]

def keyOption (required : Bool) : Opt := { name := "key", required }

def blocklistGrammar : Grammar := .mk everywhere [] [
  ("list", .mk (keyOption false :: everywhere) [] []),
  ("remove", .mk (keyOption true :: everywhere) ["ssid"] []),
  ("clear", .mk (keyOption true :: everywhere) [] [])]

def grammar : Grammar := .mk everywhere [] [
  ("run", .mk
    ({ name := "events", kind := .path } :: { name := "linger-ms", kind := .number } :: everywhere)
    [] []),
  ("blocklist", blocklistGrammar),
  ("config", .mk everywhere [] [])]

/-- The value of an option that every command has: of those on the command line the innermost one
counts, and one from the environment only if there is no other. -/
def chosen? (name : String) (levels : List Reading) : Option String :=
  let all := levels.flatMap fun l => l.given.filter fun g => g.name = name
  let typed := all.filter fun g => !g.inherited
  ((typed.getLast?) <|> all.getLast?).map Given.value

namespace Command

def value? (name : String) (levels : List Reading) : Option String :=
  (levels.getLast?.bind fun l => l.given.find? fun g => g.name = name).map Given.value

def ofLevels? (levels : List Reading) : Option Command :=
  match levels.filterMap Reading.command with
  | ["run"] =>
    some (.run (value? "events" levels) (((value? "linger-ms" levels).bind number?).getD 0))
  | ["blocklist", "list"] => some (.list (value? "key" levels))
  | ["blocklist", "remove"] => do
    return .remove (← value? "key" levels) (← value? "ssid" levels)
  | ["blocklist", "clear"] => (value? "key" levels).map .clear
  | ["config"] => some .config
  | _ => none

end Command

/-- Reads a command line; `store` is the path of the store that the environment provides. -/
def Invocation.ofArguments (store : Option String) (arguments : List String) :
    Except UsageError Invocation := do
  let inherited := (store.map fun path => ("store-path", path)).toList
  let levels ← grammar.read inherited arguments
  match Command.ofLevels? levels with
  | some command =>
    return {
      config := chosen? "config" levels
      storePath := chosen? "store-path" levels
      command }
  | none => throw .missingCommand

end WifiAdvisor.CommandLine
