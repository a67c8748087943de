/-!
Command lines in general: options with values, positional arguments and nested commands, described
by a grammar and read from left to right. An option may be given its value in the same argument or
in the next one; after a double dash every argument is positional. Each level of commands is read
to its end before the checks of the level above it.
-/

namespace WifiAdvisor.CommandLine

inductive UsageError where
  | help
  | helpInsteadOfCommand
  | missingCommand
  | unknownCommand
  | unknownArgument
  | needlessValue
  | badValue
  | unfitValue
  | givenTwice
  | missingArgument
  deriving DecidableEq, Inhabited, Repr

def UsageError.exitCode : UsageError → Nat
  | .help => 0
  | _ => 2

inductive ValueKind where
  | text
  | path
  | number
  deriving DecidableEq, Inhabited, Repr

structure Opt where
  name : String
  short : Option Char := none
  kind : ValueKind := .text
  required : Bool := false
  deriving DecidableEq, Inhabited, Repr

/-- A command: its options, its positional arguments, all of them required, and its commands. -/
inductive Grammar where
  | mk (options : List Opt) (positionals : List String) (commands : List (String × Grammar))
  deriving Inhabited

namespace Grammar

def options : Grammar → List Opt
  | .mk options _ _ => options

def positionals : Grammar → List String
  | .mk _ positionals _ => positionals

def commands : Grammar → List (String × Grammar)
  | .mk _ _ commands => commands

def command? (g : Grammar) (name : String) : Option Grammar :=
  (g.commands.find? fun c => c.1 = name).map Prod.snd

/-- A command with commands of its own also has one that explains them. -/
def explains (g : Grammar) (name : String) : Bool := !g.commands.isEmpty && name = "help"

end Grammar

def number? (text : String) : Option UInt64 :=
  let digits := match text.toList with
    | '+' :: rest => rest
    | cs => cs
  if digits.isEmpty || !digits.all Char.isDigit then none
  else
    let n := digits.foldl (fun n c => n * 10 + (c.toNat - '0'.toNat)) 0
    if n ≤ 18446744073709551615 then some (UInt64.ofNat n) else none

def ValueKind.check : ValueKind → String → Except UsageError Unit
  | .text, _ => .ok ()
  | .path, value => if value.isEmpty then .error .badValue else .ok ()
  | .number, value => if (number? value).isSome then .ok () else .error .unfitValue

/-- What was read last and is not yet settled. -/
inductive Pending where
  | nothing
  | awaiting (option : Opt)
  | valued (option : Opt) (value : String)
  deriving DecidableEq, Inhabited, Repr

structure Given where
  name : String
  value : String
  inherited : Bool := false
  deriving DecidableEq, Inhabited, Repr

structure Level where
  given : List Given := []
  pending : Pending := .nothing
  trailing : Bool := false
  free : List String
  deriving DecidableEq, Inhabited, Repr

/-- A command line by levels: what was given at each, and the command that leads to the next. -/
structure Reading where
  given : List Given
  command : Option String
  deriving DecidableEq, Inhabited, Repr

namespace Level

def has (l : Level) (name : String) : Bool := l.given.any fun g => g.name = name

/-- Records the value of an option, which can be given once. -/
def record (l : Level) (o : Opt) (value : String) : Except UsageError Level := do
  if l.has o.name then throw .givenTwice
  o.kind.check value
  return { l with given := l.given ++ [{ name := o.name, value }], pending := .nothing }

def settle (l : Level) : Except UsageError Level :=
  match l.pending with
  | .nothing => .ok l
  | .awaiting _ => .error .badValue
  | .valued o value => l.record o value

def option (l : Level) (o : Opt) : Option String → Except UsageError Level
  | some value => do
    let l ← l.settle
    l.record o value
  | none => do
    let l ← l.settle
    return { l with pending := .awaiting o }

def help (l : Level) : Except UsageError Level := do
  let _ ← l.settle
  throw .help

def long (l : Level) (g : Grammar) (text : List Char) : Except UsageError Level :=
  let name := text.takeWhile (· != '=')
  let value := match text.drop name.length with
    | '=' :: rest => some (String.ofList rest)
    | _ => none
  match g.options.find? fun o => o.name.toList = name with
  | some o => l.option o value
  | none =>
    if name = ['h', 'e', 'l', 'p'] then if value.isSome then throw .needlessValue else l.help
    else throw .unknownArgument

def short (l : Level) (g : Grammar) : List Char → Except UsageError Level
  | [] => .ok l
  | c :: rest =>
    match g.options.find? fun o => o.short = some c with
    | some o =>
      match rest with
      | [] => l.option o none
      | '=' :: value => l.option o (some (String.ofList value))
      | value => l.option o (some (String.ofList value))
    | none => if c = 'h' then l.help else throw .unknownArgument

def positional (l : Level) (g : Grammar) (text : String) : Except UsageError Level :=
  match l.free with
  | name :: free => do
    let l ← l.settle
    return { l with given := l.given ++ [{ name, value := text }], free }
  | [] =>
    if g.commands.isEmpty then throw .unknownArgument
    else if l.trailing && ((g.command? text).isSome || g.explains text) then throw .unknownArgument
    else throw .unknownCommand

def argument (l : Level) (g : Grammar) (text : String) : Except UsageError Level :=
  if l.trailing then l.positional g text
  else
    match text.toList with
    | ['-', '-'] => .ok { l with trailing := true }
    | '-' :: '-' :: rest => l.long g rest
    | '-' :: c :: rest => l.short g (c :: rest)
    | _ =>
      match l.pending with
      | .awaiting o => .ok { l with pending := .valued o text }
      | _ => l.positional g text

/-- Adds a value from the environment for an option that was not given. -/
def inherit (l : Level) (g : Grammar) (inherited : List (String × String)) :
    Except UsageError Level :=
  inherited.foldlM (fun l (name, value) =>
    match g.options.find? fun o => o.name = name with
    | some o =>
      if l.has name then .ok l
      else do
        o.kind.check value
        return { l with given := l.given ++ [{ name, value, inherited := true }] }
    | none => .ok l) l

def finish (l : Level) (g : Grammar) (inherited : List (String × String))
    (command : Option String) : Except UsageError Reading := do
  let l ← l.settle
  let l ← l.inherit g inherited
  if command.isNone && !g.commands.isEmpty then
    throw (if l.given.isEmpty then .helpInsteadOfCommand else .missingCommand)
  if g.options.any fun o => o.required && !l.has o.name then throw .missingArgument
  if !l.free.isEmpty then throw .missingArgument
  return { given := l.given, command }

def takesCommand (l : Level) : Bool :=
  match l.pending with
  | .awaiting _ => false
  | _ => !l.trailing

end Level

namespace Grammar

def explain (g : Grammar) : List String → UsageError
  | [] => .help
  | name :: rest =>
    match g.command? name with
    | some c => c.explain rest
    | none =>
      if g.explains name then if rest.isEmpty then .help else .unknownCommand
      else .unknownCommand

def readFrom (inherited : List (String × String)) :
    Grammar → Level → List String → Except UsageError (List Reading)
  | g, l, [] => do return [← l.finish g inherited none]
  | g, l, text :: rest =>
    match if l.takesCommand then g.command? text else none with
    | some c => do
      let inner ← readFrom inherited c { free := c.positionals } rest
      return (← l.finish g inherited (some text)) :: inner
    | none =>
      if l.takesCommand && g.explains text then .error (g.explain rest)
      else do
        let l ← l.argument g text
        readFrom inherited g l rest

/-- Reads a command line; `inherited` holds options that the environment provides. -/
def read (g : Grammar) (inherited : List (String × String)) (arguments : List String) :
    Except UsageError (List Reading) :=
  readFrom inherited g { free := g.positionals } arguments

end Grammar

end WifiAdvisor.CommandLine
