import WifiAdvisor.Text.Digits
/-!
Addresses of databases. An address is the path of a file, or else `file:`, an empty or local host, a
path, and after a question mark options that say how the file is opened. There a byte may be
written as a percent sign with two hexadecimal digits, and a number sign ends the address.
-/

namespace WifiAdvisor.Store

inductive Mode where
  | read
  | write
  | create
  | memory
  deriving DecidableEq, Inhabited, Repr

namespace Mode

def ofName? : String → Option Mode
  | "ro" => some .read
  | "rw" => some .write
  | "rwc" => some .create
  | "memory" => some .memory
  | _ => none

def rank : Mode → Nat
  | .read => 1
  | .write => 2
  | .create => 3
  | .memory => 4

/-- Changes a mode to the one named, which must not allow more. -/
def narrow? (m : Mode) (name : String) : Option Mode := do
  let wanted ← ofName? name
  if wanted = .memory || wanted.rank ≤ m.rank then some wanted else none

end Mode

structure Address where
  path : String
  mode : Mode := .create
  frozen : Bool := false
  virtual : Bool := false
  /-- A file that lends its permissions to a new one, and has to be there. -/
  model : Option String := none
  deriving DecidableEq, Inhabited, Repr

namespace Address

/-- Bytes of an escaped text. An escaped zero ends it. -/
def bytes : List Char → List UInt8
  | '%' :: a :: b :: rest =>
    match Text.hexDigit? a, Text.hexDigit? b with
    | some a, some b => if 16 * a + b = 0 then [] else UInt8.ofNat (16 * a + b) :: bytes rest
    | _, _ => 0x25 :: bytes (a :: b :: rest)
  | c :: rest => c.toString.toUTF8.toList ++ bytes rest
  | [] => []

def unescape (text : List Char) : String :=
  (String.fromUTF8? (bytes text).toByteArray).getD (String.ofList text)

def option? (text : List Char) : Option (String × String) :=
  let (name, value) := text.span (· ≠ '=')
  let name := unescape name
  if name = "" then none else some (name, unescape (value.drop 1))

def systems : List String := ["unix", "unix-none", "unix-dotfile", "unix-excl", "memdb"]

def isTrue (text : String) : Bool :=
  match text.toList.takeWhile Char.isDigit with
  | [] => ["on", "yes", "true"].contains (text.map Char.toLower)
  | digits =>
    -- Only the lowest byte of the number counts.
    let n := digits.foldl (fun n c => 10 * n + (Text.digit? c).getD 0) 0
    n < 0x80000000 && n % 256 ≠ 0

/-- The address of a path with options. Of options that occur more than once the modes count in
order, the last file system and the first of the others. -/
def ofOptions? (path : String) (options : List (String × String)) : Option Address := do
  let values (name : String) := (options.filter (·.1 = name)).map Prod.snd
  let mode ← (values "mode").foldlM Mode.narrow? .create
  let system := (values "vfs").getLast?.getD "unix"
  if systems.contains system && (values "cache").all fun v => v = "shared" || v = "private" then
    some {
      path, mode
      frozen := (values "immutable").head?.any isTrue
      virtual := system = "memdb"
      model := (values "modeof").head? }
  else none

/-- What follows the host, if there is one; only the own host will do. -/
def dropHost? : List Char → Option (List Char)
  | '/' :: '/' :: rest =>
    let (host, path) := rest.span (· ≠ '/')
    if host = [] || host = "localhost".toList then some path else none
  | text => some text

def ofName? (name : String) : Option Address :=
  match name.toList with
  | 'f' :: 'i' :: 'l' :: 'e' :: ':' :: text => do
    let text := (← dropHost? text).takeWhile (· ≠ '#')
    let (path, options) := text.span (· ≠ '?')
    ofOptions? (unescape path) (((options.drop 1).splitOn '&').filterMap option?)
  | _ => some { path := name }

def isNamed (a : Address) : Bool := a.path ≠ "" && a.path ≠ ":memory:" && a.mode ≠ .memory

def isTemporary (a : Address) : Bool := !a.isNamed || a.virtual

def isWritable (a : Address) : Bool := a.mode ≠ .read && !(a.frozen && a.isNamed)

end Address

end WifiAdvisor.Store
