import WifiAdvisor.Document.Toml.Numeral
import WifiAdvisor.Document.Toml.Quotation
/-!
Writing a table as TOML text. The values of a table come first, then its tables, then its arrays of
tables, each under a header; one empty line stands between two sections. A string is quoted in
whichever way needs no escapes and, of those, is plainest.
-/

namespace WifiAdvisor.Document.Toml

/-- A whole number that TOML has no room for. -/
structure OutOfRange where
  number : Int
  deriving DecidableEq, Inhabited, Repr

def OutOfRange.message (_ : OutOfRange) : String := "out-of-range value for u64 type"

namespace Quotation

/-- Characters that only an escape can bring into a string, a line feed aside. -/
def isControl (c : Char) : Bool := (c.toNat < 0x20 && c != '\t' && c != '\n') || c.toNat = 0x7F

def longestRun (c : Char) : List Char → Nat → Nat → Nat
  | [], run, best => max run best
  | x :: rest, run, best =>
    if x = c then longestRun c rest (run + 1) best else longestRun c rest 0 (max run best)

def coded (c : Char) : List Char :=
  '\\' :: 'u' :: (Text.padded 16 4 c.toNat).map Char.toUpper

/-- Characters between double quotes. On one line every quote is escaped; on several lines one that
would be the third of a run. -/
def escapeFrom (multiline : Bool) : Nat → List Char → List Char
  | _, [] => []
  | run, '"' :: rest =>
    if multiline && run < 2 then '"' :: escapeFrom multiline (run + 1) rest
    else '\\' :: '"' :: escapeFrom multiline 0 rest
  | _, c :: rest =>
    let written := match c with
      | '\x08' => ['\\', 'b']
      | '\t' => ['\\', 't']
      | '\n' => if multiline then ['\n'] else ['\\', 'n']
      | '\x0c' => ['\\', 'f']
      | '\r' => ['\\', 'r']
      | '\\' => ['\\', '\\']
      | c => if isControl c then coded c else [c]
    written ++ escapeFrom multiline 0 rest

def basic (cs : List Char) : List Char := '"' :: escapeFrom false 0 cs ++ ['"']

def literal (cs : List Char) : List Char := '\'' :: cs ++ ['\'']

/-- Triple marks; a text with a line end begins on a line of its own. -/
def tripled (quote : Char) (cs written : List Char) : List Char :=
  let mark := List.replicate 3 quote
  mark ++ (if cs.contains '\n' then ['\n'] else []) ++ written ++ mark

def writeString (s : String) : List Char :=
  let cs := s.toList
  let controlled := cs.any isControl
  let lined := cs.contains '\n'
  let slashed := cs.contains '\\'
  let doubled := longestRun '"' cs 0 0
  let single := longestRun '\'' cs 0 0
  if !controlled && !lined && !slashed && doubled = 0 then basic cs
  else if !controlled && !lined && single = 0 then literal cs
  else if !controlled && !slashed && doubled ≤ 2 then tripled '"' cs (escapeFrom true 0 cs)
  else if !controlled && single ≤ 2 then tripled '\'' cs cs
  else if lined then tripled '"' cs (escapeFrom true 0 cs)
  else basic cs

def isBareName (cs : List Char) : Bool :=
  !cs.isEmpty && cs.all fun c => c.isAlphanum || c = '_' || c = '-'

def writeName (s : String) : List Char :=
  let cs := s.toList
  let controlled := cs.any fun c => isControl c || c = '\n'
  if isBareName cs then cs
  else if !controlled && !cs.contains '\\' && !cs.contains '"' then basic cs
  else if !controlled && !cs.contains '\'' then literal cs
  else basic cs

end Quotation

/-- The style of real numbers: always positional. -/
def numberStyle : Decimal.NumberStyle := ⟨none⟩

/-- Whether a value has headers of its own. -/
def isTable : Value → Bool
  | .object _ _ => true
  | _ => false

def isSeries : Value → Bool
  | .array (v :: rest) _ => (v :: rest).all isTable
  | _ => false

/-- The text of a name; a name without one counts as empty. -/
def nameText (k : Name) : String := k.text.toOption.getD ""

mutual

/-- A value on the right of an equals sign. What has no spelling in TOML counts as no number. -/
def inlineValue : Value → Except OutOfRange (List Char)
  | .bool true => .ok ['t', 'r', 'u', 'e']
  | .bool false => .ok ['f', 'a', 'l', 's', 'e']
  | .number (.integer i) => if Numeral.hasRoom i then .ok (toString i).toList else .error ⟨i⟩
  | .number (.real x) => .ok (numberStyle.text x).toList
  | .string s => .ok (Quotation.writeString s)
  | .datetime s => .ok s.toList
  | .array items _ => do
    let l ← inlineItems items
    return '[' :: l ++ [']']
  | .object members _ => do
    let l ← inlineMembers members
    return '\x7b' :: ' ' :: l ++ [' ', '\x7d']
  | .number .tooLarge | .null | .garbled _ | .stopped _ => .ok ['n', 'a', 'n']

def inlineItems : List Value → Except OutOfRange (List Char)
  | [] => .ok []
  | [v] => inlineValue v
  | v :: rest => do
    let a ← inlineValue v
    let l ← inlineItems rest
    return a ++ ',' :: ' ' :: l

def inlineMembers : List (Name × Value) → Except OutOfRange (List Char)
  | [] => .ok []
  | [(k, v)] => do
    let a ← inlineValue v
    return Quotation.writeName (nameText k) ++ [' ', '=', ' '] ++ a
  | (k, v) :: rest => do
    let a ← inlineValue v
    let l ← inlineMembers rest
    return Quotation.writeName (nameText k) ++ [' ', '=', ' '] ++ a ++ [',', ' '] ++ l

end

def valueLines : List (Name × Value) → Except OutOfRange (List Char)
  | [] => .ok []
  | (k, v) :: rest => do
    let after ← valueLines rest
    if isTable v || isSeries v then return after
    else
      let written ← inlineValue v
      return Quotation.writeName (nameText k) ++ [' ', '=', ' '] ++ written ++ '\n' :: after

def dottedName (path : List String) : List Char :=
  ['.'].intercalate (path.map Quotation.writeName)

mutual

/-- The sections of a table: its own, with the given header, and those of the tables in it. -/
def layout (header : List Char) (path : List String) :
    Value → Except OutOfRange (List (List Char))
  | .object members _ => do
    let values ← valueLines members
    let tables ← layoutMembers path members
    return if values.isEmpty && !members.isEmpty then tables else (header ++ values) :: tables
  | _ => .ok []

def layoutMembers (path : List String) :
    List (Name × Value) → Except OutOfRange (List (List Char))
  | [] => .ok []
  | (k, v) :: rest => do
    let here := path ++ [nameText k]
    let name := dottedName here
    let l ← match v with
      | .object members ending =>
        layout ('[' :: name ++ [']', '\n']) here (.object members ending)
      | .array items _ =>
        if isSeries v then layoutElements ('[' :: '[' :: name ++ [']', ']', '\n']) here items
        else .ok []
      | _ => .ok []
    let after ← layoutMembers path rest
    return l ++ after

/-- The sections of an array of tables. An element has its header even if it has no values. -/
def layoutElements (header : List Char) (path : List String) :
    List Value → Except OutOfRange (List (List Char))
  | [] => .ok []
  | v :: rest => do
    let l ← match v with
      | .object members _ => do
        let values ← valueLines members
        let tables ← layoutMembers path members
        .ok ((header ++ values) :: tables)
      | _ => .ok []
    let after ← layoutElements header path rest
    return l ++ after

end

def print (v : Value) : Except OutOfRange String := do
  let sections ← layout [] [] v
  return String.ofList (['\n'].intercalate (sections.filter fun l => !l.isEmpty))

end WifiAdvisor.Document.Toml
