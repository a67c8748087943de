import WifiAdvisor.Document.Json.Numeral
import WifiAdvisor.Document.Decoder
/-!
Reading JSON text. The result is a value together with the text after it, or without any when
reading stopped inside the value.
-/

namespace WifiAdvisor.Document.Json

open Text (hexDigit?)

def isSpace (c : Char) : Bool := c = ' ' || c = '\n' || c = '\t' || c = '\r'

def skipSpace (cs : List Char) : List Char := cs.dropWhile isSpace

/-- The number written by the four hexadecimal digits of an escape. -/
def hexEscape : List Char → Except Fault (Nat × List Char)
  | a :: b :: c :: d :: rest =>
    match hexDigit? a, hexDigit? b, hexDigit? c, hexDigit? d with
    | some a, some b, some c, some d => .ok (((a * 16 + b) * 16 + c) * 16 + d, rest)
    | _, _, _, _ => .error .malformed
  | rest => .error (if (String.ofList rest).utf8ByteSize < 4 then .ended else .malformed)

def isLeading (n : Nat) : Bool := 0xD800 ≤ n && n ≤ 0xDBFF

def isTrailing (n : Nat) : Bool := 0xDC00 ≤ n && n ≤ 0xDFFF

/-- The character of an escape; none for half of a pair that lacks the other half. -/
def escapedCode (n : Nat) (rest : List Char) : Except Fault (Option Char × List Char) :=
  if isTrailing n then .ok (none, rest)
  else if isLeading n then
    match rest with
    | [] => .error .ended
    | ['\\'] => .error .ended
    | '\\' :: 'u' :: after => do
      let (m, after) ← hexEscape after
      if isTrailing m then
        return (some (Char.ofNat (0x10000 + (n - 0xD800) * 0x400 + (m - 0xDC00))), after)
      else return (none, rest)
    | _ => .ok (none, rest)
  else .ok (some (Char.ofNat n), rest)

def escaped : List Char → Except Fault (Option Char × List Char)
  | [] => .error .ended
  | '"' :: rest => .ok (some '"', rest)
  | '\\' :: rest => .ok (some '\\', rest)
  | '/' :: rest => .ok (some '/', rest)
  | 'b' :: rest => .ok (some '\x08', rest)
  | 'f' :: rest => .ok (some '\x0c', rest)
  | 'n' :: rest => .ok (some '\n', rest)
  | 'r' :: rest => .ok (some '\r', rest)
  | 't' :: rest => .ok (some '\t', rest)
  | 'u' :: rest => do
    let (n, rest) ← hexEscape rest
    escapedCode n rest
  | _ => .error .malformed

/-- What was read of a string after its opening quote. -/
inductive StringPart where
  | whole (s : String) (rest : List Char)
  /-- Read to its end, but with an escape that stands for no character. -/
  | garbled (rest : List Char)
  | stopped (garbled : Bool) (why : Fault)

/-- Reads a string to its closing quote; `acc` holds what was read, last character first, or
nothing once an escape stood for no character. -/
def readString : Nat → Option (List Char) → List Char → StringPart
  | _, acc, [] => .stopped acc.isNone .ended
  | 0, acc, _ => .stopped acc.isNone .ended
  | fuel + 1, acc, c :: rest =>
    if c = '"' then
      match acc with
      | some cs => .whole (String.ofList cs.reverse) rest
      | none => .garbled rest
    else if c = '\\' then
      match escaped rest with
      | .error why => .stopped acc.isNone why
      | .ok (some e, rest) => readString fuel (acc.map (e :: ·)) rest
      | .ok (none, rest) => readString fuel none rest
    else if c.toNat < 0x20 then .stopped acc.isNone .malformed
    else readString fuel (acc.map (c :: ·)) rest

/-- How a name is written up to its first quote, backslash or control character, that one
included. -/
def headOfName : List Char → List Char
  | [] => []
  | c :: rest => if c = '"' || c = '\\' || c.toNat < 0x20 then [c] else c :: headOfName rest

/-- Reads a name after its opening quote. -/
def readName (fuel : Nat) (cs : List Char) : Name × Option (List Char) :=
  let head := headOfName cs
  match readString fuel (some []) cs with
  | .whole s rest =>
    (if head.getLast? = some '\\' then .escaped head (some s) else .plain s, some rest)
  | .garbled rest => (.escaped head none, some rest)
  | .stopped garbled why => (.stopped head garbled why, none)

/-- Reads the rest of a word; `short` says what it means if the text ends too early. -/
def readWord (word : List Char) (v : Value) (short : Fault) (cs : List Char) :
    Value × Option (List Char) :=
  match word, cs with
  | [], rest => (v, some rest)
  | _ :: _, [] => (.stopped short, none)
  | w :: word, c :: rest =>
    if c = w then readWord word v short rest else (.stopped .malformed, none)

mutual

def readValue (fuel : Nat) (cs : List Char) : Value × Option (List Char) :=
  match fuel with
  | 0 => (.stopped .malformed, none)
  | fuel + 1 =>
    match skipSpace cs with
    | [] => (.stopped .ended, none)
    | 'n' :: rest => readWord ['u', 'l', 'l'] .null .endedInNull rest
    | 't' :: rest => readWord ['r', 'u', 'e'] (.bool true) .endedInWord rest
    | 'f' :: rest => readWord ['a', 'l', 's', 'e'] (.bool false) .endedInWord rest
    | '"' :: rest =>
      match readString (fuel + 1) (some []) rest with
      | .whole s rest => (.string s, some rest)
      | .garbled rest => (.garbled .closed, some rest)
      | .stopped false why => (.stopped why, none)
      | .stopped true why => (.garbled (.stopped why), none)
    | '[' :: rest => readItems fuel [] rest
    | '\x7b' :: rest => readMembers fuel [] rest
    | c :: rest =>
      if c = '-' || Numeral.startsWithDigit [c] then
        match Numeral.read (c :: rest) with
        | .ok (n, rest) => (.number n, some rest)
        | .error why => (.stopped why, none)
      else (.stopped .malformed, none)

/-- Reads on in an array of which `acc` was read, last item first. -/
def readItems (fuel : Nat) (acc : List Value) (cs : List Char) : Value × Option (List Char) :=
  match fuel with
  | 0 => (.array acc.reverse (.stopped .malformed), none)
  | fuel + 1 =>
    let stop (why : Fault) : Value × Option (List Char) :=
      (.array acc.reverse (.stopped why), none)
    let item (cs : List Char) : Value × Option (List Char) :=
      match readValue fuel cs with
      | (v, some rest) => readItems fuel (v :: acc) rest
      | (v, none) => (.array (v :: acc).reverse (.stopped .malformed), none)
    match skipSpace cs, acc with
    | [], _ => stop .ended
    | ']' :: rest, _ => (.array acc.reverse .closed, some rest)
    | ',' :: rest, _ :: _ => item rest
    | cs, [] => item cs
    | _, _ :: _ => stop .malformed

/-- Reads on in an object of which `acc` was read, last member first. -/
def readMembers (fuel : Nat) (acc : List (Name × Value)) (cs : List Char) :
    Value × Option (List Char) :=
  match fuel with
  | 0 => (.object acc.reverse (.stopped .malformed), none)
  | fuel + 1 =>
    let stop (why : Fault) : Value × Option (List Char) :=
      (.object acc.reverse (.stopped why), none)
    let last (k : Name) (v : Value) : Value × Option (List Char) :=
      (.object ((k, v) :: acc).reverse (.stopped .malformed), none)
    let member (cs : List Char) : Value × Option (List Char) :=
      match skipSpace cs with
      | [] => last (.stopped [] false .ended) (.stopped .ended)
      | '"' :: rest =>
        match readName (fuel + 1) rest with
        | (k, none) => last k (.stopped .malformed)
        | (k, some rest) =>
          match skipSpace rest with
          | [] => last k (.stopped .ended)
          | ':' :: rest =>
            match readValue fuel rest with
            | (v, some rest) => readMembers fuel ((k, v) :: acc) rest
            | (v, none) => last k v
          | _ => last k (.stopped .malformed)
      | cs => last (.unquoted (readValue fuel cs).1) (.stopped .malformed)
    match skipSpace cs, acc with
    | [], _ => stop .ended
    | '\x7d' :: rest, _ => (.object acc.reverse .closed, some rest)
    | ',' :: rest, _ :: _ => member rest
    | cs, [] => member cs
    | _, _ :: _ => stop .malformed

end

def readPrefix (text : List Char) : Value × Option (List Char) :=
  readValue (2 * text.length + 2) text

/-- Decodes a text that holds one value and nothing else but space. -/
def decode {α : Type} (d : Decoder α) (text : String) : Except DecodeError α := do
  let (v, rest) := readPrefix text.toList
  let a ← d .stream v
  match rest.map skipSpace with
  | some [] => return a
  | _ => unreadable .malformed

/-- Reads a text that holds one value and nothing else but space. -/
def parse (text : String) : Except DecodeError Value := do
  let (v, rest) := readPrefix text.toList
  orUnreadable (v.setAside 128)
  match rest.map skipSpace with
  | some [] => return v
  | _ => unreadable .malformed

end WifiAdvisor.Document.Json
