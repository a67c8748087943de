import WifiAdvisor.Document.DecodeError
import WifiAdvisor.Named
import WifiAdvisor.SortedMap
/-!
Decoders read a value as a type. What they accept hardly depends on where the value comes from;
the few differences hang on its source.
-/

namespace WifiAdvisor.Document

inductive Source where
  /-- Straight from JSON text, part by part. -/
  | stream
  /-- Set aside while the kind of a tagged object was still unknown. -/
  | buffer
  /-- From a JSON value that was read as a whole. -/
  | tree
  | toml
  deriving DecidableEq, Inhabited, Repr

abbrev Decoder (α : Type) := Source → Value → Except DecodeError α

def unreadable {α : Type} (why : Fault) : Except DecodeError α := .error (.unreadable why)

def orUnreadable {α : Type} : Except Fault α → Except DecodeError α
  | .ok a => .ok a
  | .error why => unreadable why

/-- Refuses a value of the wrong type; one that could not be read is refused for that. -/
def mismatch {α : Type} (expected : String) : Value → Except DecodeError α
  | .null => .error (.invalidType .null expected)
  | .bool b => .error (.invalidType (.bool b) expected)
  | .number (.integer i) => .error (.invalidType (.integer i) expected)
  | .number (.real x) => .error (.invalidType (.real x) expected)
  | .number .tooLarge => unreadable .malformed
  | .string s => .error (.invalidType (.string s) expected)
  | .garbled _ => unreadable .malformed
  | .datetime _ => .error (.invalidType .map expected)
  | .array _ _ => .error (.invalidType .sequence expected)
  | .object _ _ => .error (.invalidType .map expected)
  | .stopped why => unreadable why

namespace Decoder

def bool : Decoder Bool
  | _, .bool b => .ok b
  | _, v => mismatch "a boolean" v

def string : Decoder String
  | _, .string s => .ok s
  | _, v => mismatch "a string" v

/-- File names are strings under another description. -/
def path : Decoder String
  | _, .string s => .ok s
  | _, v => mismatch "path string" v

def wholeNumber (low high : Int) (expected : String) : Decoder Int
  | _, .number (.integer i) =>
    if low ≤ i ∧ i ≤ high then .ok i else .error (.invalidValue (.integer i) expected)
  | _, v => mismatch expected v

def int32 : Decoder Int32 := fun source v =>
  (wholeNumber (-2147483648) 2147483647 "i32" source v).map Int32.ofInt

def uint32 : Decoder UInt32 := fun source v =>
  (wholeNumber 0 4294967295 "u32" source v).map fun i => UInt32.ofNat i.toNat

def word (expected : String) : Decoder UInt64 := fun source v =>
  (wholeNumber 0 18446744073709551615 expected source v).map fun i => UInt64.ofNat i.toNat

def uint64 : Decoder UInt64 := word "u64"

def size : Decoder UInt64 := word "usize"

def optional {α : Type} (d : Decoder α) : Decoder (Option α)
  | _, .null => .ok none
  | _, .stopped .endedInNull => unreadable .endedInNull
  | source, v => (d source v).map some

def items {α : Type} (d : Decoder α) (source : Source) : List Value → Except DecodeError (List α)
  | [] => .ok []
  | v :: rest => do
    let a ← d source v
    let l ← items d source rest
    return a :: l

def list {α : Type} (d : Decoder α) : Decoder (List α)
  | source, .array l ending => do
    let l ← items d source l
    orUnreadable ending.check
    return l
  | _, v => mismatch "a sequence" v

def nameText (_ : Source) (k : Name) : Except DecodeError String := orUnreadable k.text

def ofName {α : Type} [Named α] (name : String) : Except DecodeError α :=
  match Named.ofName? name with
  | some a => .ok a
  | none => .error (.unknownVariant name (Named.names α))

/-- The part of a name written as an object that stands where the name takes no argument. -/
def unit : Decoder Unit
  | .buffer, .object [] _ => .ok ()
  | .toml, .object [] _ => .ok ()
  | .toml, .array [] _ => .ok ()
  | .toml, _ => .error .notAName
  | _, .null => .ok ()
  | _, v => mismatch "unit" v

/-- The text of the member that a name is written as. -/
def variantText : Name → Except DecodeError String
  | .unquoted v => mismatch "variant identifier" v
  | k => orUnreadable k.text

/-- What may follow the only member of a name written as an object. -/
def afterName : List (Name × Value) → Ending → Except DecodeError Unit
  | [], .closed => .ok ()
  | [], .stopped why => unreadable (if why.isEnd then .ended else .malformed)
  | _ :: _, _ => unreadable .malformed

/-- A name: a string, or an object whose only member has that name. -/
def named {α : Type} [Named α] : Decoder α
  | _, .string s => ofName s
  | .stream, .object ((k, v) :: rest) ending => do
    let a ← ofName (← variantText k)
    unit .stream v
    afterName rest ending
    return a
  | .stream, .object [] .closed => unreadable .malformed
  | .stream, .object [] (.stopped why) => unreadable why
  | .stream, .stopped .ended => unreadable .ended
  | .stream, _ => unreadable .malformed
  | source, .object [(k, v)] _ => do
    let a ← ofName (← variantText k)
    unit source v
    return a
  | .toml, _ => .error .notAName
  | _, .object _ _ => .error (.invalidValue .map "map with a single key")
  | _, v => mismatch "string or map" v

/-- A map; of two members with one key the later counts. -/
def members {κ α : Type} [Ord κ] [Std.TransOrd κ] [Std.LawfulEqOrd κ]
    (key : Source → Name → Except DecodeError κ) (d : Decoder α) (source : Source) :
    SortedMap κ α → List (Name × Value) → Except DecodeError (SortedMap κ α)
  | m, [] => .ok m
  | m, (k, v) :: rest => do
    let k ← key source k
    let a ← d source v
    members key d source (m.insert k a) rest

def map {κ α : Type} [Ord κ] [Std.TransOrd κ] [Std.LawfulEqOrd κ]
    (key : Source → Name → Except DecodeError κ) (d : Decoder α) : Decoder (SortedMap κ α)
  | source, .object l ending => do
    let m ← members key d source ∅ l
    orUnreadable ending.check
    return m
  | source, .datetime s => do
    -- A date counts as a map whose only member is its spelling.
    members key d source ∅ [("datetime", .string s)]
  | _, v => mismatch "a map" v

end Decoder

end WifiAdvisor.Document
