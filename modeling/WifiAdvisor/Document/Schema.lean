import WifiAdvisor.Document.Decoder
/-!
Records and tagged records. A schema lists the fields of a record in order; from that one
description a record can be read from an object, whose members may come in any order and amid
unknown ones, and from an array, by position.
-/

namespace WifiAdvisor.Document

structure RecordField (α : Type) where
  name : String
  decode : Decoder α
  /-- Its value when an object does not have it. -/
  absent : Option α := none
  /-- Its value when an array ends before it. -/
  short : Option α := none

namespace RecordField

def required {α : Type} (name : String) (decode : Decoder α) : RecordField α := { name, decode }

def defaulting {α : Type} (name : String) (fallback : α) (decode : Decoder α) : RecordField α :=
  { name, decode, absent := some fallback, short := some fallback }

/-- A value that may be null, or absent from an object. -/
def nullable {α : Type} (name : String) (decode : Decoder α) : RecordField (Option α) :=
  { name, decode := decode.optional, absent := some none }

end RecordField

/-- The fields of a record and how the record is put together from them. -/
structure Schema (α : Type) where
  names : List String
  /-- Whether a member of the given name can be read. -/
  check : Source → String → Value → Except DecodeError Unit
  build : Source → List (Name × Value) → Except DecodeError α
  /-- Takes the fields off an array, given its description and the position reached. -/
  take : Source → String → Nat → List Value → Except DecodeError (α × List Value)

namespace Schema

variable {α β : Type}

def pure (a : α) : Schema α where
  names := []
  check _ _ _ := .ok ()
  build _ _ := .ok a
  take _ _ _ rest := .ok (a, rest)

def field (s : Schema (β → α)) (f : RecordField β) : Schema α where
  names := s.names ++ [f.name]
  check source name v :=
    if name = f.name then (f.decode source v).map fun _ => () else s.check source name v
  build source members := do
    let g ← s.build source members
    match lookup f.name members, f.absent with
    | some v, _ => return g (← f.decode source v)
    | none, some b => return g b
    | none, none => throw (.missingField f.name)
  take source what position rest := do
    let (g, rest) ← s.take source what position rest
    let position := position + s.names.length
    match rest, f.short with
    | v :: rest, _ => return (g (← f.decode source v), rest)
    | [], some b => return (g b, [])
    | [], none => throw (.invalidLength position what)

/-- Goes through the members in order: a known one must be readable and come once, an unknown one
is passed over. -/
def scan (s : Schema α) (source : Source) (seen : List String) :
    List (Name × Value) → Except DecodeError Unit
  | [] => .ok ()
  | (k, v) :: rest => do
    let name ← orUnreadable k.text
    if s.names.contains name then
      if seen.contains name then throw (.duplicateField name)
      s.check source name v
      scan s source (name :: seen) rest
    else
      orUnreadable v.passOver
      scan s source seen rest

def ofMembers (s : Schema α) (source : Source) (members : List (Name × Value))
    (ending : Ending) : Except DecodeError α := do
  s.scan source [] members
  orUnreadable ending.check
  s.build source members

def elements (n : Nat) : String := if n = 1 then "1 element" else toString n ++ " elements"

/-- What may follow the fields in an array of `total` items. -/
def surplus (source : Source) (total : Nat) (rest : List Value) (ending : Ending) :
    Except DecodeError Unit :=
  match source, rest with
  | _, [] => orUnreadable ending.check
  | .stream, _ => unreadable .malformed
  | .buffer, _ =>
    .error (.invalidLength total (elements (total - rest.length) ++ " in sequence"))
  | .tree, _ => .error (.invalidLength total "fewer elements in array")
  | .toml, _ => .ok ()

def ofItems (s : Schema α) (what : String) (source : Source) (items : List Value)
    (ending : Ending) : Except DecodeError α := do
  let what := what ++ " with " ++ elements s.names.length
  let (a, rest) ← takeAll what
  surplus source items.length rest ending
  return a
where
  /-- A stopped array is short for the reason it stopped. -/
  takeAll (what : String) : Except DecodeError (α × List Value) :=
    match s.take source what 0 items, ending with
    | .error (.invalidLength n e), .stopped why =>
      if n = items.length then unreadable why else .error (.invalidLength n e)
    | r, _ => r

def record (s : Schema α) (what : String) : Decoder α
  | source, .object members ending => s.ofMembers source members ending
  | source, .array items ending => s.ofItems what source items ending
  | source, .datetime _ => s.ofMembers source [] .closed
  | _, v => mismatch what v

end Schema

/-- One kind of a tagged record: its tag, its description and its fields. -/
structure Variant (α : Type) where
  tag : String
  what : String
  schema : Schema α

/-- Records told apart by a member named `type`. -/
structure Tagged (α : Type) where
  title : String
  variants : List (Variant α)

namespace Tagged

variable {α : Type}

def variant (t : Tagged α) : Decoder (Variant α)
  | _, .string s =>
    match t.variants.find? fun v => v.tag = s with
    | some v => .ok v
    | none => .error (.unknownVariant s (t.variants.map Variant.tag))
  | _, v => mismatch "variant identifier" v

/-- Levels of brackets that a text may open, the outermost included. -/
def bracketRoom : Nat := 128

/-- Goes through the members up to the tag and beyond; everything but the tag is set aside. -/
def split (t : Tagged α) (source : Source) (tag : Option (Variant α)) :
    List (Name × Value) → Except DecodeError (Option (Variant α) × List (Name × Value))
  | [] => .ok (tag, [])
  | (k, v) :: rest => do
    let name ← orUnreadable k.text
    if name = "type" then
      match tag with
      | some _ => .error (.duplicateField "type")
      | none => do
        let tag ← t.variant source v
        split t source (some tag) rest
    else
      orUnreadable (v.setAside (bracketRoom - 1))
      let (tag, others) ← split t source tag rest
      return (tag, (k, v) :: others)

def decode (t : Tagged α) : Decoder α
  | source, .object members ending => do
    let (tag, others) ← t.split source none members
    orUnreadable ending.check
    match tag with
    | some v => v.schema.ofMembers .buffer others .closed
    | none => throw (.missingField "type")
  | _, .array [] ending => do
    orUnreadable ending.check
    throw (.missingField "type")
  | source, .array (tag :: rest) ending => do
    let v ← t.variant source tag
    orUnreadable (setAsideItems (bracketRoom - 1) rest)
    orUnreadable ending.check
    v.schema.ofItems v.what .buffer rest .closed
  | _, v => mismatch ("internally tagged enum " ++ t.title) v

end Tagged

end WifiAdvisor.Document
