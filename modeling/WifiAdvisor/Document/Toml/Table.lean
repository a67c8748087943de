import WifiAdvisor.Document.Value
/-!
How the lines of a TOML text make up tables. A table can be opened by a header, implied by a header
further down, or brought about by a dotted key; how it came about decides what may still be added
to it, so that nothing is defined twice.
-/

namespace WifiAdvisor.Document.Toml

inductive Origin where
  /-- By a header of its own, or as an element of an array of tables. -/
  | header
  /-- On the way to a table with a header. -/
  | implied
  | dotted
  deriving DecidableEq, Inhabited, Repr

/-- What a name stands for while a text is being read. -/
inductive Node where
  | value (v : Value)
  | table (origin : Origin) (members : List (String × Node))
  /-- An array of tables, the last one first. -/
  | series (last : List (String × Node)) (earlier : List (List (String × Node)))
  deriving Inhabited

abbrev Members := List (String × Node)

structure Entry where
  path : List String
  name : String
  value : Value

structure Section where
  path : List String
  name : String
  repeated : Bool
  entries : List Entry

namespace Members

def find? (name : String) : Members → Option Node
  | [] => none
  | (k, n) :: rest => if k = name then some n else find? name rest

def erase (name : String) (ms : Members) : Members := ms.filter fun m => m.1 ≠ name

def replace (name : String) (node : Node) (ms : Members) : Members :=
  ms.map fun m => if m.1 = name then (name, node) else m

/-- Goes down a path, bringing about the tables that are missing, and applies `f` to the table at
its end. A path of a dotted key does not enter tables that have a header. -/
def descend (dotted : Bool) (f : Origin → Members → Option Members) :
    List String → Origin → Members → Option Members
  | [], origin, ms => f origin ms
  | name :: path, _, ms =>
    match find? name ms with
    | none => do
      let origin := if dotted then .dotted else .implied
      let inner ← descend dotted f path origin []
      return ms ++ [(name, .table origin inner)]
    | some (.value _) => none
    | some (.series last earlier) => do
      let last ← descend dotted f path .header last
      return replace name (.series last earlier) ms
    | some (.table origin inner) =>
      if dotted ∧ origin = .header then none
      else do
        let inner ← descend dotted f path origin inner
        return replace name (.table origin inner) ms

/-- Adds an entry to an open table. A dotted key ends in a table that dotted keys brought about. -/
def addEntry (ms : Members) (e : Entry) : Option Members :=
  descend true (fun origin ms =>
    if !e.path.isEmpty && origin != .dotted then none
    else
      match find? e.name ms with
      | some _ => none
      | none => some (ms ++ [(e.name, .value e.value)])) e.path .header ms

def addEntries (ms : Members) (entries : List Entry) : Option Members :=
  entries.foldlM addEntry ms

/-- Adds a header with its entries. A table that was only implied so far is opened, and then stands
last among its siblings. -/
def addSection (root : Members) (s : Section) : Option Members :=
  descend false (fun _ ms =>
    if s.repeated then do
      let table ← addEntries [] s.entries
      match find? s.name ms with
      | none => return ms ++ [(s.name, .series table [])]
      | some (.series last earlier) => return replace s.name (.series table (last :: earlier)) ms
      | some _ => none
    else do
      let inner ← match find? s.name ms with
        | none => some []
        | some (.table .implied inner) => some inner
        | some _ => none
      let table ← addEntries inner s.entries
      return erase s.name ms ++ [(s.name, .table .header table)]) s.path .header root

end Members

mutual

def Node.toValue : Node → Value
  | .value v => v
  | .table _ ms => .object (memberValues ms)
  | .series last earlier => .array (seriesValues earlier [.object (memberValues last)])

def memberValues : List (String × Node) → List (Name × Value)
  | [] => []
  | (k, n) :: rest => (k, n.toValue) :: memberValues rest

/-- The earlier tables of a series before those in `later`. -/
def seriesValues : List (List (String × Node)) → List Value → List Value
  | [], later => later
  | t :: earlier, later => seriesValues earlier (.object (memberValues t) :: later)

end

/-- The table that the leading entries and the sections make up. -/
def assemble? (entries : List Entry) (sections : List Section) : Option Value := do
  let root ← Members.addEntries [] entries
  let root ← sections.foldlM Members.addSection root
  return .object (memberValues root)

end WifiAdvisor.Document.Toml
