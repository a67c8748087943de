import WifiAdvisor.FileTree
import WifiAdvisor.Store.Address
/-!
Databases in files. Opening one makes the directories above it, creates the file if it is missing
and sets up its table if the file is empty; each of these stays even if the next one fails.
-/

namespace WifiAdvisor

structure Database where
  /-- Where the rows are kept; those of a temporary database are kept nowhere. -/
  place : Option Place := none
  rows : Store.Rows := {}
  writable : Bool := true
  deriving DecidableEq, Inhabited, Repr

namespace Database

/-- A database that nobody else can see. -/
def temporary : Database := {}

def readOnly : StoreFailure := .backend "attempt to write a readonly database"

def unopened : StoreFailure := .backend "unable to open database file"

def write (d : Database) (rows : Store.Rows) : Except StoreFailure Database :=
  if d.writable then .ok { d with rows } else .error readOnly

/-- Follows the name of the journal, the file that guards a change while it is being made. -/
def journalSuffix : String := "-journal"

/-- The bytes that a full path and its end have to stay below. -/
def pathBound : Nat := 512

def pathSize (p : Place) : Nat := p.foldl (fun n name => n + name.utf8ByteSize + 1) 0

end Database

namespace FileTree

open Database (readOnly unopened)

/-- One name further on the way to a database. A name that could not be there is refused, one that
merely is not there is passed by. -/
def approach (t : FileTree) (p : Place) (name : String) : Except StoreFailure Place :=
  let next := p.enter name
  if name = ".." then .ok next
  else if Database.pathBound ≤ Database.pathSize next then .error unopened
  else
    match t.node? p with
    | some .directory => if Path.nameLimit < name.utf8ByteSize then .error unopened else .ok next
    | some _ => .error unopened
    | none => .ok next

/-- The place of a database, with room for the name of its journal. -/
def databasePlace (t : FileTree) (path : String) : Except StoreFailure Place := do
  let p ← (Path.names path).foldlM t.approach (t.origin path)
  let size := Database.pathSize p + Database.journalSuffix.utf8ByteSize
  if p = [] || Database.pathBound < size then .error unopened else .ok p

/-- Sets up the table of an empty database, for which there has to be a journal. -/
def setUp (t : FileTree) (p : Place) (writable : Bool) : FileTree × Except StoreFailure Database :=
  let journal := p.getLast?.getD "" ++ Database.journalSuffix
  if !writable then (t, .error readOnly)
  else if Path.nameLimit < journal.utf8ByteSize then (t, .error unopened)
  else (t.put p (.database {}), .ok { place := some p })

/-- Opens what stands at a place. A file of at most one byte counts as empty. -/
def openPlace (t : FileTree) (p : Place) (mode : Store.Mode) (writable : Bool) :
    FileTree × Except StoreFailure Database :=
  match t.node? p with
  | some .directory => (t, .error unopened)
  | some (.database rows) => (t, .ok { place := some p, rows, writable })
  | some (.text content) =>
    if 1 < content.utf8ByteSize then (t, .error (.backend "file is not a database"))
    else t.setUp p writable
  | none =>
    if mode = .create && t.node? p.dropLast = some .directory then
      (t.put p (.text "")).setUp p writable
    else (t, .error unopened)

def openAddress (t : FileTree) (a : Store.Address) : FileTree × Except StoreFailure Database :=
  if a.isTemporary then (t, if a.isWritable then .ok .temporary else .error readOnly)
  else
    match t.databasePlace a.path with
    | .error e => (t, .error e)
    | .ok p =>
      if a.model.all fun path => (t.lookup path).isOk then t.openPlace p a.mode a.isWritable
      else (t, .error unopened)

/-- Opens the database that a name spells. The directories are those above the name as it stands,
even where the address leads elsewhere. -/
def openDatabase (t : FileTree) (name : String) : FileTree × Except StoreFailure Database :=
  match t.makeParents name with
  | (t, .error why) => (t, .error (.io why.message))
  | (t, .ok ()) =>
    if name.toList.contains '\x00' then (t, .error (.backend Obstacle.nullCharacter.message))
    else
      match Store.Address.ofName? name with
      | none => (t, .error (.backend "invalid address"))
      | some a => t.openAddress a

def keep (t : FileTree) (d : Database) : FileTree :=
  match d.place with
  | some p => t.put p (.database d.rows)
  | none => t

end FileTree

end WifiAdvisor
