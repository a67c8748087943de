import WifiAdvisor.SortedMap
import WifiAdvisor.Store.Rows
/-!
The files of a host: directories, texts and databases, and a working directory among them. A path is
followed from the root if it begins with a slash, else from the working directory, a name at a time;
empty names and single points stay where they are, double points go up.
-/

namespace WifiAdvisor

inductive FileNode where
  | directory
  | text (content : String)
  | database (rows : Store.Rows)
  deriving DecidableEq, Inhabited, Repr

inductive Obstacle where
  | missing
  /-- A file stands where a directory would have to be. -/
  | notDirectory
  /-- The path, or a name on it, has more bytes than a file system takes. -/
  | tooLong
  | nullCharacter
  deriving DecidableEq, Inhabited, Repr

def Obstacle.message : Obstacle → String
  | .missing => "no such file or directory"
  | .notDirectory => "not a directory"
  | .tooLong => "file name too long"
  | .nullCharacter => "null character in path"

/-- The names that lead from the root to a file or a directory. -/
abbrev Place := List String

namespace Place

/-- One name further down, or up; nothing is above the root. -/
def enter (p : Place) (name : String) : Place := if name = ".." then p.dropLast else p ++ [name]

def path (p : Place) : String := "/" ++ "/".intercalate p

end Place

namespace Path

def limit : Nat := 4095

def nameLimit : Nat := 255

def pieces (path : String) : List String := (path.toList.splitOn '/').map String.ofList

/-- Whether a piece stays where it is. -/
def isIdle (piece : String) : Bool := piece = "" || piece = "."

def names (path : String) : List String := (pieces path).filter (!isIdle ·)

def isRooted (path : String) : Bool := path.toList.head? = some '/'

/-- Whether a path can only stand for a directory. -/
def asksDirectory (path : String) : Bool := (pieces path).getLast?.any isIdle

/-- The path up to its last name. -/
def parent (path : String) : String :=
  let rest := ((pieces path).reverse.dropWhile isIdle).drop 1
  "/".intercalate (rest.dropWhile isIdle).reverse

/-- What makes a path impossible whatever files there are. -/
def defect? (path : String) : Option Obstacle :=
  if path.toList.contains '\x00' then some .nullCharacter
  else if limit < path.utf8ByteSize then some .tooLong
  else none

end Path

structure FileTree where
  /-- The working directory; it is there, and so is all above it. -/
  home : Place := []
  nodes : SortedMap Place FileNode := ∅
  deriving DecidableEq, Inhabited

namespace FileTree

def node? (t : FileTree) (p : Place) : Option FileNode :=
  if p.isPrefixOf t.home then some .directory else t.nodes.find? p

def put (t : FileTree) (p : Place) (node : FileNode) : FileTree :=
  { t with nodes := t.nodes.insert p node }

def origin (t : FileTree) (path : String) : Place := if Path.isRooted path then [] else t.home

/-- The places that a path leads through, its own the last. -/
def placesAlong (t : FileTree) (path : String) : List Place :=
  let step := fun ((here, passed) : Place × List Place) name =>
    (here.enter name, passed ++ [here.enter name])
  ((Path.names path).foldl step (t.origin path, [])).2

def follow (t : FileTree) (p : Place) : List String → Except Obstacle FileNode
  | [] =>
    match t.node? p with
    | some node => .ok node
    | none => .error .missing
  | name :: rest =>
    match t.node? p with
    | some .directory =>
      if Path.nameLimit < name.utf8ByteSize then .error .tooLong else t.follow (p.enter name) rest
    | some _ => .error .notDirectory
    | none => .error .missing

def lookup (t : FileTree) (path : String) : Except Obstacle FileNode :=
  match Path.defect? path with
  | some why => .error why
  | none =>
    if path.isEmpty then .error .missing
    else
      match t.follow (t.origin path) (Path.names path) with
      | .ok .directory => .ok .directory
      | .ok node => if Path.asksDirectory path then .error .notDirectory else .ok node
      | .error why => .error why

/-- Makes the directories along names that are not there yet. Those that were made stay if a later
one cannot be made. -/
def makeDirectories (t : FileTree) (p : Place) : List String → FileTree × Except Obstacle Unit
  | [] => (t, .ok ())
  | name :: rest =>
    let here := p.enter name
    if Path.nameLimit < name.utf8ByteSize then (t, .error .tooLong)
    else
      match t.node? here with
      | some .directory => t.makeDirectories here rest
      | some _ => (t, .error .notDirectory)
      | none => (t.put here .directory).makeDirectories here rest

def makeParents (t : FileTree) (path : String) : FileTree × Except Obstacle Unit :=
  let above := Path.parent path
  match Path.defect? above with
  | some why => (t, .error why)
  | none => t.makeDirectories (t.origin path) (Path.names above)

def addText (t : FileTree) (path content : String) : FileTree :=
  let (t, made) := t.makeParents path
  match made, (t.placesAlong path).getLast? with
  | .ok (), some place => t.put place (.text content)
  | _, _ => t

def ofTexts (home : Place) (texts : List (String × String)) : FileTree :=
  texts.foldl (fun t f => t.addText f.1 f.2) { home }

/-- What a path leads to, read as text: `none` if it is something else. -/
def readText (t : FileTree) (path : String) : Except Obstacle (Option String) :=
  (t.lookup path).map fun
    | .text content => some content
    | _ => none

end FileTree

end WifiAdvisor
