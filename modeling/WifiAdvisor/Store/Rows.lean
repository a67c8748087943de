import WifiAdvisor.Blocklist
import WifiAdvisor.Failure
import WifiAdvisor.Time
/-!
Named sets of network names kept as rows of a table, one row for each name in each set, with the
pair of key and name as primary key. A set is replaced as a whole: the rows of its key are deleted
and one row for each new name is inserted, which fails if the primary key is taken.
-/

namespace WifiAdvisor.Store

structure Row where
  key : String
  ssid : String
  updatedAt : Millis
  deriving DecidableEq, Inhabited, Repr

structure Rows where
  rows : List Row := []
  deriving DecidableEq, Inhabited, Repr

namespace Rows

def taken (t : Rows) (key ssid : String) : Bool :=
  t.rows.any fun r => r.key = key && r.ssid = ssid

def insert (t : Rows) (r : Row) : Except StoreFailure Rows :=
  if t.taken r.key r.ssid then .error (.backend "UNIQUE constraint failed: ssid_sets.set_key")
  else .ok ⟨t.rows ++ [r]⟩

/-- Deletes the rows that satisfy `p` and says how many they were. -/
def deleteWhere (t : Rows) (p : Row → Bool) : Nat × Rows :=
  (t.rows.countP p, ⟨t.rows.filter fun r => !p r⟩)

def loadSet (t : Rows) (key : String) : Blocklist :=
  .ofList ((t.rows.filter (·.key = key)).map Row.ssid)

/-- Keys with at least one row, each once, in ascending order. -/
def keys (t : Rows) : List String := (Blocklist.ofList (t.rows.map Row.key)).toList

def replaceSet (t : Rows) (now : Millis) (key : String) (set : Blocklist) :
    Except StoreFailure Rows :=
  set.toList.foldlM (fun t ssid => t.insert { key, ssid, updatedAt := now })
    (t.deleteWhere (·.key = key)).2

def removeMember (t : Rows) (key ssid : String) : Bool × Rows :=
  let (n, t) := t.deleteWhere fun r => r.key = key && r.ssid = ssid
  (n != 0, t)

def clearSet (t : Rows) (key : String) : Nat × Rows := t.deleteWhere (·.key = key)

/-- The sets as a list of key and name, by key and then by name. -/
def listing (t : Rows) (keys : List String) : List (String × String) :=
  keys.flatMap fun key => (t.loadSet key).toList.map fun ssid => (key, ssid)

end Rows

end WifiAdvisor.Store
