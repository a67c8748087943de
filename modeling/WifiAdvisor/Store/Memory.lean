import WifiAdvisor.Blocklist
import WifiAdvisor.SortedMap
/-!
Named sets of network names kept in memory. A key never saved holds the empty set.
-/

namespace WifiAdvisor.Store

structure Memory where
  sets : SortedMap String Blocklist := ∅
  /-- How many saves there have been. -/
  saves : Nat := 0
  deriving DecidableEq, Inhabited

namespace Memory

/-- A store filled by an earlier process. -/
def ofSets (sets : List (String × List String)) : Memory :=
  { sets := .ofList (sets.map fun s => (s.1, Blocklist.ofList s.2)) }

def load (m : Memory) (key : String) : Blocklist := m.sets.findD key ∅

/-- Puts a set under a key without counting it as a save. -/
def fill (m : Memory) (key : String) (set : Blocklist) : Memory :=
  { m with sets := m.sets.insert key set }

def save (m : Memory) (key : String) (set : Blocklist) : Memory :=
  { m.fill key set with saves := m.saves + 1 }

@[simp] theorem load_save_self (m : Memory) (key : String) (set : Blocklist) :
    (m.save key set).load key = set := by
  simp [save, fill, load, SortedMap.findD]

theorem load_save_of_ne (m : Memory) {key other : String} (h : other ≠ key) (set : Blocklist) :
    (m.save key set).load other = m.load other := by
  simp [save, fill, load, SortedMap.findD, SortedMap.find?_insert_of_ne _ h]

end Memory

end WifiAdvisor.Store
