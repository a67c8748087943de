/-!
Sets of network names that are not to be recommended. The names are kept in strictly ascending
code-point order, so a set has exactly one representation whatever its history.
-/

namespace WifiAdvisor

structure Blocklist where
  ssids : List String
  ascending : ssids.Pairwise (· < ·)
  deriving DecidableEq

namespace Blocklist

def empty : Blocklist := ⟨[], .nil⟩

instance : EmptyCollection Blocklist := ⟨empty⟩
instance : Inhabited Blocklist := ⟨∅⟩
instance : Repr Blocklist := ⟨fun b => reprPrec b.ssids⟩

@[ext] theorem ext {b c : Blocklist} (h : b.ssids = c.ssids) : b = c := by
  cases b; cases c; cases h; rfl

instance : Membership String Blocklist := ⟨fun b s => s ∈ b.ssids⟩

instance (s : String) (b : Blocklist) : Decidable (s ∈ b) :=
  inferInstanceAs (Decidable (s ∈ b.ssids))

def contains (b : Blocklist) (s : String) : Bool := decide (s ∈ b)

def size (b : Blocklist) : Nat := b.ssids.length

def isEmpty (b : Blocklist) : Bool := b.ssids.isEmpty

def toList (b : Blocklist) : List String := b.ssids

/-- Puts a name in its place unless it is there. -/
def place (s : String) : List String → List String
  | [] => [s]
  | x :: rest => if s < x then s :: x :: rest else if s = x then x :: rest else x :: place s rest

theorem mem_place {s t : String} {l : List String} : t ∈ place s l ↔ t = s ∨ t ∈ l := by
  induction l with
  | nil => simp [place]
  | cons x rest ih =>
    simp only [place]
    split
    · simp
    · split
      · rename_i h
        subst h
        simp
      · simp only [List.mem_cons, ih]
        constructor <;> rintro (h | h | h) <;> simp [h]

theorem pairwise_place (s : String) {l : List String} (h : l.Pairwise (· < ·)) :
    (place s l).Pairwise (· < ·) := by
  induction l with
  | nil => simp [place]
  | cons x rest ih =>
    obtain ⟨hx, hrest⟩ := List.pairwise_cons.1 h
    simp only [place]
    split
    · rename_i hs
      refine List.pairwise_cons.2 ⟨fun t ht => ?_, h⟩
      rcases List.mem_cons.1 ht with rfl | ht
      · exact hs
      · exact String.lt_trans hs (hx t ht)
    · split
      · exact h
      · rename_i hlt hne
        refine List.pairwise_cons.2 ⟨fun t ht => ?_, ih hrest⟩
        rcases mem_place.1 ht with rfl | ht
        · exact Std.not_le.1 fun hle => hne (Std.le_antisymm hle (Std.not_lt.1 hlt))
        · exact hx t ht

def insert (b : Blocklist) (s : String) : Blocklist :=
  ⟨place s b.ssids, pairwise_place s b.ascending⟩

def erase (b : Blocklist) (s : String) : Blocklist :=
  ⟨b.ssids.filter (· ≠ s), b.ascending.filter _⟩

def merge (b : Blocklist) (names : List String) : Blocklist := names.foldl insert b

def ofList (names : List String) : Blocklist := (∅ : Blocklist).merge names

def add (b : Blocklist) (s : String) : Bool × Blocklist := (!b.contains s, b.insert s)

def remove (b : Blocklist) (s : String) : Bool × Blocklist := (b.contains s, b.erase s)

def absorb (b : Blocklist) (names : List String) : Nat × Blocklist :=
  let merged := b.merge names
  (merged.size - b.size, merged)

theorem mem_def {s : String} {b : Blocklist} : s ∈ b ↔ s ∈ b.ssids := Iff.rfl

@[simp] theorem contains_iff {b : Blocklist} {s : String} : b.contains s = true ↔ s ∈ b := by
  simp [contains]

@[simp] theorem not_mem_empty (s : String) : s ∉ (∅ : Blocklist) := by
  simp [mem_def, EmptyCollection.emptyCollection, empty]

@[simp] theorem mem_insert {b : Blocklist} {s t : String} : t ∈ b.insert s ↔ t = s ∨ t ∈ b :=
  mem_place

@[simp] theorem mem_erase {b : Blocklist} {s t : String} : t ∈ b.erase s ↔ t ≠ s ∧ t ∈ b := by
  simp [mem_def, erase, and_comm]

@[simp] theorem mem_merge {b : Blocklist} {names : List String} {t : String} :
    t ∈ b.merge names ↔ t ∈ b ∨ t ∈ names := by
  induction names generalizing b with
  | nil => simp [merge]
  | cons x rest ih =>
    have : b.merge (x :: rest) = (b.insert x).merge rest := rfl
    rw [this, ih, mem_insert, List.mem_cons, or_assoc, or_left_comm]

@[simp] theorem mem_toList {b : Blocklist} {s : String} : s ∈ b.toList ↔ s ∈ b := Iff.rfl

@[simp] theorem mem_ofList {names : List String} {s : String} : s ∈ ofList names ↔ s ∈ names := by
  simp [ofList]

theorem nodup (b : Blocklist) : b.toList.Nodup := by
  refine b.ascending.imp fun {s t} hlt heq => ?_
  subst heq
  exact String.lt_irrefl s hlt

/-- Sets with the same members are the same set, whatever was done to make them. -/
theorem eq_of_mem_iff {b c : Blocklist} (h : ∀ s, s ∈ b ↔ s ∈ c) : b = c := by
  have perm : b.ssids.Perm c.ssids := (List.perm_ext_iff_of_nodup b.nodup c.nodup).2 h
  exact ext (perm.eq_of_pairwise (fun s t _ _ hst hts => (String.lt_asymm hst hts).elim)
    b.ascending c.ascending)

theorem merge_toList (b : Blocklist) : (∅ : Blocklist).merge b.toList = b :=
  eq_of_mem_iff fun s => by simp [toList, ← mem_def]

end Blocklist

end WifiAdvisor
