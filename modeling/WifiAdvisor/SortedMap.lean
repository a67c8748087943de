/-!
Finite maps kept as a list of entries with strictly ascending keys. Ascending order makes the
representation canonical: two maps with the same look-ups are the same value, so maps can be
compared, stored and written out without a choice of order.
-/

namespace WifiAdvisor

/-- A finite map from `κ` to `α`, entries in strictly ascending key order. -/
structure SortedMap (κ α : Type) [Ord κ] where
  entries : List (κ × α)
  ascending : entries.Pairwise fun a b => compare a.1 b.1 = .lt

namespace SortedMap

variable {κ α : Type} [Ord κ]

def empty : SortedMap κ α := ⟨[], .nil⟩

instance : EmptyCollection (SortedMap κ α) := ⟨empty⟩
instance : Inhabited (SortedMap κ α) := ⟨∅⟩

instance [DecidableEq κ] [DecidableEq α] : DecidableEq (SortedMap κ α) := fun m n =>
  decidable_of_iff (m.entries = n.entries)
    ⟨fun h => by cases m; cases n; cases h; rfl, fun h => h ▸ rfl⟩

@[ext] theorem ext {m n : SortedMap κ α} (h : m.entries = n.entries) : m = n := by
  cases m; cases n; cases h; rfl

def keys (m : SortedMap κ α) : List κ := m.entries.map Prod.fst

def size (m : SortedMap κ α) : Nat := m.entries.length

/-- The value at the first entry whose key compares equal to `k`. -/
def lookup (k : κ) : List (κ × α) → Option α
  | [] => none
  | (x, a) :: rest => if compare k x = .eq then some a else lookup k rest

def find? (m : SortedMap κ α) (k : κ) : Option α := lookup k m.entries

def findD (m : SortedMap κ α) (k : κ) (fallback : α) : α := (m.find? k).getD fallback

/-- Puts an entry in its place, replacing the one that has the same key. -/
def place (k : κ) (a : α) : List (κ × α) → List (κ × α)
  | [] => [(k, a)]
  | (x, b) :: rest =>
    match compare k x with
    | .lt => (k, a) :: (x, b) :: rest
    | .eq => (k, a) :: rest
    | .gt => (x, b) :: place k a rest

theorem mem_place {k : κ} {a : α} {l : List (κ × α)} {e : κ × α} (h : e ∈ place k a l) :
    e = (k, a) ∨ e ∈ l := by
  induction l with
  | nil => simpa [place] using h
  | cons x rest ih =>
    obtain ⟨x, b⟩ := x
    simp only [place] at h
    split at h
    · simpa using h
    · rcases List.mem_cons.1 h with h | h
      · exact .inl h
      · exact .inr (List.mem_cons_of_mem _ h)
    · rcases List.mem_cons.1 h with h | h
      · exact .inr (h ▸ List.mem_cons_self)
      · exact (ih h).imp_right (List.mem_cons_of_mem _)

variable [Std.TransOrd κ] [Std.LawfulEqOrd κ]

theorem pairwise_place (k : κ) (a : α) {l : List (κ × α)}
    (h : l.Pairwise fun a b => compare a.1 b.1 = .lt) :
    (place k a l).Pairwise fun a b => compare a.1 b.1 = .lt := by
  induction l with
  | nil => simp [place]
  | cons x rest ih =>
    obtain ⟨x, b⟩ := x
    obtain ⟨hx, hrest⟩ := List.pairwise_cons.1 h
    simp only [place]
    split
    · rename_i hk
      refine List.pairwise_cons.2 ⟨fun e he => ?_, h⟩
      rcases List.mem_cons.1 he with rfl | he
      · exact hk
      · exact Std.TransCmp.lt_trans hk (hx e he)
    · rename_i hk
      cases Std.LawfulEqOrd.eq_of_compare hk
      exact List.pairwise_cons.2 ⟨hx, hrest⟩
    · rename_i hk
      refine List.pairwise_cons.2 ⟨fun e he => ?_, ih hrest⟩
      rcases mem_place he with rfl | he
      · exact Std.OrientedCmp.gt_iff_lt.1 hk
      · exact hx e he

def insert (m : SortedMap κ α) (k : κ) (a : α) : SortedMap κ α :=
  ⟨place k a m.entries, pairwise_place k a m.ascending⟩

/-- Replaces the value at `k` by what `f` makes of it; `f` also decides what a new entry holds. -/
def alter (m : SortedMap κ α) (k : κ) (f : Option α → α) : SortedMap κ α :=
  m.insert k (f (m.find? k))

omit [Std.TransOrd κ] in
theorem lookup_place_self (k : κ) (a : α) (l : List (κ × α)) : lookup k (place k a l) = some a := by
  induction l with
  | nil => simp [place, lookup]
  | cons x rest ih =>
    obtain ⟨x, b⟩ := x
    simp only [place]
    split
    · simp [lookup]
    · simp [lookup]
    · rename_i hk
      simp [lookup, hk, ih]

omit [Std.TransOrd κ] in
theorem lookup_place_of_ne {k j : κ} (h : j ≠ k) (a : α) (l : List (κ × α)) :
    lookup j (place k a l) = lookup j l := by
  have hjk : compare j k ≠ .eq := fun hc => h (Std.LawfulEqOrd.eq_of_compare hc)
  induction l with
  | nil => simp [place, lookup, hjk]
  | cons x rest ih =>
    obtain ⟨x, b⟩ := x
    simp only [place]
    split
    · simp [lookup, hjk]
    · rename_i hk
      cases Std.LawfulEqOrd.eq_of_compare hk
      simp [lookup, hjk]
    · simp [lookup, ih]

@[simp] theorem find?_insert_self (m : SortedMap κ α) (k : κ) (a : α) :
    (m.insert k a).find? k = some a :=
  lookup_place_self k a m.entries

theorem find?_insert_of_ne (m : SortedMap κ α) {k j : κ} (h : j ≠ k) (a : α) :
    (m.insert k a).find? j = m.find? j :=
  lookup_place_of_ne h a m.entries

omit [Std.TransOrd κ] [Std.LawfulEqOrd κ] in
@[simp] theorem find?_empty (k : κ) : (∅ : SortedMap κ α).find? k = none := rfl

omit [Std.TransOrd κ] [Std.LawfulEqOrd κ] in
theorem lookup_eq_none_of_lt {k : κ} {l : List (κ × α)} (h : ∀ e ∈ l, compare k e.1 = .lt) :
    lookup k l = none := by
  induction l with
  | nil => rfl
  | cons x rest ih =>
    obtain ⟨hx, hrest⟩ := List.forall_mem_cons.1 h
    have hne : compare k x.1 ≠ .eq := by rw [hx]; decide
    rw [lookup, if_neg hne, ih hrest]

@[simp] theorem find?_alter_self (m : SortedMap κ α) (k : κ) (f : Option α → α) :
    (m.alter k f).find? k = some (f (m.find? k)) :=
  find?_insert_self m k _

theorem find?_alter_of_ne (m : SortedMap κ α) {k j : κ} (h : j ≠ k) (f : Option α → α) :
    (m.alter k f).find? j = m.find? j :=
  find?_insert_of_ne m h _

/-- Later entries replace earlier ones with the same key. -/
def ofList (l : List (κ × α)) : SortedMap κ α :=
  l.foldl (fun m e => m.insert e.1 e.2) ∅

end SortedMap

end WifiAdvisor
