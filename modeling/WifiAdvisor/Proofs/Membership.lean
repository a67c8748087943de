import Mathlib.Data.Set.Card
import WifiAdvisor.Blocklist

/-!
# A set of names is its members

However a set came about, it lists its members in ascending order, each once; a name is a member if
the latest change that was about it put it in; and sets with the same members are equal. So what a
set reports of a change, its size and what it lists depend on nothing but its members.
-/
namespace WifiAdvisor.Blocklist

variable {b c : Blocklist} {s t : String}

/-! ### The order of names -/

def codePoints (s : String) : List Nat := s.toList.map Char.toNat

theorem map_toNat_lt_iff {l m : List Char} : l.map Char.toNat < m.map Char.toNat ↔ l < m := by
  induction l generalizing m with
  | nil => cases m <;> simp
  | cons x l ih =>
    cases m with
    | nil => simp
    | cons y m =>
      have hlt : x.toNat < y.toNat ↔ x < y := Iff.rfl
      have heq : x.toNat = y.toNat ↔ x = y := Char.toNat_inj
      rw [List.map_cons, List.map_cons, List.cons_lt_cons_iff, List.cons_lt_cons_iff, ih, hlt, heq]

theorem codePoints_lt_iff : codePoints s < codePoints t ↔ s < t :=
  map_toNat_lt_iff

/-! ### Sizes -/

theorem size_le_of_subset (h : ∀ s ∈ b, s ∈ c) : b.size ≤ c.size :=
  (b.nodup.subperm h).length_le

theorem size_eq_ncard (b : Blocklist) : b.size = {s | b.contains s = true}.ncard := by
  have hmembers : {s | b.contains s = true} = (b.toList.toFinset : Set String) := by
    ext s
    simp
  rw [hmembers, Set.ncard_coe_finset, List.toFinset_card_of_nodup b.nodup]
  rfl

/-! ### Reports -/

theorem insert_eq_self_iff : b.insert s = b ↔ s ∈ b := by
  constructor
  · intro h
    rw [← h]
    exact mem_insert.mpr (.inl rfl)
  · intro h
    refine eq_of_mem_iff fun t => ?_
    rw [mem_insert, or_iff_right_iff_imp]
    rintro rfl
    exact h

theorem erase_eq_self_iff : b.erase s = b ↔ s ∉ b := by
  constructor
  · intro h
    rw [← h]
    simp
  · intro h
    refine eq_of_mem_iff fun t => ?_
    rw [mem_erase, and_iff_right_iff_imp]
    rintro ht rfl
    exact h ht

theorem add_reports (b : Blocklist) (s : String) : (b.add s).1 = true ↔ (b.add s).2 ≠ b := by
  simp [add, contains, insert_eq_self_iff]

theorem remove_reports (b : Blocklist) (s : String) :
    (b.remove s).1 = true ↔ (b.remove s).2 ≠ b := by
  simp [remove, erase_eq_self_iff]

theorem absorb_reports (b : Blocklist) (names : List String) :
    (b.absorb names).2.size = b.size + (b.absorb names).1 := by
  have hle : b.size ≤ (b.merge names).size :=
    size_le_of_subset fun s hs => mem_merge.mpr (.inl hs)
  simp only [absorb]
  omega

/-! ### Changes in a row -/

/-- What can be done to a set. -/
inductive Change where
  | add (ssid : String)
  | remove (ssid : String)
  | merge (ssids : List String)

namespace Change

/-- The names that a change is about. -/
def names : Change → List String
  | .add ssid => [ssid]
  | .remove ssid => [ssid]
  | .merge ssids => ssids

/-- The change puts in the names that it is about. -/
def inserts : Change → Bool
  | .remove _ => false
  | _ => true

end Change

def next (b : Blocklist) : Change → Blocklist
  | .add ssid => (b.add ssid).2
  | .remove ssid => (b.remove ssid).2
  | .merge ssids => (b.absorb ssids).2

/-- The set after changes, the latest first. -/
def after (b : Blocklist) : List Change → Blocklist
  | [] => b
  | change :: past => (b.after past).next change

/-- The latest of the changes that were about a name. -/
def latest (s : String) (past : List Change) : Option Change :=
  past.find? fun change => s ∈ change.names

theorem eq_iff_contains : b = c ↔ ∀ s, b.contains s = c.contains s := by
  constructor
  · rintro rfl s
    rfl
  · intro h
    refine eq_of_mem_iff fun s => ?_
    rw [← contains_iff, ← contains_iff, h]

theorem contains_absorb (b : Blocklist) (names : List String) (s : String) :
    (b.absorb names).2.contains s = (b.contains s || decide (s ∈ names)) := by
  rw [Bool.eq_iff_iff]
  simp [absorb]

theorem mem_next (b : Blocklist) (change : Change) (s : String) :
    s ∈ b.next change ↔ if s ∈ change.names then change.inserts = true else s ∈ b := by
  cases change with
  | add ssid => by_cases h : s = ssid <;> simp [next, add, Change.names, Change.inserts, h]
  | remove ssid => by_cases h : s = ssid <;> simp [next, remove, Change.names, Change.inserts, h]
  | merge ssids => by_cases h : s ∈ ssids <;> simp [next, absorb, Change.names, Change.inserts, h]

/-- The names a set begins with were put in by a merge before all changes. -/
theorem mem_after (initial : List String) (past : List Change) (s : String) :
    s ∈ (ofList initial).after past ↔
      ∃ change, latest s (past ++ [.merge initial]) = some change ∧ change.inserts = true := by
  induction past with
  | nil => by_cases h : s ∈ initial <;> simp [after, latest, Change.names, Change.inserts, h]
  | cons change past ih =>
    rw [after, mem_next, List.cons_append, latest, List.find?_cons]
    by_cases h : s ∈ change.names
    · simp [h]
    · rw [if_neg h, decide_eq_false h]
      exact ih

/-- After any changes to any list of names: members are listed in ascending order of their code
points; a name is one if the latest change that was about it put it in, where the initial list
counts as the first; additions and removals report whether they made a difference, merges by how
much the set grew, and the size is the number of members. Sets with the same members are equal,
and so a saved set that is merged in, in whatever order, gives the union, as it does the other way
round. -/
theorem determined_by_members (initial : List String) (past : List Change) :
    let b := (ofList initial).after past
    b.toList.Pairwise (fun s t => codePoints s < codePoints t) ∧
    (∀ s, b.contains s = true ↔
      ∃ change, latest s (past ++ [.merge initial]) = some change ∧ change.inserts = true) ∧
    (∀ s, ((b.add s).1 = true ↔ (b.add s).2 ≠ b) ∧ ((b.remove s).1 = true ↔ (b.remove s).2 ≠ b)) ∧
    (∀ names, (b.absorb names).2.size = b.size + (b.absorb names).1) ∧
    b.size = {s | b.contains s = true}.ncard ∧
    (∀ c : Blocklist, b = c ↔ ∀ s, b.contains s = c.contains s) ∧
    ∀ (saved : Blocklist) (names : List String), (∀ s, s ∈ names ↔ s ∈ saved) →
      (b.absorb names).2 = (saved.absorb b.toList).2 ∧
        ∀ s, (b.absorb names).2.contains s = (b.contains s || saved.contains s) := by
  intro b
  refine ⟨?_, ?_, ?_, b.absorb_reports, b.size_eq_ncard, fun c => eq_iff_contains, ?_⟩
  · exact b.ascending.imp codePoints_lt_iff.mpr
  · intro s
    rw [contains_iff]
    exact mem_after initial past s
  · exact fun s => ⟨b.add_reports s, b.remove_reports s⟩
  · intro saved names hnames
    have hunion : ∀ s, (b.absorb names).2.contains s = (b.contains s || saved.contains s) := by
      intro s
      rw [contains_absorb, decide_eq_decide.mpr (hnames s), contains]
      rfl
    refine ⟨eq_iff_contains.mpr fun s => ?_, hunion⟩
    rw [hunion, contains_absorb, Bool.or_comm]
    rfl

namespace Attic

/-- A network is dismissed, then connected to, and dismissed again among others. -/
def past : List Change := [.merge ["loft", "attic", "loft"], .remove "loft", .add "loft"]

def saved : Blocklist := .ofList ["tower", "loft"]

end Attic

open Attic in
theorem determined_by_members_after_merge :
    let b := (ofList ["attic"]).after past
    b = ofList ["loft", "attic"] ∧ latest "loft" past = some (.merge ["loft", "attic", "loft"]) ∧
      b.size = {s | b.contains s = true}.ncard ∧
      (b.absorb ["tower", "loft", "tower"]).1 = 1 ∧
      (b.absorb ["tower", "loft", "tower"]).2 = (saved.absorb b.toList).2 := by
  intro b
  have hnames : ∀ s, s ∈ ["tower", "loft", "tower"] ↔ s ∈ saved := by
    intro s
    simp only [saved, mem_ofList, List.mem_cons, List.not_mem_nil, or_false]
    tauto
  obtain ⟨-, -, -, -, hsize, -, hsaved⟩ := determined_by_members ["attic"] past
  exact ⟨by decide, rfl, hsize, by decide, (hsaved saved _ hnames).1⟩

end WifiAdvisor.Blocklist
