import Mathlib.Data.List.Nodup
import Mathlib.Data.List.Perm.Basic
import WifiAdvisor.Proofs.Ledger
import WifiAdvisor.Proofs.Silence

/-!
# The numbers of networks

The networks of a run are numbered one after the other, whichever advisors add them. Each number is
given to one advisor only, which books it under its nominator.
-/
namespace WifiAdvisor

open Effect

/-! ### What a run shows -/

def Demand.record? : Demand → Option Record
  | .emit record => some record
  | _ => none

/-- The records among demands, in order. -/
def emitted (demands : List Demand) : List Record := demands.filterMap Demand.record?

def Record.added? : Record → Option NetworkId
  | .networkAdded id _ _ => some id
  | _ => none

/-- The numbers of the networks that are added, in the order of the records. -/
def added (records : List Record) : List NetworkId := records.filterMap Record.added?

@[simp] theorem emitted_append (front back : List Demand) :
    emitted (front ++ back) = emitted front ++ emitted back := List.filterMap_append

@[simp] theorem added_append (front back : List Record) :
    added (front ++ back) = added front ++ added back := List.filterMap_append

theorem added_emitted_calls (index : Nat) (tag : String) (calls : List Effect) :
    added (emitted (calls.filterMap (Dispatcher.demand? index tag))) = numbers calls := by
  rw [added, emitted, List.filterMap_filterMap, List.filterMap_filterMap, numbers]
  congr 1
  funext c
  cases c with
  | add config owner answer => cases answer <;> rfl
  | _ => rfl

theorem emitted_flatMap {α : Type} (f : α → List Demand) (l : List α) :
    emitted (l.flatMap f) = l.flatMap fun x => emitted (f x) := by
  induction l with
  | nil => rfl
  | cons x rest ih => rw [List.flatMap_cons, List.flatMap_cons, emitted_append, ih]

theorem added_flatMap {α : Type} (f : α → List Record) (l : List α) :
    added (l.flatMap f) = l.flatMap fun x => added (f x) := by
  induction l with
  | nil => rfl
  | cons x rest ih => rw [List.flatMap_cons, List.flatMap_cons, added_append, ih]

/-! ### One number after the other -/

/-- As many numbers as `count`, from `first` on. -/
def consecutive (first : NetworkId) (count : Nat) : List NetworkId :=
  (List.range count).map fun k => first + Int32.ofNat k

theorem consecutive_append (first : NetworkId) (m n : Nat) :
    consecutive first m ++ consecutive (first + Int32.ofNat m) n = consecutive first (m + n) := by
  have hshift (k : Nat) :
      first + Int32.ofNat m + Int32.ofNat k = first + Int32.ofNat (m + k) := by
    rw [Int32.ofNat_add, Int32.add_assoc]
  simp [consecutive, List.range_add, Function.comp_def, hshift]

theorem consecutive_one (first : NetworkId) : consecutive first 1 = [first] := by
  simp [consecutive]

/-- Up to the largest number of all, the numbers from one on are what they seem. -/
theorem toInt_consecutive {count : Nat} (h : count < 2 ^ 31 - 1) :
    (consecutive 1 count).map Int32.toInt =
      (List.range count).map fun k : Nat => (k : Int) + 1 := by
  rw [consecutive, List.map_map]
  apply List.map_congr_left
  intro k hk
  rw [List.mem_range] at hk
  have hone : (1 : Int32) + Int32.ofNat k = Int32.ofNat (1 + k) := (Int32.ofNat_add 1 k).symm
  have hvalue : (Int32.ofNat (1 + k)).toInt = (1 + k : Nat) := Int32.toInt_ofNat_of_lt (by omega)
  rw [Function.comp_apply, hone, hvalue]
  omega

theorem nodup_consecutive {count : Nat} (h : count < 2 ^ 31 - 1) :
    (consecutive 1 count).Nodup := by
  apply List.Nodup.of_map Int32.toInt
  rw [toInt_consecutive h]
  apply List.nodup_range.map
  intro j k hjk
  have hvalues : (j : Int) + 1 = (k : Int) + 1 := hjk
  omega

theorem mem_consecutive {count : Nat} (h : count < 2 ^ 31 - 1) {id : NetworkId} :
    id ∈ consecutive 1 count ↔ 1 ≤ id.toInt ∧ id.toInt ≤ count := by
  have hmem : id ∈ consecutive 1 count ↔ id.toInt ∈ (consecutive 1 count).map Int32.toInt := by
    constructor
    · exact List.mem_map_of_mem
    · intro hid
      obtain ⟨other, hother, heq⟩ := List.mem_map.mp hid
      rwa [← Int32.toInt_inj.mp heq]
  rw [hmem, toInt_consecutive h, List.mem_map]
  constructor
  · rintro ⟨k, hk, heq⟩
    rw [List.mem_range] at hk
    omega
  · rintro ⟨hlow, hhigh⟩
    refine ⟨id.toInt.toNat - 1, List.mem_range.mpr (by omega), by omega⟩

namespace Dispatcher

theorem additions_eq_length (calls : List Effect) :
    additions calls = (numbers calls).length := by
  induction calls with
  | nil => rfl
  | cons c rest ih =>
    rw [numbers, view_cons, List.length_append, ← numbers, ← ih, additions, List.countP_cons,
      Nat.add_comm]
    congr 1
    cases c with
    | add config owner answer => cases answer <;> rfl
    | _ => rfl

variable {d : Dispatcher} {past : List Entry}

theorem turn_numbers (d : Dispatcher) (now : Millis) (event? : Option Event) (a : Advisor)
    (next : NetworkId) :
    let given := numbers (d.turn now event? a next).2
    given = consecutive next given.length := by
  cases event? with
  | none => rfl
  | some event =>
    have hoffers := numbers_eq_offers
      (a.step ({ d with nextNetwork := next }.surroundings now) event).2
    simp only [turn, hoffers]
    cases Advisor.step_attempt ({ d with nextNetwork := next }.surroundings now) a event with
    | accepted held config id _ _ _ ha hb _ =>
      rw [hb.offered, ha]
      cases Except.ok.inj ha
      exact (consecutive_one next).symm
    | refused held config rejection _ _ _ ha _ _ => cases ha
    | unconfigured held _ _ _ hf =>
      rw [hf.offered]
      rfl
    | other _ hq =>
      rw [hq.offers]
      rfl

theorem turnsFrom_numbers (d : Dispatcher) (now : Millis) (choose : Nat → Advisor → Option Event)
    (index : Nat) (as : List Advisor) (next : NetworkId) :
    let turns := d.turnsFrom now choose index as next
    let given := turns.flatMap fun r => numbers r.2
    given = consecutive next given.length ∧
      numbered next turns = next + Int32.ofNat given.length := by
  induction as generalizing index next with
  | nil => exact ⟨rfl, (Int32.add_zero next).symm⟩
  | cons a rest ih =>
    have hfirst := d.turn_numbers now (choose index a) a next
    obtain ⟨hrest, hnext⟩ := ih (index + 1)
      (next + Int32.ofNat (additions (d.turn now (choose index a) a next).2))
    simp only [turnsFrom, List.flatMap_cons, List.length_append, numbered, List.foldl_cons]
    rw [additions_eq_length] at hrest hnext ⊢
    refine ⟨?_, ?_⟩
    · rw [← consecutive_append, ← hfirst, ← hrest]
    · rw [Int32.ofNat_add, ← Int32.add_assoc]
      exact hnext

theorem turns_length (d : Dispatcher) (e : Entry) : (d.turns e).length = d.advisors.length := by
  have hlength := congrArg List.length (dispatch_roster d e)
  rw [dispatch_eq] at hlength
  simpa using hlength

theorem dispatch_added (d : Dispatcher) (e : Entry) :
    added (emitted (d.dispatch e.now e.queued).2.2) = (d.turns e).flatMap fun r => numbers r.2 := by
  have hdumped : added (emitted (dumped d.advisors e)) = [] := by
    unfold dumped
    split <;> rfl
  have hturns : ((d.turns e).zipIdx.flatMap fun r => numbers r.1.2) =
      (d.turns e).flatMap fun r => numbers r.2 := by
    have hmap := List.flatMap_map (f := Prod.fst)
      (g := fun r : Advisor × List Effect => numbers r.2)
      (l := (d.turns e).zipIdx)
    rw [List.zipIdx_map_fst] at hmap
    exact hmap.symm
  rw [dispatch_eq]
  simp only [emitted_append, added_append, hdumped, List.nil_append, emitted_flatMap,
    added_flatMap, asked, added_emitted_calls, hturns]

/-- However many advisors add networks, and on whatever entries: the numbers follow each other. -/
theorem demands_added (d : Dispatcher) (past : List Entry) :
    let given := added (emitted (d.demands past))
    given = consecutive d.nextNetwork given.length ∧
      (d.after past).nextNetwork = d.nextNetwork + Int32.ofNat given.length := by
  induction past with
  | nil => exact ⟨rfl, (Int32.add_zero d.nextNetwork).symm⟩
  | cons e past ih =>
    obtain ⟨hpast, hnext⟩ := ih
    obtain ⟨hgiven, hnumbered⟩ := { d.after past with
        settings := e.queued.toggled (d.after past).settings }.turnsFrom_numbers e.now
      ((d.after past).chosen e.queued) 0 (d.after past).advisors (d.after past).nextNetwork
    have hafter : (d.after (e :: past)).nextNetwork =
        numbered (d.after past).nextNetwork ((d.after past).turns e) := by
      rw [after_cons, dispatch_eq]
    simp only [demands, emitted_append, added_append, dispatch_added, List.length_append]
    refine ⟨?_, ?_⟩
    · rw [← consecutive_append, ← hpast, ← hnext]
      exact congrArg _ hgiven
    · rw [hafter, Int32.ofNat_add, ← Int32.add_assoc, ← hnext]
      exact hnumbered

/-! ### Who was given which number -/

theorem flatMap_eq_range {α β : Type} (f : α → List β) (l : List α) :
    l.flatMap f = (List.range l.length).flatMap fun i => l[i]?.elim [] f := by
  rw [List.flatMap_def, List.flatMap_def]
  congr 1
  apply List.ext_getElem
  · simp
  · intro i hi _
    rw [List.length_map] at hi
    simp [List.getElem?_eq_getElem hi]

/-- The numbers of a run are those given to its advisors, each counted once. -/
theorem added_perm (d : Dispatcher) (past : List Entry) :
    (added (emitted (d.demands past))).Perm
      ((List.range d.advisors.length).flatMap fun i => d.numbersOf i past) := by
  induction past with
  | nil => simp [demands, emitted, added, numbersOf]
  | cons e past ih =>
    have hlength : (d.after past).advisors.length = d.advisors.length := by
      simpa using congrArg List.length (after_roster d past)
    have hnew : added (emitted ((d.after past).dispatch e.now e.queued).2.2) =
        (List.range d.advisors.length).flatMap fun i => numbers ((d.after past).callsOf i e) := by
      rw [dispatch_added, flatMap_eq_range, turns_length, hlength]
      apply List.flatMap_congr
      intro i _
      rw [callsOf]
      cases ((d.after past).turns e)[i]? <;> rfl
    rw [demands, emitted_append, added_append, hnew]
    exact (ih.append_right _).trans (List.flatMap_append_perm _ _ _)

/-- An advisor that began without nominations has booked just what it was given. -/
theorem nominators_after {index : Nat}
    (hbegan : ∀ a, d.advisors[index]? = some a → ∀ id, a.metrics.nominators.find? id = none)
    (past : List Entry) {b : Advisor} (hb : (d.after past).advisors[index]? = some b)
    (id : NetworkId) :
    b.metrics.nominators.find? id =
      if id ∈ d.numbersOf index past then some b.identity.nominator else none := by
  induction past generalizing b with
  | nil => exact hbegan b hb id
  | cons e past ih =>
    have hplaced : index < (d.after past).advisors.length := by
      have hlength := congrArg List.length (dispatch_roster (d.after past) e)
      rw [List.length_map, List.length_map] at hlength
      rw [← hlength]
      exact (List.getElem?_eq_some_iff.mp hb).1
    have ha := List.getElem?_eq_getElem hplaced
    obtain ⟨c, hc, hturn⟩ := turn_cases ha e
    cases Option.some.inj (hb.symm.trans hc)
    have hbefore := ih ha
    cases hturn with
    | passed hr _ =>
      have hsame : b = (d.after past).advisors[index] := congrArg Prod.fst hr
      have hcalls : (d.after past).callsOf index e = [] := congrArg Prod.snd hr
      simp [hsame, numbersOf, hcalls, hbefore]
    | stepped s event hr _ _ =>
      have hstep : b = ((d.after past).advisors[index].step s event).1 := congrArg Prod.fst hr
      have hcalls : (d.after past).callsOf index e =
          ((d.after past).advisors[index].step s event).2 := congrArg Prod.snd hr
      rw [hstep, Advisor.step_nominators, hbefore, Advisor.step_identity, numbersOf, hcalls]
      by_cases hnew : id ∈ numbers ((d.after past).advisors[index].step s event).2
      · rw [if_pos hnew, if_pos (List.mem_append_right _ hnew)]
      · simp [hnew]

end Dispatcher

namespace SortedMap

variable {κ α : Type} [Ord κ] [Std.LawfulEqOrd κ]

theorem mem_keys {m : SortedMap κ α} {k : κ} : k ∈ m.keys ↔ ∃ a, m.find? k = some a := by
  rw [keys, find?]
  induction m.entries with
  | nil => simp [lookup]
  | cons e rest ih =>
    by_cases hk : k = e.1
    · simp [lookup, hk]
    · simpa [lookup, hk] using ih

end SortedMap

end WifiAdvisor
