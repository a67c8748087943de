import Mathlib.Data.List.Basic
import WifiAdvisor.Store.Database

/-!
# A database can be opened again

Opening makes directories and, if there is none, the file; what was made is found the next time,
and changing the rows of a database hides nothing on the way to it. So a name that leads back to the
database once it is there always does, and a plain path leads back.
-/
namespace WifiAdvisor

open Store (Rows)

/-! ### The path above a name -/

namespace Path

theorem not_mem_splitOnP {p : Char → Bool} {l : List Char} :
    ∀ piece ∈ l.splitOnP p, ∀ c ∈ piece, p c = false := by
  induction l with
  | nil => simp
  | cons x rest ih =>
    rw [List.splitOnP_cons_eq_if_modifyHead]
    split
    · intro piece h
      rcases List.mem_cons.mp h with rfl | h
      · simp
      · exact ih piece h
    · rename_i hx
      cases hs : rest.splitOnP p with
      | nil => exact (List.splitOnP_ne_nil p rest hs).elim
      | cons first others =>
        rw [hs] at ih
        intro piece h c hc
        rcases List.mem_cons.mp h with rfl | h
        · rcases List.mem_cons.mp hc with rfl | hc
          · exact Bool.eq_false_iff.mpr hx
          · exact ih first List.mem_cons_self c hc
        · exact ih piece (List.mem_cons_of_mem _ h) c hc

theorem slash_not_mem_pieces {path piece : String} (h : piece ∈ pieces path) :
    '/' ∉ piece.toList := by
  obtain ⟨l, hl, rfl⟩ := List.mem_map.mp h
  intro hc
  rw [String.toList_ofList] at hc
  cases not_mem_splitOnP l hl '/' hc

theorem pieces_intercalate {ps : List String} (hne : ps ≠ []) (h : ∀ p ∈ ps, '/' ∉ p.toList) :
    pieces ("/".intercalate ps) = ps := by
  have hslash : "/".toList = ['/'] := rfl
  rw [pieces, String.toList_intercalate, hslash, List.splitOn_intercalate]
  · simp
  · simpa using h
  · simpa using hne

theorem names_intercalate {ps : List String} (h : ∀ p ∈ ps, '/' ∉ p.toList) :
    names ("/".intercalate ps) = ps.filter (!isIdle ·) := by
  by_cases hne : ps = []
  · subst hne
    rfl
  · rw [names, pieces_intercalate hne h]

theorem filter_dropWhile (p : String → Bool) (l : List String) :
    (l.dropWhile p).filter (!p ·) = l.filter (!p ·) := by
  induction l with
  | nil => rfl
  | cons x rest ih => cases hx : p x <;> simp [hx, ih]

theorem filter_drop_one_dropWhile (p : String → Bool) (l : List String) :
    ((l.dropWhile p).drop 1).filter (!p ·) = (l.filter (!p ·)).drop 1 := by
  induction l with
  | nil => rfl
  | cons x rest ih =>
    cases hx : p x with
    | false => simp [hx]
    | true => simpa [hx] using ih

/-- Above a path are its names but the last. -/
theorem names_parent (path : String) : names (parent path) = (names path).dropLast := by
  have hpieces : ∀ p ∈ ((((pieces path).reverse.dropWhile isIdle).drop 1).dropWhile isIdle).reverse,
      '/' ∉ p.toList := by
    intro p hp
    have hmem := (List.dropWhile_sublist _).mem (List.mem_reverse.mp hp)
    have hrest := (List.dropWhile_sublist _).mem ((List.drop_sublist 1 _).mem hmem)
    exact slash_not_mem_pieces (List.mem_reverse.mp hrest)
  rw [parent, names_intercalate hpieces, List.filter_reverse, filter_dropWhile,
    filter_drop_one_dropWhile, List.filter_reverse, List.drop_one, List.tail_reverse,
    List.reverse_reverse]
  rfl

end Path

/-! ### Directories on the way -/

def FileNode.isDirectory : FileNode → Bool
  | .directory => true
  | _ => false

namespace FileTree

variable {t u : FileTree} {p q : Place} {name : String} {names : List String} {node : FileNode}

/-- Names lead from `p` through directories only. -/
inductive Passable (t : FileTree) : Place → List String → Prop
  | nil (p : Place) : Passable t p []
  | cons {p : Place} {name : String} {rest : List String} :
      name.utf8ByteSize ≤ Path.nameLimit → t.node? (p.enter name) = some .directory →
      Passable t (p.enter name) rest → Passable t p (name :: rest)

theorem node?_put_self (h : t.node? p ≠ some .directory) (node : FileNode) :
    (t.put p node).node? p = some node := by
  unfold node? at h ⊢
  split at h
  · exact (h rfl).elim
  · rename_i hhome
    rw [put, if_neg hhome, SortedMap.find?_insert_self]

theorem node?_put_of_ne (h : q ≠ p) (node : FileNode) : (t.put p node).node? q = t.node? q := by
  simp only [node?, put, SortedMap.find?_insert_of_ne _ h]

theorem directory_put (hq : t.node? q = some .directory) (h : t.node? p ≠ some .directory) :
    (t.put p node).node? q = some .directory := by
  have hne : q ≠ p := by
    rintro rfl
    exact h hq
  rw [node?_put_of_ne hne, hq]

theorem Passable.put (h : t.Passable p names) (hq : t.node? q ≠ some .directory) :
    (t.put q node).Passable p names := by
  induction h with
  | nil p => exact .nil p
  | cons hlimit hhere _ ih => exact .cons hlimit (directory_put hhere hq) ih

theorem makeDirectories_home (t : FileTree) (p : Place) (names : List String) :
    (t.makeDirectories p names).1.home = t.home := by
  induction names generalizing t p with
  | nil => rfl
  | cons name rest ih =>
    unfold makeDirectories
    dsimp only
    split
    · rfl
    · split
      · exact ih t _
      · rfl
      · exact ih _ _

/-- A directory that is there stays. -/
theorem directory_makeDirectories (hq : t.node? q = some .directory) (p : Place)
    (names : List String) : (t.makeDirectories p names).1.node? q = some .directory := by
  induction names generalizing t p with
  | nil => exact hq
  | cons name rest ih =>
    unfold makeDirectories
    dsimp only
    split
    · exact hq
    · split
      · exact ih hq _
      · exact hq
      · rename_i hnone
        exact ih (directory_put hq (by rw [hnone]; simp)) _

theorem passable_of_makeDirectories (h : t.makeDirectories p names = (u, .ok ())) :
    u.Passable p names := by
  induction names generalizing t p with
  | nil => exact .nil p
  | cons name rest ih =>
    unfold makeDirectories at h
    dsimp only at h
    split at h
    · cases h
    · rename_i hlimit
      have hsize : name.utf8ByteSize ≤ Path.nameLimit := Nat.le_of_not_lt hlimit
      split at h
      · rename_i hhere
        have hkept := directory_makeDirectories hhere (p.enter name) rest
        rw [h] at hkept
        exact .cons hsize hkept (ih h)
      · cases h
      · rename_i hnone
        have hmade := node?_put_self (t := t) (p := p.enter name) (by rw [hnone]; simp) .directory
        have hkept := directory_makeDirectories hmade (p.enter name) rest
        rw [h] at hkept
        exact .cons hsize hkept (ih h)

theorem makeDirectories_of_passable (h : t.Passable p names) :
    t.makeDirectories p names = (t, .ok ()) := by
  induction h with
  | nil p => rfl
  | cons hlimit hhere _ ih => simp [makeDirectories, Nat.not_lt.mpr hlimit, hhere, ih]

/-! ### Trees that differ in what files hold -/

/-- The same directories, and files at the same places. -/
structure Alike (t u : FileTree) : Prop where
  home : t.home = u.home
  nodes : ∀ p, (t.node? p).map FileNode.isDirectory = (u.node? p).map FileNode.isDirectory

theorem approach_alike (h : Alike t u) (p : Place) (name : String) :
    t.approach p name = u.approach p name := by
  have hp := h.nodes p
  unfold approach
  cases ht : t.node? p with
  | none =>
    cases hu : u.node? p with
    | none => rfl
    | some b => simp [ht, hu] at hp
  | some a =>
    cases hu : u.node? p with
    | none => simp [ht, hu] at hp
    | some b => cases a <;> cases b <;> simp_all [FileNode.isDirectory]

theorem databasePlace_alike (h : Alike t u) (path : String) :
    t.databasePlace path = u.databasePlace path := by
  have happroach : t.approach = u.approach := by
    funext p name
    exact approach_alike h p name
  rw [databasePlace, databasePlace, happroach, origin, origin, h.home]

theorem follow_alike (h : Alike t u) (p : Place) (names : List String) :
    (t.follow p names).map FileNode.isDirectory = (u.follow p names).map FileNode.isDirectory := by
  induction names generalizing p with
  | nil =>
    have hp := h.nodes p
    cases ht : t.node? p <;> cases hu : u.node? p <;> simp_all [follow, Except.map]
  | cons name rest ih =>
    have hp := h.nodes p
    unfold follow
    cases ht : t.node? p with
    | none =>
      cases hu : u.node? p with
      | none => rfl
      | some b => simp [ht, hu] at hp
    | some a =>
      cases hu : u.node? p with
      | none => simp [ht, hu] at hp
      | some b =>
        cases a <;> cases b <;> simp_all [FileNode.isDirectory]
        split <;> simp [ih]

theorem lookup_alike (h : Alike t u) (path : String) :
    (t.lookup path).isOk = (u.lookup path).isOk := by
  have hf := follow_alike h (u.origin path) (Path.names path)
  have ho : t.origin path = u.origin path := by rw [origin, origin, h.home]
  unfold lookup
  rw [ho]
  split
  · rfl
  · split
    · rfl
    · cases ht : t.follow (u.origin path) (Path.names path) with
      | error why =>
        cases hu : u.follow (u.origin path) (Path.names path) with
        | error other => rfl
        | ok b => simp [ht, hu, Except.map] at hf
      | ok a =>
        cases hu : u.follow (u.origin path) (Path.names path) with
        | error other => simp [ht, hu, Except.map] at hf
        | ok b =>
          rw [ht, hu] at hf
          cases a <;> cases b <;> simp_all [Except.map, FileNode.isDirectory] <;>
            split <;> rfl

theorem alike_put_rows {rows : Rows} (h : t.node? p = some (.database rows)) (other : Rows) :
    Alike t (t.put p (.database other)) where
  home := rfl
  nodes q := by
    by_cases hq : q = p
    · subst q
      rw [node?_put_self (by rw [h]; simp), h]
      rfl
    · rw [node?_put_of_ne hq]

/-! ### What opening finds and leaves -/

variable {v : FileTree} {a : Store.Address} {d : Database} {mode : Store.Mode} {writable : Bool}

theorem makeParents_ok (h : t.makeParents name = (u, .ok ())) :
    Path.defect? (Path.parent name) = none ∧
      u.Passable (u.origin name) (Path.names (Path.parent name)) := by
  unfold makeParents at h
  dsimp only at h
  split at h
  · cases h
  · rename_i hdefect
    have hhome := t.makeDirectories_home (t.origin name) (Path.names (Path.parent name))
    rw [h] at hhome
    have horigin : u.origin name = t.origin name := by
      rw [origin, origin, hhome]
    refine ⟨hdefect, ?_⟩
    rw [horigin]
    exact passable_of_makeDirectories h

theorem openDatabase_ok (h : t.openDatabase name = (u, .ok d)) :
    ∃ v a, t.makeParents name = (v, .ok ()) ∧ name.toList.contains '\x00' = false ∧
      Store.Address.ofName? name = some a ∧ v.openAddress a = (u, .ok d) := by
  unfold openDatabase at h
  split at h
  · cases h
  · rename_i v hparents
    split at h
    · cases h
    · rename_i hnul
      split at h
      · cases h
      · rename_i a ha
        exact ⟨v, a, hparents, Bool.eq_false_iff.mpr hnul, ha, h⟩

theorem openAddress_ok (h : t.openAddress a = (u, .ok d)) (hp : d.place = some p) :
    a.isTemporary = false ∧
      ∃ q, t.databasePlace a.path = .ok q ∧
        (a.model.all fun path => (t.lookup path).isOk) = true ∧
        t.openPlace q a.mode a.isWritable = (u, .ok d) := by
  unfold openAddress at h
  split at h
  · -- A temporary database is at no place.
    have hd : d = .temporary := by
      split at h
      · exact (Except.ok.inj (Prod.mk.inj h).2).symm
      · cases h
    rw [hd] at hp
    cases hp
  · rename_i htemporary
    refine ⟨Bool.eq_false_iff.mpr htemporary, ?_⟩
    split at h
    · cases h
    · rename_i q hq
      split at h
      · rename_i hmodel
        exact ⟨q, hq, hmodel, h⟩
      · cases h

/-- What an open database finds at its place, and what opening did to the tree for that. -/
structure Opened (t u : FileTree) (p : Place) (writable : Bool) (d : Database) : Prop where
  place : d.place = some p
  writable : d.writable = writable
  rows : u.node? p = some (.database d.rows)
  before : t.node? p ≠ some .directory
  after : (t.node? p = some (.database d.rows) ∧ u = t) ∨
    (∀ rows, t.node? p ≠ some (.database rows)) ∧
      (u = t.put p (.database {}) ∨ u = (t.put p (.text "")).put p (.database {}))

theorem setUp_ok (h : t.setUp p writable = (u, .ok d)) :
    u = t.put p (.database {}) ∧ d = { place := some p } ∧ writable = true := by
  unfold setUp at h
  dsimp only at h
  split at h
  · cases h
  · rename_i hwritable
    split at h
    · cases h
    · obtain ⟨hu, hd⟩ := Prod.mk.inj h
      exact ⟨hu.symm, (Except.ok.inj hd).symm, by simpa using hwritable⟩

theorem openPlace_ok (h : t.openPlace p mode writable = (u, .ok d)) : Opened t u p writable d := by
  unfold openPlace at h
  split at h
  · cases h
  · rename_i rows hrows
    obtain ⟨rfl, hd⟩ := Prod.mk.inj h
    cases Except.ok.inj hd
    exact ⟨rfl, rfl, hrows, by rw [hrows]; simp, .inl ⟨hrows, rfl⟩⟩
  · rename_i content htext
    split at h
    · cases h
    · obtain ⟨rfl, rfl, rfl⟩ := setUp_ok h
      have hfile : t.node? p ≠ some .directory := by rw [htext]; simp
      exact ⟨rfl, rfl, node?_put_self hfile _, hfile, .inr ⟨by rw [htext]; simp, .inl rfl⟩⟩
  · rename_i hnone
    split at h
    · obtain ⟨rfl, rfl, rfl⟩ := setUp_ok h
      have hfile : t.node? p ≠ some .directory := by rw [hnone]; simp
      have hempty : (t.put p (.text "")).node? p ≠ some .directory := by
        rw [node?_put_self hfile]; simp
      exact ⟨rfl, rfl, node?_put_self hempty _, hfile, .inr ⟨by rw [hnone]; simp, .inr rfl⟩⟩
    · cases h

theorem Opened.directory (h : Opened t u p writable d) (hq : t.node? q = some .directory) :
    u.node? q = some .directory := by
  rcases h.after with ⟨-, rfl⟩ | ⟨-, rfl | rfl⟩
  · exact hq
  · exact directory_put hq h.before
  · refine directory_put (directory_put hq h.before) ?_
    rw [node?_put_self h.before]
    simp

theorem Opened.home (h : Opened t u p writable d) : u.home = t.home := by
  rcases h.after with ⟨-, rfl⟩ | ⟨-, rfl | rfl⟩ <;> rfl

theorem Passable.mono (h : t.Passable p names)
    (hmono : ∀ q, t.node? q = some .directory → u.node? q = some .directory) :
    u.Passable p names := by
  induction h with
  | nil p => exact .nil p
  | cons hlimit hhere _ ih => exact .cons hlimit (hmono _ hhere) ih

/-! ### Names that lead to a database -/

/-- Whatever is done to the rows at `p`, opening `name` leads there and makes nothing. -/
structure Leads (t : FileTree) (name : String) (a : Store.Address) (p : Place) : Prop where
  clean : Path.defect? (Path.parent name) = none
  parents : t.Passable (t.origin name) (Path.names (Path.parent name))
  spelled : name.toList.contains '\x00' = false
  address : Store.Address.ofName? name = some a
  named : a.isTemporary = false
  place : t.databasePlace a.path = .ok p
  model : (a.model.all fun path => (t.lookup path).isOk) = true

theorem Leads.openDatabase {rows : Rows} (h : Leads t name a p)
    (hp : t.node? p = some (.database rows)) :
    t.openDatabase name = (t, .ok { place := some p, rows, writable := a.isWritable }) := by
  have hparents : t.makeParents name = (t, .ok ()) := by
    delta makeParents
    simp only [h.clean]
    exact makeDirectories_of_passable h.parents
  have hopen : t.openAddress a = (t, .ok { place := some p, rows, writable := a.isWritable }) := by
    simp [openAddress, h.named, h.place, h.model, openPlace, hp]
  delta FileTree.openDatabase
  simp only [hparents, h.address]
  rw [if_neg (Bool.eq_false_iff.mp h.spelled), hopen]

theorem Leads.put {rows : Rows} (h : Leads t name a p) (hp : t.node? p = some (.database rows))
    (other : Rows) : Leads (t.put p (.database other)) name a p := by
  have halike := alike_put_rows hp other
  refine ⟨h.clean, ?_, h.spelled, h.address, h.named, ?_, ?_⟩
  · exact h.parents.put (by rw [hp]; simp)
  · rw [← databasePlace_alike halike]
    exact h.place
  · simp only [← lookup_alike halike]
    exact h.model

/-- Along directories only the path decides where a database is. -/
theorem approach_passable (ht : t.node? p = some .directory) (hu : u.node? p = some .directory)
    (name : String) : t.approach p name = u.approach p name := by
  simp only [approach, ht, hu]

theorem approach_next (h : t.approach p name = .ok q) : q = p.enter name := by
  unfold approach at h
  dsimp only at h
  split at h
  · exact (Except.ok.inj h).symm
  · split at h
    · cases h
    · split at h
      · split at h
        · cases h
        · exact (Except.ok.inj h).symm
      · cases h
      · exact (Except.ok.inj h).symm

theorem foldlM_approach_passable (last : String) (ht : t.Passable p names)
    (hu : u.Passable p names) (htp : t.node? p = some .directory)
    (hup : u.node? p = some .directory) :
    (names ++ [last]).foldlM t.approach p = (names ++ [last]).foldlM u.approach p := by
  induction names generalizing p with
  | nil => simp [approach_passable htp hup]
  | cons name rest ih =>
    obtain _ | ⟨-, hthere, htrest⟩ := ht
    obtain _ | ⟨-, huhere, hurest⟩ := hu
    rw [List.cons_append, List.foldlM_cons, List.foldlM_cons, approach_passable htp hup]
    cases hnext : u.approach p name with
    | error e => rfl
    | ok next =>
      cases approach_next hnext
      exact ih htrest hurest hthere huhere

theorem node?_origin (t : FileTree) (path : String) :
    t.node? (t.origin path) = some .directory := by
  unfold origin
  split <;> simp [node?]

theorem databasePlace_passable (hhome : u.home = t.home)
    (ht : t.Passable (t.origin name) (Path.names (Path.parent name)))
    (hu : u.Passable (u.origin name) (Path.names (Path.parent name))) :
    t.databasePlace name = u.databasePlace name := by
  have horigin : u.origin name = t.origin name := by rw [origin, origin, hhome]
  rw [Path.names_parent] at ht hu
  rw [databasePlace, databasePlace, horigin]
  congr 1
  rcases List.eq_nil_or_concat (Path.names name) with hnil | ⟨init, last, hnames⟩
  · simp [hnil]
  · rw [List.concat_eq_append] at hnames
    rw [hnames, List.dropLast_concat] at ht hu
    rw [hnames]
    have htp := t.node?_origin name
    have hup := u.node?_origin name
    rw [horigin] at hu hup
    exact foldlM_approach_passable last ht hu htp hup

/-- The name leads back to the database that was opened under it: it is a plain path, or to open
it once more, right away, gives the same. -/
def LeadsBack (u : FileTree) (name : String) (d : Database) : Prop :=
  Store.Address.ofName? name = some { path := name } ∨ u.openDatabase name = (u, .ok d)

theorem leads_of_open (h : t.openDatabase name = (u, .ok d)) (hp : d.place = some p)
    (hback : u.LeadsBack name d) :
    ∃ a, Leads u name a p ∧ u.node? p = some (.database d.rows) ∧ d.writable = a.isWritable := by
  obtain ⟨v, a, hparents, hnul, ha, hopen⟩ := openDatabase_ok h
  obtain ⟨hdefect, hpassable⟩ := makeParents_ok hparents
  obtain ⟨hnamed, q, hq, hmodel, hplace⟩ := openAddress_ok hopen hp
  have hopened := openPlace_ok hplace
  cases Option.some.inj (hp.symm.trans hopened.place)
  have hfound : u.Passable (u.origin name) (Path.names (Path.parent name)) := by
    have horigin : u.origin name = v.origin name := by rw [origin, origin, hopened.home]
    rw [horigin]
    exact hpassable.mono fun _ => hopened.directory
  refine ⟨a, ?_, hopened.rows, hopened.writable⟩
  rcases hback with hplain | hagain
  · cases Option.some.inj (ha.symm.trans hplain)
    refine ⟨hdefect, hfound, hnul, ha, hnamed, ?_, rfl⟩
    rw [← databasePlace_passable hopened.home hpassable hfound]
    exact hq
  · obtain ⟨w, b, hparents', -, hb, hopen'⟩ := openDatabase_ok hagain
    cases Option.some.inj (ha.symm.trans hb)
    have hsame : u.makeParents name = (u, .ok ()) := by
      delta makeParents
      simp only [hdefect]
      exact makeDirectories_of_passable hfound
    cases hparents'.symm.trans hsame
    obtain ⟨-, q', hq', hmodel', hplace'⟩ := openAddress_ok hopen' hp
    cases Option.some.inj (hp.symm.trans (openPlace_ok hplace').place)
    exact ⟨hdefect, hfound, hnul, ha, hnamed, hq', hmodel'⟩

end FileTree

end WifiAdvisor
