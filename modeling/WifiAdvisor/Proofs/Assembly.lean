import WifiAdvisor.Proofs.ReadBack
import WifiAdvisor.Document.Toml.Table

/-!
# Tables are put together from their sections

A header opens a table under a fresh name, or the next table of a series; whatever its path leads
through stays the same but for the table at its end. So the sections of a table, put under its name,
do to it from above what they do to it alone.
-/
namespace WifiAdvisor.Document.Toml

/-- The section as it is told from further up. -/
def Section.under (path : List String) (s : Section) : Section := { s with path := path ++ s.path }

theorem Section.under_under (s : Section) (path inner : List String) :
    (s.under inner).under path = s.under (path ++ inner) := by
  simp [Section.under]

namespace Members

variable {root inner inner' : Members} {k : String} {node node' : Node}

/-- No member has that name. -/
def Misses (root : Members) (k : String) : Prop := k ∉ root.map Prod.fst

theorem find?_of_misses (h : Misses root k) : find? k root = none := by
  induction root with
  | nil => rfl
  | cons m root ih =>
    rw [Misses, List.map_cons, List.mem_cons, not_or] at h
    rw [find?, if_neg (Ne.symm h.1)]
    exact ih h.2

theorem find?_last (h : Misses root k) : find? k (root ++ [(k, node)]) = some node := by
  induction root with
  | nil => simp [find?]
  | cons m root ih =>
    rw [Misses, List.map_cons, List.mem_cons, not_or] at h
    rw [List.cons_append, find?, if_neg (Ne.symm h.1)]
    exact ih h.2

theorem replace_last (h : Misses root k) :
    replace k node' (root ++ [(k, node)]) = root ++ [(k, node')] := by
  have hroot : root.map (fun m => if m.1 = k then (k, node') else m) = root := by
    refine (List.map_congr_left fun m hm => if_neg ?_).trans (List.map_id root)
    rintro rfl
    exact h (List.mem_map_of_mem hm)
  simp [replace, hroot]

theorem erase_of_misses (h : Misses root k) : erase k root = root := by
  refine List.filter_eq_self.2 fun m hm => ?_
  have hne : m.1 ≠ k := by
    rintro rfl
    exact h (List.mem_map_of_mem hm)
  simpa using hne

/-- What a section does to the table its header stands in. -/
def opening (s : Section) (ms : Members) : Option Members := addSection ms { s with path := [] }

/-- Where a path starts from shows only if it ends there, and the header does not look at it. -/
theorem descend_opening (s : Section) (path : List String) (origin : Origin) (ms : Members) :
    descend false (fun _ => opening s) path origin ms =
      addSection ms { s with path := path } := by
  cases path <;> rfl

variable {s : Section}

theorem addSection_under (s : Section) (k : String) (root : Members) :
    addSection root (s.under [k]) =
      descend false (fun _ => opening s) (k :: s.path) .header root := rfl

theorem addSection_table (h : Misses root k) (origin : Origin) :
    addSection (root ++ [(k, .table origin inner)]) (s.under [k]) =
      (addSection inner s).map fun inner' => root ++ [(k, .table origin inner')] := by
  rw [addSection_under, descend, find?_last h]
  simp only [descend_opening, replace_last h, Option.map_eq_bind]
  rfl

theorem addSection_series (h : Misses root k) {last : Members} {earlier : List Members} :
    addSection (root ++ [(k, .series last earlier)]) (s.under [k]) =
      (addSection last s).map fun last' => root ++ [(k, .series last' earlier)] := by
  rw [addSection_under, descend, find?_last h]
  simp only [descend_opening, replace_last h, Option.map_eq_bind]
  rfl

theorem addSection_fresh (h : Misses root k) :
    addSection root (s.under [k]) =
      (addSection [] s).map fun inner => root ++ [(k, .table .implied inner)] := by
  rw [addSection_under, descend, find?_of_misses h]
  simp only [descend_opening, Option.map_eq_bind]
  rfl

/-! ### The sections of one table -/

variable {ss : List Section}

/-- If each section does to a table from above what it does to it alone, so do all of them. -/
theorem foldlM_under (around : Members → Members)
    (hstep : ∀ s ms, addSection (around ms) (s.under [k]) = (addSection ms s).map around)
    (hss : ss.foldlM addSection inner = some inner') :
    (ss.map (Section.under [k])).foldlM addSection (around inner) = some (around inner') := by
  induction ss generalizing inner with
  | nil =>
    cases hss
    rfl
  | cons s ss ih =>
    obtain ⟨mid, hs, hss⟩ := Option.bind_eq_some_iff.1 hss
    rw [List.map_cons, List.foldlM_cons, hstep, hs]
    exact ih hss

theorem foldlM_table (h : Misses root k) (origin : Origin)
    (hss : ss.foldlM addSection inner = some inner') :
    (ss.map (Section.under [k])).foldlM addSection (root ++ [(k, .table origin inner)]) =
      some (root ++ [(k, .table origin inner')]) :=
  foldlM_under (fun ms => root ++ [(k, .table origin ms)])
    (fun _ _ => addSection_table h origin) hss

theorem foldlM_series (h : Misses root k) {last last' : Members} {earlier : List Members}
    (hss : ss.foldlM addSection last = some last') :
    (ss.map (Section.under [k])).foldlM addSection (root ++ [(k, .series last earlier)]) =
      some (root ++ [(k, .series last' earlier)]) :=
  foldlM_under (fun ms => root ++ [(k, .series ms earlier)]) (fun _ _ => addSection_series h) hss

/-- A table without a header of its own is implied by the first section in it. -/
theorem foldlM_implied (h : Misses root k) (hne : ss ≠ [])
    (hss : ss.foldlM addSection [] = some inner') :
    (ss.map (Section.under [k])).foldlM addSection root =
      some (root ++ [(k, .table .implied inner')]) := by
  obtain ⟨s, ss, rfl⟩ := List.exists_cons_of_ne_nil hne
  obtain ⟨mid, hs, hss⟩ := Option.bind_eq_some_iff.1 hss
  rw [List.map_cons, List.foldlM_cons, addSection_fresh h, hs]
  exact foldlM_table h .implied hss

/-! ### Headers -/

theorem addEntry_flat {e : Entry} (he : e.path = []) {ms : Members} (h : Misses ms e.name) :
    addEntry ms e = some (ms ++ [(e.name, .value e.value)]) := by
  obtain ⟨path, name, v⟩ := e
  cases he
  simp [addEntry, descend, find?_of_misses h]

theorem addEntries_flat {entries : List Entry} (hflat : ∀ e ∈ entries, e.path = []) {ms : Members}
    (hnames : (ms.map Prod.fst ++ entries.map Entry.name).Nodup) :
    addEntries ms entries = some (ms ++ entries.map fun e => (e.name, .value e.value)) := by
  induction entries generalizing ms with
  | nil => simp [addEntries]
  | cons e entries ih =>
    obtain ⟨he, hflat⟩ := List.forall_mem_cons.1 hflat
    have hfresh : Misses ms e.name := by
      intro hmem
      rw [List.nodup_append'] at hnames
      exact hnames.2.2 hmem List.mem_cons_self
    have hnext : addEntries (ms ++ [(e.name, .value e.value)]) entries =
        some (ms ++ [(e.name, .value e.value)] ++ entries.map fun e => (e.name, .value e.value)) :=
      ih hflat (by simpa using hnames)
    rw [addEntries] at hnext ⊢
    rw [List.foldlM_cons, addEntry_flat he hfresh]
    simpa using hnext

theorem addSection_header (h : Misses root k) {entries : List Entry}
    (hentries : addEntries [] entries = some inner) :
    addSection root ⟨[], k, false, entries⟩ = some (root ++ [(k, .table .header inner)]) := by
  simp [addSection, descend, find?_of_misses h, erase_of_misses h, hentries]

/-- The node of a series with these tables in this order. -/
def seriesNode (tables : List Members) : Node :=
  match tables.reverse with
  | [] => .series [] []
  | last :: earlier => .series last earlier

theorem seriesNode_concat (tables : List Members) (last : Members) :
    seriesNode (tables ++ [last]) = .series last tables.reverse := by
  simp [seriesNode]

/-- A table with a series at its end; a series without tables is not there yet. -/
def withSeries (root : Members) (k : String) (tables : List Members) : Members :=
  if tables.isEmpty then root else root ++ [(k, seriesNode tables)]

theorem withSeries_concat (root : Members) (k : String) (tables : List Members) (last : Members) :
    withSeries root k (tables ++ [last]) = root ++ [(k, .series last tables.reverse)] := by
  simp [withSeries, seriesNode_concat]

theorem addSection_repeated (h : Misses root k) (tables : List Members) {entries : List Entry}
    (hentries : addEntries [] entries = some inner) :
    addSection (withSeries root k tables) ⟨[], k, true, entries⟩ =
      some (withSeries root k (tables ++ [inner])) := by
  rw [withSeries_concat]
  rcases List.eq_nil_or_concat' tables with rfl | ⟨tables, last, rfl⟩
  · simp [addSection, descend, withSeries, find?_of_misses h, hentries]
  · rw [withSeries_concat]
    simp [addSection, descend, find?_last h, replace_last h, hentries]

/-- The header of a table in a series, and the sections of that table. -/
theorem foldlM_element (h : Misses root k) (tables : List Members) {entries : List Entry}
    (hentries : addEntries [] entries = some inner)
    (hss : ss.foldlM addSection inner = some inner') :
    (⟨[], k, true, entries⟩ :: ss.map (Section.under [k])).foldlM addSection
        (withSeries root k tables) = some (withSeries root k (tables ++ [inner'])) := by
  rw [List.foldlM_cons, addSection_repeated h tables hentries, withSeries_concat, withSeries_concat]
  exact foldlM_series h hss

/-- The header of a table, and the sections of that table. -/
theorem foldlM_headed (h : Misses root k) {entries : List Entry}
    (hentries : addEntries [] entries = some inner)
    (hss : ss.foldlM addSection inner = some inner') :
    (⟨[], k, false, entries⟩ :: ss.map (Section.under [k])).foldlM addSection root =
      some (root ++ [(k, .table .header inner')]) := by
  rw [List.foldlM_cons, addSection_header h hentries]
  exact foldlM_table h .header hss

end Members

/-! ### The value of a table -/

def valuesOf (ms : Members) : List (String × Value) := ms.map fun m => (m.1, m.2.toValue)

@[simp] theorem valuesOf_cons (k : String) (node : Node) (ms : Members) :
    valuesOf ((k, node) :: ms) = (k, node.toValue) :: valuesOf ms := rfl

@[simp] theorem valuesOf_append (ms ms' : Members) :
    valuesOf (ms ++ ms') = valuesOf ms ++ valuesOf ms' := List.map_append

theorem memberValues_eq (ms : Members) : memberValues ms = plain (valuesOf ms) := by
  induction ms with
  | nil => rfl
  | cons m ms ih =>
    obtain ⟨k, node⟩ := m
    rw [memberValues, ih, valuesOf_cons, plain_cons]

theorem seriesValues_eq (earlier : List Members) (later : List Value) :
    seriesValues earlier later =
      (earlier.reverse.map fun ms => .object (memberValues ms)) ++ later := by
  induction earlier generalizing later with
  | nil => rfl
  | cons ms earlier ih => simp [seriesValues, ih]

theorem seriesNode_toValue {tables : List Members} (hne : tables ≠ []) :
    (Members.seriesNode tables).toValue =
      .array (tables.map fun ms => .object (memberValues ms)) := by
  obtain ⟨tables, last, rfl⟩ := (List.eq_nil_or_concat' tables).resolve_left hne
  rw [Members.seriesNode_concat, Node.toValue, seriesValues_eq]
  simp

end WifiAdvisor.Document.Toml
