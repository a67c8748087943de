import WifiAdvisor.Proofs.Assembly
import WifiAdvisor.Proofs.Lines

/-!
# Documents are read back

A table of scalars, tables and series of tables is printed as entries and sections, and what these
make up is the same table: the values of each table before its tables, otherwise in their order.
-/
namespace WifiAdvisor.Document

/-- The same value but for the order of members. -/
inductive Alike : Value → Value → Prop
  | same (v : Value) : Alike v v
  | array {items items' : List Value} (h : List.Forall₂ Alike items items') :
      Alike (.array items) (.array items')
  | object {ms moved ms' : List (String × Value)} (hmoved : ms.Perm moved)
      (hnames : moved.map Prod.fst = ms'.map Prod.fst)
      (hvalues : List.Forall₂ Alike (moved.map Prod.snd) (ms'.map Prod.snd)) :
      Alike (.object (plain ms)) (.object (plain ms'))

namespace Toml

/-- A value that a document holds, with tables nested less than so deep. -/
inductive Orderly : Nat → Value → Prop
  | scalar {n : Nat} {v : Value} (h : Scalar v) (hroom : inlineValue v = .ok (inlineText v)) :
      Orderly n v
  | table {n : Nat} {ms : List (String × Value)} (hd : (ms.map Prod.fst).Nodup)
      (h : ∀ m ∈ ms, Orderly n m.2) : Orderly (n + 1) (.object (plain ms))
  | series {n : Nat} {tables : List (List (String × Value))} (hne : tables ≠ [])
      (hd : ∀ ms ∈ tables, (ms.map Prod.fst).Nodup) (h : ∀ ms ∈ tables, ∀ m ∈ ms, Orderly n m.2) :
      Orderly (n + 1) (.array (tables.map fun ms => .object (plain ms)))

/-! ### Values and tables -/

/-- Whether a value has sections of its own. -/
def isHeaded (v : Value) : Bool := isTable v || isSeries v

theorem Scalar.isHeaded {v : Value} (h : Scalar v) : isHeaded v = false := by
  cases h <;> rfl

variable {ms : List (String × Value)} {n : Nat} {k : String} {v : Value}

def scalars (ms : List (String × Value)) : List (String × Value) :=
  ms.filter fun m => !isHeaded m.2

def headed (ms : List (String × Value)) : List (String × Value) :=
  ms.filter fun m => isHeaded m.2

theorem perm_scalars_headed (ms : List (String × Value)) : ms.Perm (scalars ms ++ headed ms) := by
  have hperm := List.filter_append_perm (fun m => isHeaded m.2) ms
  exact (List.perm_append_comm.trans hperm).symm

/-- The lines of a table. -/
def linesOf (ms : List (String × Value)) : List Entry :=
  (scalars ms).map fun m => ⟨[], m.1, m.2⟩

theorem Orderly.writable (h : Orderly n v) (hv : isHeaded v = false) :
    Scalar v ∧ inlineValue v = .ok (inlineText v) := by
  cases h with
  | scalar h hroom => exact ⟨h, hroom⟩
  | table hd h => cases hv
  | series hne hd h =>
    rename_i tables
    obtain ⟨ms, tables, rfl⟩ := List.exists_cons_of_ne_nil hne
    simp [isHeaded, isSeries, isTable] at hv

theorem fits_of_mem_linesOf (h : ∀ m ∈ ms, Orderly n m.2) : ∀ e ∈ linesOf ms, e.Fits := by
  intro e he
  obtain ⟨m, hm, rfl⟩ := List.mem_map.1 he
  obtain ⟨hmem, hscalar⟩ := List.mem_filter.1 hm
  obtain ⟨hv, hroom⟩ := (h m hmem).writable (by simpa using hscalar)
  exact ⟨rfl, hv, hroom⟩

theorem valueLines_plain (h : ∀ m ∈ ms, Orderly n m.2) :
    valueLines (plain ms) = .ok ((linesOf ms).flatMap lineText) := by
  induction ms with
  | nil => rfl
  | cons m ms ih =>
    obtain ⟨hm, hms⟩ := List.forall_mem_cons.1 h
    obtain ⟨k, v⟩ := m
    rw [plain_cons, valueLines, ih hms]
    cases hv : isHeaded v with
    | true =>
      have hlines : linesOf ((k, v) :: ms) = linesOf ms := by simp [linesOf, scalars, hv]
      rw [isHeaded] at hv
      simp [hlines, hv, bind, Except.bind, pure, Except.pure]
    | false =>
      have hlines : linesOf ((k, v) :: ms) = ⟨[], k, v⟩ :: linesOf ms := by
        simp [linesOf, scalars, hv]
      have hroom := (hm.writable hv).2
      rw [isHeaded] at hv
      simp [hlines, hv, hroom, lineText, nameText, Name.text, Except.toOption, bind, Except.bind,
        pure, Except.pure]

/-- What the lines of a table make up. -/
def scalarNodes (ms : List (String × Value)) : Members :=
  (scalars ms).map fun m => (m.1, .value m.2)

theorem addEntries_linesOf (hd : (ms.map Prod.fst).Nodup) :
    Members.addEntries [] (linesOf ms) = some (scalarNodes ms) := by
  have hnames : (scalars ms).map Prod.fst = (linesOf ms).map Entry.name := by
    simp [linesOf, Function.comp_def]
  have hnodup : ((linesOf ms).map Entry.name).Nodup :=
    hnames ▸ hd.sublist (List.filter_sublist.map Prod.fst)
  have hflat : ∀ e ∈ linesOf ms, e.path = [] := by
    intro e he
    obtain ⟨m, -, rfl⟩ := List.mem_map.1 he
    rfl
  have hfresh : (([] : Members).map Prod.fst ++ (linesOf ms).map Entry.name).Nodup := hnodup
  rw [Members.addEntries_flat hflat hfresh]
  simp [linesOf, scalarNodes, Function.comp_def]

theorem valuesOf_scalarNodes (ms : List (String × Value)) :
    valuesOf (scalarNodes ms) = scalars ms := by
  simp [valuesOf, scalarNodes, Function.comp_def, Node.toValue]

/-! ### Sections -/

/-- The sections in which a name and its value are laid out, and what they make up. -/
structure Laid (n : Nat) (k : String) (v : Value) (ss : List Section) (node : Node) : Prop where
  nonempty : ss ≠ []
  text : ∀ path, layoutMembers path (plain [(k, v)]) =
    .ok (ss.map fun s => sectionText (s.under path))
  fits : ∀ s ∈ ss, s.path.length < n ∧ ∀ e ∈ s.entries, e.Fits
  adds : ∀ root, Members.Misses root k →
    ss.foldlM Members.addSection root = some (root ++ [(k, node)])
  alike : Alike v node.toValue

/-- The sections of all tables in a table, and what they make up. -/
structure LaidMembers (n : Nat) (ms : List (String × Value)) (ss : List Section)
    (nodes : Members) : Prop where
  nonempty : headed ms ≠ [] → ss ≠ []
  text : ∀ path, layoutMembers path (plain ms) = .ok (ss.map fun s => sectionText (s.under path))
  fits : ∀ s ∈ ss, s.path.length < n ∧ ∀ e ∈ s.entries, e.Fits
  names : (headed ms).map Prod.fst = (valuesOf nodes).map Prod.fst
  adds : ∀ root, (∀ m ∈ headed ms, Members.Misses root m.1) →
    ss.foldlM Members.addSection root = some (root ++ nodes)
  alike : List.Forall₂ Alike ((headed ms).map Prod.snd) ((valuesOf nodes).map Prod.snd)

theorem layoutMembers_cons (path : List String) (m : Name × Value) (ms : List (Name × Value)) :
    layoutMembers path (m :: ms) = (layoutMembers path [m] >>= fun l =>
      layoutMembers path ms >>= fun after => .ok (l ++ after)) := by
  have hassoc (x y : Except OutOfRange (List (List Char))) :
      (x >>= fun l => y >>= fun after => pure (l ++ after)) =
        ((x >>= fun l => Except.ok [] >>= fun after => pure (l ++ after)) >>= fun l =>
          y >>= fun after => .ok (l ++ after)) := by
    cases x with
    | error e => rfl
    | ok l => cases y <;> simp [bind, Except.bind, pure, Except.pure]
  obtain ⟨k, v⟩ := m
  cases v with
  | array items ending =>
    simp only [layoutMembers]
    split <;> exact hassoc _ _
  | _ => exact hassoc _ _

theorem layoutMembers_scalar (hv : isHeaded v = false) (path : List String) :
    layoutMembers path (plain [(k, v)]) = .ok [] := by
  rw [isHeaded, Bool.or_eq_false_iff] at hv
  rw [plain_cons]
  cases v with
  | object members ending => simp [isTable] at hv
  | array items ending => simp [layoutMembers, hv, plain, bind, Except.bind, pure, Except.pure]
  | _ => rfl

theorem LaidMembers.nil : LaidMembers n [] [] [] where
  nonempty h := (h rfl).elim
  text _ := rfl
  fits := List.forall_mem_nil _
  names := rfl
  adds root _ := by simp
  alike := .nil

theorem LaidMembers.skip {ss : List Section} {nodes : Members} (h : LaidMembers n ms ss nodes)
    (hv : isHeaded v = false) : LaidMembers n ((k, v) :: ms) ss nodes := by
  have hheaded : headed ((k, v) :: ms) = headed ms := by simp [headed, hv]
  refine ⟨hheaded ▸ h.nonempty, fun path => ?_, h.fits, hheaded ▸ h.names, hheaded ▸ h.adds,
    hheaded ▸ h.alike⟩
  have hscalar := layoutMembers_scalar hv path (k := k)
  rw [plain_cons, layoutMembers_cons, h.text path]
  rw [plain_cons] at hscalar
  simp [plain] at hscalar
  simp [hscalar, bind, Except.bind]

theorem LaidMembers.cons {s₁ ss : List Section} {node : Node} {nodes : Members}
    (hfirst : Laid n k v s₁ node) (h : LaidMembers n ms ss nodes) (hv : isHeaded v = true)
    (hfresh : k ∉ ms.map Prod.fst) :
    LaidMembers n ((k, v) :: ms) (s₁ ++ ss) ((k, node) :: nodes) := by
  have hheaded : headed ((k, v) :: ms) = (k, v) :: headed ms := by simp [headed, hv]
  refine ⟨fun _ hnil => hfirst.nonempty (List.append_eq_nil_iff.1 hnil).1, fun path => ?_,
    ?_, ?_, fun root hroot => ?_, ?_⟩
  · have htext := hfirst.text path
    rw [plain_cons] at htext ⊢
    rw [layoutMembers_cons, h.text path]
    simp [plain] at htext
    simp [htext, bind, Except.bind]
  · intro s hs
    rcases List.mem_append.1 hs with hs | hs
    · exact hfirst.fits s hs
    · exact h.fits s hs
  · rw [hheaded, List.map_cons, h.names, valuesOf_cons, List.map_cons]
  · rw [hheaded] at hroot
    obtain ⟨hk, hroot⟩ := List.forall_mem_cons.1 hroot
    have hrest : ∀ m ∈ headed ms, Members.Misses (root ++ [(k, node)]) m.1 := by
      intro m hm hmem
      rw [List.map_append, List.mem_append] at hmem
      rcases hmem with hmem | hmem
      · exact hroot m hm hmem
      · have hmem : m.1 = k := List.mem_singleton.1 hmem
        exact hfresh (hmem ▸ List.mem_map_of_mem (List.mem_filter.1 hm).1)
    rw [List.foldlM_append, hfirst.adds root hk, Option.bind_eq_bind, Option.bind_some,
      h.adds _ hrest, List.append_assoc, List.singleton_append]
  · rw [hheaded]
    exact .cons hfirst.alike h.alike

theorem exists_laidMembers (hd : (ms.map Prod.fst).Nodup)
    (h : ∀ m ∈ ms, isHeaded m.2 = true → ∃ ss node, Laid n m.1 m.2 ss node) :
    ∃ ss nodes, LaidMembers n ms ss nodes := by
  induction ms with
  | nil => exact ⟨[], [], .nil⟩
  | cons m ms ih =>
    obtain ⟨hfresh, hd⟩ := List.nodup_cons.1 hd
    obtain ⟨hm, hms⟩ := List.forall_mem_cons.1 h
    obtain ⟨ss, nodes, hlaid⟩ := ih hd hms
    obtain ⟨k, v⟩ := m
    cases hv : isHeaded v with
    | false => exact ⟨ss, nodes, hlaid.skip hv⟩
    | true =>
      obtain ⟨s₁, node, hfirst⟩ := hm hv
      exact ⟨s₁ ++ ss, (k, node) :: nodes, .cons hfirst hlaid hv hfresh⟩

/-! ### Tables and series -/

theorem forall₂_same (vs : List Value) : List.Forall₂ Alike vs vs :=
  List.forall₂_same.2 fun v _ => .same v

theorem LaidMembers.alike_object {ss : List Section} {nodes : Members}
    (h : LaidMembers n ms ss nodes) :
    Alike (.object (plain ms)) (.object (memberValues (scalarNodes ms ++ nodes))) := by
  rw [memberValues_eq, valuesOf_append, valuesOf_scalarNodes]
  refine .object (perm_scalars_headed ms) ?_ ?_
  · rw [List.map_append, List.map_append, h.names]
  · rw [List.map_append, List.map_append]
    exact List.rel_append (forall₂_same _) h.alike

theorem layout_plain {ss : List Section} {nodes : Members} (hms : ∀ m ∈ ms, Orderly n m.2)
    (h : LaidMembers n ms ss nodes) (header : List Char) (path : List String) :
    layout header path (.object (plain ms)) =
      .ok (if (linesOf ms).isEmpty && !ms.isEmpty then ss.map fun s => sectionText (s.under path)
        else (header ++ (linesOf ms).flatMap lineText) ::
          ss.map fun s => sectionText (s.under path)) := by
  have hlines : ((linesOf ms).flatMap lineText).isEmpty = (linesOf ms).isEmpty := by
    cases linesOf ms with
    | nil => rfl
    | cons e entries => simp [lineText]
  have hmembers : (plain ms).isEmpty = ms.isEmpty := by simp [plain]
  rw [layout, valueLines_plain hms, h.text path]
  simp only [bind, Except.bind, hlines, hmembers, pure, Except.pure]

theorem layoutMembers_table (path : List String) (k : String) (ms : List (Name × Value)) :
    layoutMembers path (plain [(k, .object ms)]) =
      layout (headerText ⟨path, k, false, []⟩) (path ++ [k]) (.object ms) := by
  have hheader : '[' :: dottedName (path ++ [k]) ++ [']', '\n'] =
      headerText ⟨path, k, false, []⟩ := by
    simp [headerText]
  have hname : nameText (.plain k) = k := rfl
  simp only [plain, List.map_cons, List.map_nil, layoutMembers, hname, hheader]
  cases layout (headerText ⟨path, k, false, []⟩) (path ++ [k]) (.object ms) with
  | error e => rfl
  | ok l => simp [bind, Except.bind, pure, Except.pure]

theorem misses_scalarNodes (hd : (ms.map Prod.fst).Nodup) {m : String × Value}
    (hm : m ∈ headed ms) : Members.Misses (scalarNodes ms) m.1 := by
  intro hmem
  obtain ⟨node, hnode, hname⟩ := List.mem_map.1 hmem
  obtain ⟨m', hm', rfl⟩ := List.mem_map.1 hnode
  obtain ⟨hin, hheaded⟩ := List.mem_filter.1 hm
  obtain ⟨hin', hscalar⟩ := List.mem_filter.1 hm'
  rw [List.inj_on_of_nodup_map hd hin' hin hname, hheaded] at hscalar
  cases hscalar

theorem fits_under {s : Section} (h : s.path.length < n ∧ ∀ e ∈ s.entries, e.Fits) (k : String) :
    (s.under [k]).path.length < n + 1 ∧ ∀ e ∈ (s.under [k]).entries, e.Fits :=
  ⟨by simpa [Section.under] using h.1, h.2⟩

theorem exists_laid_table {ss : List Section} {nodes : Members} (hd : (ms.map Prod.fst).Nodup)
    (hms : ∀ m ∈ ms, Orderly n m.2) (h : LaidMembers n ms ss nodes) (k : String) :
    ∃ ss node, Laid (n + 1) k (.object (plain ms)) ss node := by
  have hfits : ∀ s ∈ ss.map (Section.under [k]),
      s.path.length < n + 1 ∧ ∀ e ∈ s.entries, e.Fits := by
    intro s hs
    obtain ⟨t, ht, rfl⟩ := List.mem_map.1 hs
    exact fits_under (h.fits t ht) k
  have hunder (path : List String) : (ss.map fun s => sectionText (s.under (path ++ [k]))) =
      (ss.map (Section.under [k])).map fun s => sectionText (s.under path) := by
    simp [Section.under_under]
  by_cases himplied : linesOf ms = [] ∧ ms ≠ []
  · obtain ⟨hlines, hne⟩ := himplied
    have hscalars : scalars ms = [] := List.map_eq_nil_iff.1 hlines
    have hheaded : headed ms ≠ [] := by
      intro hheaded
      have hperm := perm_scalars_headed ms
      rw [hscalars, hheaded] at hperm
      exact hne hperm.eq_nil
    have hnodes : ss.foldlM Members.addSection [] = some nodes :=
      h.adds [] (by simp [Members.Misses])
    refine ⟨ss.map (Section.under [k]), .table .implied nodes, ?_, fun path => ?_, hfits,
      fun root hroot => Members.foldlM_implied hroot (h.nonempty hheaded) hnodes, ?_⟩
    · simpa using h.nonempty hheaded
    · rw [layoutMembers_table, layout_plain hms h, if_pos (by simp [hlines, hne]), hunder]
    · have halike := h.alike_object
      rwa [scalarNodes, hscalars] at halike
  · have hnodes : ss.foldlM Members.addSection (scalarNodes ms) = some (scalarNodes ms ++ nodes) :=
      h.adds _ fun m hm => misses_scalarNodes hd hm
    refine ⟨⟨[], k, false, linesOf ms⟩ :: ss.map (Section.under [k]),
      .table .header (scalarNodes ms ++ nodes), List.cons_ne_nil _ _, fun path => ?_, ?_,
      fun root hroot => Members.foldlM_headed hroot (addEntries_linesOf hd) hnodes, h.alike_object⟩
    · have hheader : headerText ⟨path, k, false, []⟩ ++ (linesOf ms).flatMap lineText =
          sectionText ((⟨[], k, false, linesOf ms⟩ : Section).under path) := by
        simp [sectionText, headerText, Section.under]
      have hopen : ¬ ((linesOf ms).isEmpty && !ms.isEmpty) = true := by simpa using himplied
      rw [layoutMembers_table, layout_plain hms h, if_neg hopen, hunder, hheader, List.map_cons]
    · exact List.forall_mem_cons.2 ⟨⟨Nat.succ_pos n, fits_of_mem_linesOf hms⟩, hfits⟩

/-- The sections of the tables in a series, and what these make up. -/
structure LaidElements (n : Nat) (k : String) (tables : List (List (String × Value)))
    (ss : List Section) (nodes : List Members) : Prop where
  nonempty : tables ≠ [] → ss ≠ []
  text : ∀ path, layoutElements (headerText ⟨path, k, true, []⟩) (path ++ [k])
    (tables.map fun ms => .object (plain ms)) = .ok (ss.map fun s => sectionText (s.under path))
  fits : ∀ s ∈ ss, s.path.length < n ∧ ∀ e ∈ s.entries, e.Fits
  adds : ∀ root, Members.Misses root k → ∀ before,
    ss.foldlM Members.addSection (Members.withSeries root k before) =
      some (Members.withSeries root k (before ++ nodes))
  alike : List.Forall₂ Alike (tables.map fun ms => .object (plain ms))
    (nodes.map fun ms => .object (memberValues ms))

theorem LaidElements.nil : LaidElements n k [] [] [] where
  nonempty h := (h rfl).elim
  text _ := rfl
  fits := List.forall_mem_nil _
  adds root _ before := by simp
  alike := .nil

theorem LaidElements.cons {s₁ ss : List Section} {members : Members}
    {tables : List (List (String × Value))} {nodes : List Members} (hd : (ms.map Prod.fst).Nodup)
    (hms : ∀ m ∈ ms, Orderly n m.2) (hfirst : LaidMembers n ms s₁ members)
    (h : LaidElements (n + 1) k tables ss nodes) :
    LaidElements (n + 1) k (ms :: tables)
      ((⟨[], k, true, linesOf ms⟩ :: s₁.map (Section.under [k])) ++ ss)
      ((scalarNodes ms ++ members) :: nodes) where
  nonempty _ := by simp
  text path := by
    have hheader : headerText ⟨path, k, true, []⟩ ++ (linesOf ms).flatMap lineText =
        sectionText ((⟨[], k, true, linesOf ms⟩ : Section).under path) := by
      simp [sectionText, headerText, Section.under]
    rw [List.map_cons, layoutElements]
    simp only [valueLines_plain hms, hfirst.text, h.text]
    simp [hheader, Section.under_under, bind, Except.bind, pure, Except.pure]
  fits := by
    intro s hs
    rcases List.mem_append.1 hs with hs | hs
    · rcases List.mem_cons.1 hs with rfl | hs
      · exact ⟨Nat.succ_pos n, fits_of_mem_linesOf hms⟩
      · obtain ⟨t, ht, rfl⟩ := List.mem_map.1 hs
        exact fits_under (hfirst.fits t ht) k
    · exact h.fits s hs
  adds root hroot before := by
    have hmembers : s₁.foldlM Members.addSection (scalarNodes ms) =
        some (scalarNodes ms ++ members) :=
      hfirst.adds _ fun m hm => misses_scalarNodes hd hm
    rw [List.foldlM_append, Members.foldlM_element hroot before (addEntries_linesOf hd) hmembers,
      Option.bind_eq_bind, Option.bind_some, h.adds root hroot, List.append_assoc,
      List.singleton_append]
  alike := .cons hfirst.alike_object h.alike

theorem exists_laidElements {tables : List (List (String × Value))}
    (hd : ∀ ms ∈ tables, (ms.map Prod.fst).Nodup) (hms : ∀ ms ∈ tables, ∀ m ∈ ms, Orderly n m.2)
    (h : ∀ ms ∈ tables, ∃ ss nodes, LaidMembers n ms ss nodes) (k : String) :
    ∃ ss nodes, LaidElements (n + 1) k tables ss nodes := by
  induction tables with
  | nil => exact ⟨[], [], .nil⟩
  | cons ms tables ih =>
    obtain ⟨hd, hds⟩ := List.forall_mem_cons.1 hd
    obtain ⟨hms, hmss⟩ := List.forall_mem_cons.1 hms
    obtain ⟨⟨s₁, members, hfirst⟩, h⟩ := List.forall_mem_cons.1 h
    obtain ⟨ss, nodes, hlaid⟩ := ih hds hmss h
    exact ⟨_, _, .cons hd hms hfirst hlaid⟩

theorem isSeries_tables {tables : List (List (String × Value))} (hne : tables ≠ []) :
    isSeries (.array (tables.map fun ms => .object (plain ms))) = true := by
  obtain ⟨ms, tables, rfl⟩ := List.exists_cons_of_ne_nil hne
  simp [isSeries, isTable]

theorem layoutMembers_series (path : List String) (k : String) {items : List Value}
    (hseries : isSeries (.array items) = true) :
    layoutMembers path (plain [(k, .array items)]) =
      layoutElements (headerText ⟨path, k, true, []⟩) (path ++ [k]) items := by
  have hheader : '[' :: '[' :: dottedName (path ++ [k]) ++ [']', ']', '\n'] =
      headerText ⟨path, k, true, []⟩ := by
    simp [headerText]
  have hname : nameText (.plain k) = k := rfl
  simp only [plain, List.map_cons, List.map_nil, layoutMembers, hname, hheader, hseries, if_true]
  cases layoutElements (headerText ⟨path, k, true, []⟩) (path ++ [k]) items with
  | error e => rfl
  | ok l => simp [bind, Except.bind, pure, Except.pure]

theorem LaidElements.laid {tables : List (List (String × Value))} {ss : List Section}
    {nodes : List Members} (h : LaidElements n k tables ss nodes) (hne : tables ≠ []) :
    Laid n k (.array (tables.map fun ms => .object (plain ms))) ss (Members.seriesNode nodes) := by
  have hnodes : nodes ≠ [] := by
    rintro rfl
    have hlength := h.alike.length_eq
    exact hne (by simpa using hlength)
  refine ⟨h.nonempty hne, fun path => ?_, h.fits, fun root hroot => ?_, ?_⟩
  · rw [layoutMembers_series path k (isSeries_tables hne), h.text]
  · have hadds := h.adds root hroot []
    simpa [Members.withSeries, hnodes] using hadds
  · rw [seriesNode_toValue hnodes]
    exact .array h.alike

/-- Whatever a document holds under a name is laid out in sections that make up the same. -/
theorem exists_laid (h : Orderly n v) (k : String) (hv : isHeaded v = true) :
    ∃ ss node, Laid n k v ss node := by
  induction h generalizing k with
  | scalar h => rw [h.isHeaded] at hv; cases hv
  | @table n ms hd h ih =>
    obtain ⟨ss, nodes, hlaid⟩ := exists_laidMembers hd fun m hm hv => ih m hm m.1 hv
    exact exists_laid_table hd h hlaid k
  | @series n tables hne hd h ih =>
    obtain ⟨ss, nodes, hlaid⟩ := exists_laidElements hd h (fun ms hms =>
      exists_laidMembers (hd ms hms) fun m hm hv => ih ms hms m hm m.1 hv) k
    exact ⟨ss, _, hlaid.laid hne⟩

/-! ### Documents -/

theorem print_eq {ss : List Section} {nodes : Members} (hms : ∀ m ∈ ms, Orderly n m.2)
    (h : LaidMembers n ms ss nodes) :
    print (.object (plain ms)) = .ok (String.ofList (documentText (linesOf ms) ss)) := by
  have hunder : (fun s : Section => sectionText (s.under [])) = sectionText := rfl
  rw [print, layout_plain hms h, hunder]
  split
  · rename_i hempty
    have hlines : linesOf ms = [] := by
      simp only [Bool.and_eq_true, List.isEmpty_iff] at hempty
      exact hempty.1
    simp [documentText, hlines, bind, Except.bind, pure, Except.pure]
  · rfl

/-- A document is printed, and what is read back from its text is the same table. -/
theorem parse?_print (hd : (ms.map Prod.fst).Nodup) (hms : ∀ m ∈ ms, Orderly n m.2)
    (hn : n < nestingLimit) :
    ∃ text v, print (.object (plain ms)) = .ok text ∧ parse? text = some v ∧
      Alike (.object (plain ms)) v := by
  obtain ⟨ss, nodes, h⟩ := exists_laidMembers hd fun m hm hv => exists_laid (hms m hm) m.1 hv
  have hss : ∀ s ∈ ss, s.Fits := by
    intro s hs
    obtain ⟨hpath, hentries⟩ := h.fits s hs
    exact ⟨by omega, hentries⟩
  have hnodes : ss.foldlM Members.addSection (scalarNodes ms) = some (scalarNodes ms ++ nodes) :=
    h.adds _ fun m hm => misses_scalarNodes hd hm
  have hassemble : assemble? (linesOf ms) ss =
      some (.object (memberValues (scalarNodes ms ++ nodes))) := by
    rw [assemble?, addEntries_linesOf hd, Option.bind_eq_bind, Option.bind_some, hnodes]
    rfl
  refine ⟨_, _, print_eq hms h, ?_, h.alike_object⟩
  rw [parse?_documentText (fits_of_mem_linesOf hms) hss, hassemble]

end Toml

end WifiAdvisor.Document
