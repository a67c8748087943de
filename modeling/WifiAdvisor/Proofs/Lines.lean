import WifiAdvisor.Proofs.Scalars

/-!
# Lines and sections are read back

A line with a name and its value, a header and the lines under it come back as the entry and the
section they were written for, and a text of sections with an empty line between any two of them as
those sections.
-/
namespace WifiAdvisor.Document.Toml

variable {rest : List Char}

/-! ### Lines -/

/-- The front of a line that begins with a name. -/
def Opens (c : Char) : Prop := isBare c = true ∨ c = '"' ∨ c = '\''

theorem Opens.ne {c d : Char} (hc : Opens c) (hbare : isBare d = false) (hquote : d ≠ '"')
    (hsingle : d ≠ '\'') : c ≠ d := by
  rintro rfl
  rcases hc with hc | hc | hc
  · rw [hbare] at hc
    cases hc
  · exact hquote hc
  · exact hsingle hc

theorem Opens.skipBlanks {c : Char} (hc : Opens c) : skipBlanks (c :: rest) = c :: rest := by
  have hspace : c ≠ ' ' := hc.ne rfl (by decide) (by decide)
  have htab : c ≠ '\t' := hc.ne rfl (by decide) (by decide)
  simp [Toml.skipBlanks, isBlank, hspace, htab]

theorem Opens.newline? {c : Char} (hc : Opens c) : newline? (c :: rest) = none := by
  rw [Toml.newline?]
  · exact fun _ h => hc.ne rfl (by decide) (by decide) (List.cons.inj h).1
  · exact fun _ h => hc.ne rfl (by decide) (by decide) (List.cons.inj h).1

theorem writeName_opens (s : String) : ∃ c w, Quotation.writeName s = c :: w ∧ Opens c :=
  Quotation.writeName_opens s

theorem namesAfter_name (s : String) (acc : List String) (fuel : Nat)
    (hrest : ∀ c ∈ rest.head?, isBare c = false) :
    namesAfter acc (fuel + 1) (Quotation.writeName s ++ rest) =
      match skipBlanks rest with
      | '.' :: after => namesAfter (s :: acc) fuel after
      | after => some (s :: acc, after) := by
  obtain ⟨c, w, hs, hc⟩ := writeName_opens s
  have hname := Quotation.name?_writeName s hrest
  have hskip : skipBlanks (Quotation.writeName s ++ rest) = Quotation.writeName s ++ rest := by
    rw [hs]
    exact hc.skipBlanks
  rw [namesAfter, hskip, hname]
  rfl

theorem key?_name (s : String) :
    key? (Quotation.writeName s ++ ' ' :: '=' :: rest) = some ([], s, '=' :: rest) := by
  have hspace : ∀ c ∈ (' ' :: '=' :: rest).head?, isBare c = false := by simp [isBare]
  have hname := namesAfter_name s [] (nestingLimit - 2) hspace
  rw [key?]
  have hlimit : nestingLimit - 1 = nestingLimit - 2 + 1 := rfl
  rw [hlimit, hname]
  rfl

theorem namesAfter_dotted (rest : List Char) {path : List String} (hpath : path ≠ [])
    (acc : List String) {fuel : Nat} (hfuel : path.length ≤ fuel) :
    namesAfter acc fuel (dottedName path ++ ']' :: rest) =
      some (path.reverse ++ acc, ']' :: rest) := by
  induction path generalizing acc fuel with
  | nil => exact (hpath rfl).elim
  | cons s path ih =>
    obtain ⟨fuel, rfl⟩ := Nat.exists_add_one_eq.2 (Nat.zero_lt_of_lt hfuel)
    cases path with
    | nil =>
      rw [dottedName, List.map_singleton, List.intercalate_singleton,
        namesAfter_name _ _ _ (by simp [isBare])]
      rfl
    | cons t path =>
      have hcons : dottedName (s :: t :: path) ++ ']' :: rest =
          Quotation.writeName s ++ '.' :: (dottedName (t :: path) ++ ']' :: rest) := by
        simp [dottedName, List.intercalate_cons_cons]
      rw [hcons, namesAfter_name _ _ _ (by simp [isBare])]
      have hread := ih (by simp) (s :: acc) (Nat.le_of_succ_le_succ hfuel)
      rw [List.reverse_cons, List.append_assoc]
      exact hread

theorem key?_dotted (path : List String) (name : String) (hpath : path.length < nestingLimit - 1)
    (rest : List Char) :
    key? (dottedName (path ++ [name]) ++ ']' :: rest) = some (path, name, ']' :: rest) := by
  have hlength : (path ++ [name]).length ≤ nestingLimit - 1 := by simp; omega
  have hread := namesAfter_dotted rest (by simp) [] hlength
  rw [key?, hread]
  simp

/-! ### Entries -/

/-- The value as it stands on a line. -/
def inlineText (v : Value) : List Char := (inlineValue v).toOption.getD []

/-- The entry fits a line: a name, and a value that has a text. -/
structure Entry.Fits (e : Entry) : Prop where
  flat : e.path = []
  scalar : Scalar e.value
  room : inlineValue e.value = .ok (inlineText e.value)

def lineText (e : Entry) : List Char :=
  Quotation.writeName e.name ++ [' ', '=', ' '] ++ inlineText e.value ++ ['\n']

theorem lineText_append (e : Entry) (rest : List Char) : lineText e ++ rest =
    Quotation.writeName e.name ++ ' ' :: '=' :: ' ' :: (inlineText e.value ++ '\n' :: rest) := by
  simp [lineText]

theorem entry?_lineText {e : Entry} (he : e.Fits) (rest : List Char) :
    entry? (lineText e ++ rest) = some (e, rest) := by
  obtain ⟨path, name, v⟩ := e
  obtain ⟨hflat, hscalar, hroom⟩ := he
  cases hflat
  obtain ⟨c, w, hw, hc⟩ := hscalar.opens hroom
  have hskip : skipBlanks (' ' :: (inlineText v ++ '\n' :: rest)) =
      inlineText v ++ '\n' :: rest := by
    have hw : inlineText v = c :: w := hw
    have hspace : isBlank ' ' = true := rfl
    rw [skipBlanks, hw, List.dropWhile_cons_of_pos hspace, List.cons_append,
      List.dropWhile_cons_of_neg (by simp [hc])]
  have hvalue : value? 0 (2 * (' ' :: (inlineText v ++ '\n' :: rest)).length + 2)
      (inlineText v ++ '\n' :: rest) = some (v, '\n' :: rest) := hscalar.value? hroom _
  rw [lineText_append, entry?, key?_name]
  simp only [Option.bind_eq_bind, Option.bind_some, hskip, hvalue]
  rfl

theorem length_le_lines (entries : List Entry) :
    entries.length ≤ (entries.flatMap lineText).length := by
  induction entries with
  | nil => exact Nat.le_refl 0
  | cons e entries ih =>
    rw [List.flatMap_cons, List.length_append, List.length_cons, lineText, List.length_append]
    simp only [List.length_singleton]
    omega

/-- What follows the lines of a section: nothing, or an empty line and a header, or a header. -/
def Breaks (tail after : List Char) : Prop :=
  skipLines? tail.length tail = some after ∧ (after = [] ∨ ∃ w, after = '[' :: w)

theorem breaks_nil : Breaks [] [] := ⟨rfl, Or.inl rfl⟩

theorem breaks_header (w : List Char) : Breaks ('[' :: w) ('[' :: w) := ⟨rfl, Or.inr ⟨w, rfl⟩⟩

theorem breaks_emptyLine (w : List Char) : Breaks ('\n' :: '[' :: w) ('[' :: w) :=
  ⟨rfl, Or.inr ⟨w, rfl⟩⟩

theorem Opens.skipLines? {c : Char} (hc : Opens c) (fuel : Nat) :
    skipLines? fuel (c :: rest) = some (c :: rest) := by
  cases fuel with
  | zero => rfl
  | succ fuel =>
    have hcomment : c ≠ '#' := hc.ne rfl (by decide) (by decide)
    rw [Toml.skipLines?, hc.skipBlanks]
    split
    · rename_i h
      exact (hcomment (List.cons.inj h).1).elim
    · rw [hc.newline?]

theorem entries?_lines {entries : List Entry} (hentries : ∀ e ∈ entries, e.Fits)
    {tail after : List Char} (htail : Breaks tail after) (acc : List Entry) {fuel : Nat}
    (hfuel : entries.length < fuel) :
    entries? acc fuel (entries.flatMap lineText ++ tail) =
      some (acc.reverse ++ entries, after) := by
  induction entries generalizing acc fuel with
  | nil =>
    obtain ⟨fuel, rfl⟩ := Nat.exists_add_one_eq.2 (Nat.zero_lt_of_lt hfuel)
    obtain ⟨hskip, hafter⟩ := htail
    rw [List.flatMap_nil, List.nil_append, entries?, hskip]
    rcases hafter with rfl | ⟨w, rfl⟩ <;> simp
  | cons e entries ih =>
    obtain ⟨fuel, rfl⟩ := Nat.exists_add_one_eq.2 (Nat.zero_lt_of_lt hfuel)
    obtain ⟨he, hentries⟩ := List.forall_mem_cons.1 hentries
    have hread := entry?_lineText he (entries.flatMap lineText ++ tail)
    have hrest := ih hentries (e :: acc) (Nat.lt_of_succ_lt_succ hfuel)
    obtain ⟨c, w, hname, hc⟩ := writeName_opens e.name
    rw [List.flatMap_cons, List.append_assoc]
    have hopen : ∃ u, lineText e ++ (entries.flatMap lineText ++ tail) = c :: u := by
      rw [lineText_append, hname]
      exact ⟨_, rfl⟩
    obtain ⟨u, hu⟩ := hopen
    rw [hu] at hread ⊢
    have hbracket : c ≠ '[' := hc.ne rfl (by decide) (by decide)
    rw [entries?, hc.skipLines?]
    split
    · cases ‹_›
    · cases ‹_›
    · rename_i h
      exact (hbracket (List.cons.inj (Option.some.inj h)).1).elim
    · rename_i h
      cases h
      rw [hread]
      simpa using hrest

/-! ### Sections -/

def headerText (s : Section) : List Char :=
  let name := dottedName (s.path ++ [s.name])
  if s.repeated then '[' :: '[' :: name ++ [']', ']', '\n'] else '[' :: name ++ [']', '\n']

def sectionText (s : Section) : List Char := headerText s ++ s.entries.flatMap lineText

structure Section.Fits (s : Section) : Prop where
  path : s.path.length < nestingLimit - 1
  entries : ∀ e ∈ s.entries, e.Fits

theorem dottedName_opens (path : List String) (name : String) :
    ∃ c w, dottedName (path ++ [name]) = c :: w ∧ Opens c := by
  cases path with
  | nil =>
    obtain ⟨c, w, hw, hc⟩ := writeName_opens name
    exact ⟨c, w, by simpa [dottedName] using hw, hc⟩
  | cons s path =>
    obtain ⟨c, w, hw, hc⟩ := writeName_opens s
    obtain ⟨t, path', hpath⟩ := List.exists_cons_of_ne_nil (l := path ++ [name]) (by simp)
    refine ⟨c, w ++ '.' :: dottedName (t :: path'), ?_, hc⟩
    simp [dottedName, hpath, List.intercalate_cons_cons, hw]

theorem header?_headerText {s : Section} (hs : s.Fits) (rest : List Char) :
    header? (headerText s ++ rest) = some ({ s with entries := [] }, rest) := by
  obtain ⟨path, name, repeated, entries⟩ := s
  have hkey := key?_dotted path name hs.path
  cases repeated with
  | true =>
    have hkey := hkey (']' :: '\n' :: rest)
    have htext : headerText ⟨path, name, true, entries⟩ ++ rest =
        '[' :: '[' :: (dottedName (path ++ [name]) ++ ']' :: ']' :: '\n' :: rest) := by
      simp [headerText]
    rw [htext, header?, hkey]
    rfl
  | false =>
    have hkey := hkey ('\n' :: rest)
    have htext : headerText ⟨path, name, false, entries⟩ ++ rest =
        '[' :: (dottedName (path ++ [name]) ++ ']' :: '\n' :: rest) := by
      simp [headerText]
    obtain ⟨c, w, hname, hc⟩ := dottedName_opens path name
    rw [htext, header?, hkey]
    · rfl
    · intro after h
      rw [hname] at h
      exact hc.ne rfl (by decide) (by decide) (List.cons.inj h).1

theorem sectionText_opens (s : Section) : ∃ w, sectionText s = '[' :: w := by
  rw [sectionText, headerText]
  split <;> exact ⟨_, rfl⟩

/-- The text of sections, with an empty line between any two of them. -/
def sectionsText (ss : List Section) : List Char := ['\n'].intercalate (ss.map sectionText)

theorem sectionsText_cons_cons (s t : Section) (ss : List Section) :
    sectionsText (s :: t :: ss) = sectionText s ++ '\n' :: sectionsText (t :: ss) := by
  simp [sectionsText, List.intercalate_cons_cons]

theorem sectionsText_singleton (s : Section) : sectionsText [s] = sectionText s := by
  simp [sectionsText]

theorem sectionsText_opens (s : Section) (ss : List Section) :
    ∃ w, sectionsText (s :: ss) = '[' :: w := by
  obtain ⟨w, hw⟩ := sectionText_opens s
  cases ss with
  | nil => exact ⟨w, by rw [sectionsText_singleton, hw]⟩
  | cons t ss => exact ⟨_, by rw [sectionsText_cons_cons, hw]; rfl⟩

theorem sectionsText_cons (s : Section) (ss : List Section) :
    ∃ tail, sectionsText (s :: ss) = sectionText s ++ tail ∧ Breaks tail (sectionsText ss) := by
  cases ss with
  | nil => exact ⟨[], by rw [sectionsText_singleton, List.append_nil], breaks_nil⟩
  | cons t ss =>
    obtain ⟨w, hw⟩ := sectionsText_opens t ss
    refine ⟨'\n' :: sectionsText (t :: ss), sectionsText_cons_cons s t ss, ?_⟩
    rw [hw]
    exact breaks_emptyLine w

theorem length_le_sectionsText (ss : List Section) : ss.length ≤ (sectionsText ss).length := by
  induction ss with
  | nil => exact Nat.le_refl 0
  | cons s ss ih =>
    obtain ⟨w, hw⟩ := sectionText_opens s
    cases ss with
    | nil =>
      rw [sectionsText_singleton, hw]
      simp
    | cons t ss =>
      rw [sectionsText_cons_cons, hw]
      simp only [List.length_cons, List.length_append] at ih ⊢
      omega

theorem sections?_sectionsText {ss : List Section} (hss : ∀ s ∈ ss, s.Fits) (acc : List Section)
    {fuel : Nat} (hfuel : ss.length < fuel) :
    sections? acc fuel (sectionsText ss) = some (acc.reverse ++ ss) := by
  induction ss generalizing acc fuel with
  | nil =>
    obtain ⟨fuel, rfl⟩ := Nat.exists_add_one_eq.2 (Nat.zero_lt_of_lt hfuel)
    rw [List.append_nil]
    rfl
  | cons s ss ih =>
    obtain ⟨fuel, rfl⟩ := Nat.exists_add_one_eq.2 (Nat.zero_lt_of_lt hfuel)
    obtain ⟨hs, hss⟩ := List.forall_mem_cons.1 hss
    obtain ⟨tail, htext, htail⟩ := sectionsText_cons s ss
    have hheader := header?_headerText hs (s.entries.flatMap lineText ++ tail)
    have hlength := length_le_lines s.entries
    have henough : s.entries.length < (s.entries.flatMap lineText ++ tail).length + 1 := by
      rw [List.length_append]
      omega
    have hentries := entries?_lines hs.entries htail [] henough
    have hrest := ih hss (s :: acc) (Nat.lt_of_succ_lt_succ hfuel)
    obtain ⟨w, hw⟩ := sectionText_opens s
    rw [← List.append_assoc, ← sectionText, hw, List.cons_append] at hheader
    rw [htext, hw, List.cons_append, sections?, hheader]
    · simp only [Option.bind_eq_bind, Option.bind_some, hentries]
      simpa using hrest
    · nofun

/-! ### Texts -/

/-- The text of entries and sections, with an empty line between any two blocks. -/
def documentText (entries : List Entry) (ss : List Section) : List Char :=
  ['\n'].intercalate
    ((entries.flatMap lineText :: ss.map sectionText).filter fun block => !block.isEmpty)

theorem filter_sectionTexts (ss : List Section) :
    (ss.map sectionText).filter (fun block => !block.isEmpty) = ss.map sectionText := by
  refine List.filter_eq_self.2 fun block hblock => ?_
  obtain ⟨s, -, rfl⟩ := List.mem_map.1 hblock
  obtain ⟨w, hw⟩ := sectionText_opens s
  rw [hw]
  rfl

theorem documentText_nil (ss : List Section) : documentText [] ss = sectionsText ss := by
  rw [documentText, List.flatMap_nil, List.filter_cons_of_neg (by simp), filter_sectionTexts,
    sectionsText]

theorem documentText_cons (e : Entry) (entries : List Entry) (ss : List Section) :
    ∃ tail, documentText (e :: entries) ss = (e :: entries).flatMap lineText ++ tail ∧
      Breaks tail (sectionsText ss) := by
  have hline : lineText e ≠ [] := by simp [lineText]
  rw [documentText, List.filter_cons_of_pos (by simp [hline]), filter_sectionTexts]
  cases ss with
  | nil => exact ⟨[], by simp, breaks_nil⟩
  | cons s ss =>
    obtain ⟨w, hw⟩ := sectionsText_opens s ss
    refine ⟨'\n' :: sectionsText (s :: ss), ?_, hw ▸ breaks_emptyLine w⟩
    simp [sectionsText, List.intercalate_cons_cons]

theorem documentText_eq (entries : List Entry) (ss : List Section) :
    ∃ tail, documentText entries ss = entries.flatMap lineText ++ tail ∧
      Breaks tail (sectionsText ss) := by
  cases entries with
  | nil =>
    refine ⟨sectionsText ss, documentText_nil ss, ?_⟩
    cases ss with
    | nil => exact breaks_nil
    | cons s ss =>
      obtain ⟨w, hw⟩ := sectionsText_opens s ss
      exact hw ▸ breaks_header w
  | cons e entries => exact documentText_cons e entries ss

theorem skipOrderMark_of_ne {c : Char} (hc : c ≠ '\uFEFF') :
    skipOrderMark (c :: rest) = c :: rest := by
  rw [skipOrderMark]
  exact fun _ h => hc (List.cons.inj h).1

theorem skipOrderMark_documentText (entries : List Entry) (ss : List Section) :
    skipOrderMark (documentText entries ss) = documentText entries ss := by
  cases entries with
  | nil =>
    rw [documentText_nil]
    cases ss with
    | nil => rfl
    | cons s ss =>
      obtain ⟨w, hw⟩ := sectionsText_opens s ss
      rw [hw]
      exact skipOrderMark_of_ne (by decide)
  | cons e entries =>
    obtain ⟨tail, htext, -⟩ := documentText_cons e entries ss
    obtain ⟨c, w, hname, hc⟩ := writeName_opens e.name
    rw [htext, List.flatMap_cons, List.append_assoc, lineText_append, hname]
    exact skipOrderMark_of_ne (hc.ne rfl (by decide) (by decide))

/-- A document is read back line by line, whatever the tables it makes up. -/
theorem parse?_documentText {entries : List Entry} (hentries : ∀ e ∈ entries, e.Fits)
    {ss : List Section} (hss : ∀ s ∈ ss, s.Fits) :
    parse? (String.ofList (documentText entries ss)) = assemble? entries ss := by
  obtain ⟨tail, htext, htail⟩ := documentText_eq entries ss
  have hlength := length_le_lines entries
  have hfuel : entries.length < (documentText entries ss).length + 1 := by
    rw [htext, List.length_append]
    omega
  have hlines := entries?_lines hentries htail [] hfuel
  have hsections := sections?_sectionsText hss [] (Nat.lt_succ_of_le (length_le_sectionsText ss))
  rw [parse?, String.toList_ofList, skipOrderMark_documentText]
  rw [← htext] at hlines
  simp only [Option.bind_eq_bind, hlines, Option.bind_some, hsections]
  rfl

end WifiAdvisor.Document.Toml
