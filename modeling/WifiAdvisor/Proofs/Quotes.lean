import Mathlib.Data.List.TakeWhile
import WifiAdvisor.Document.Toml.Printer
import WifiAdvisor.Document.Toml.Reader

/-!
# Strings are read back from their quotes

A string comes back from whichever of the four quotations it was written in, and a name from its
quotes or without any. Between double quotes every character is written as itself, as a quote that
may stand, or as an escape; a run of quotes inside a string of several lines stays too short for a
closing mark, and the one at its end is told from the mark by its length.
-/
namespace WifiAdvisor.Document.Toml.Quotation

variable {q c : Char} {escapes multiline : Bool} {rest : List Char}

/-! ### Closing marks -/

theorem closing?_of_ne (h : c ≠ q) : closing? ⟨q, escapes, multiline⟩ (c :: rest) = none := by
  cases multiline <;> simp [closing?, h]

theorem closing?_single : closing? ⟨q, escapes, false⟩ (q :: rest) = some ([], rest) := by
  simp [closing?]

theorem takeWhile_append_of_stop {p : Char → Bool} {cs : List Char} (hcs : ∀ c ∈ cs, p c = true)
    (hrest : ∀ c ∈ rest.head?, p c = false) : (cs ++ rest).takeWhile p = cs := by
  have hstop : rest.takeWhile p = [] := by
    cases rest with
    | nil => rfl
    | cons c rest => simp [hrest c rfl]
  rw [List.takeWhile_append_of_pos hcs, hstop, List.append_nil]

theorem takeWhile_run (q : Char) (j : Nat) {w : List Char} (hw : w.head? ≠ some q) :
    (List.replicate j q ++ w).takeWhile (· = q) = List.replicate j q := by
  refine takeWhile_append_of_stop (by simp) fun c hc => decide_eq_false ?_
  rintro rfl
  exact hw hc

/-- A short run of quotes inside a string of several lines closes nothing. -/
theorem closing?_run {j : Nat} (hj : j ≤ 2) {w : List Char} (hw : w.head? ≠ some q) :
    closing? ⟨q, escapes, true⟩ (List.replicate j q ++ w) = none := by
  have hlength : j < 3 := by omega
  simp [closing?, takeWhile_run q j hw, hlength]

/-- The quotes before a closing mark belong to the string. -/
theorem closing?_triple {j : Nat} (hj : j ≤ 2) (hrest : rest.head? ≠ some q) :
    closing? ⟨q, escapes, true⟩ (List.replicate j q ++ (List.replicate 3 q ++ rest)) =
      some (List.replicate j q, rest) := by
  rw [← List.append_assoc, List.replicate_append_replicate]
  have hlength : ¬ j + 3 < 3 := by omega
  have hmin : min j 2 = j := by omega
  simp [closing?, takeWhile_run q (j + 3) hrest, hmin]

/-! ### One character of a string -/

variable {mark : Mark} {fuel : Nat} {acc : List Char}

theorem readRest_closing {inside cs : List Char} (h : closing? mark cs = some (inside, rest)) :
    readRest mark (fuel + 1) acc cs = some (String.ofList (acc.reverse ++ inside), rest) := by
  simp only [readRest, h]

theorem readRest_plain (hopen : closing? mark (c :: rest) = none) (hc : isPlain c = true)
    (hslash : mark.escapes = true → c ≠ '\\') :
    readRest mark (fuel + 1) acc (c :: rest) = readRest mark fuel (c :: acc) rest := by
  have hescape : ¬ (mark.escapes && decide (c = '\\')) = true := by
    simpa using hslash
  rw [readRest, hopen]
  simp only [if_neg hescape, if_pos hc]

theorem readRest_lineFeed (hopen : closing? mark ('\n' :: rest) = none)
    (hlines : mark.multiline = true) :
    readRest mark (fuel + 1) acc ('\n' :: rest) = readRest mark fuel ('\n' :: acc) rest := by
  rw [readRest, hopen]
  simp [isPlain, hlines, newline?]

theorem readRest_escape {x e : Char} {after : List Char}
    (hopen : closing? mark ('\\' :: x :: rest) = none) (hmark : mark.escapes = true)
    (hx : isBlank x = false ∧ x ≠ '\n' ∧ x ≠ '\r') (he : escaped? (x :: rest) = some (e, after)) :
    readRest mark (fuel + 1) acc ('\\' :: x :: rest) = readRest mark fuel (e :: acc) after := by
  obtain ⟨hblank, hfeed, hreturn⟩ := hx
  have hskip : skipBlanks (x :: rest) = x :: rest := by simp [skipBlanks, hblank]
  have hfold : lineFold? (x :: rest) = none := by
    rw [lineFold?, hskip, Option.map_eq_none_iff]
    rw [newline?]
    · intro others h
      exact hfeed (List.cons.inj h).1
    · intro others h
      exact hreturn (List.cons.inj h).1
  rw [readRest, hopen]
  simp [hmark, hfold, he]

/-! ### Between double quotes -/

/-- How a character is written between double quotes, when no quote is left as it is. -/
inductive Writes (multiline : Bool) : Char → List Char → Prop
  | plain {c : Char} (hc : isPlain c = true) (hslash : c ≠ '\\') (hquote : c ≠ '"') :
      Writes multiline c [c]
  | lineFeed (h : multiline = true) : Writes multiline '\n' ['\n']
  | escape {c x : Char} {w : List Char} (hx : isBlank x = false ∧ x ≠ '\n' ∧ x ≠ '\r')
      (h : ∀ rest, escaped? (x :: (w ++ rest)) = some (c, rest)) :
      Writes multiline c ('\\' :: x :: w)

theorem ofHex?_padded : ∀ n < 128, ofHex? ((Text.padded 16 4 n).map Char.toUpper) =
    some (Char.ofNat n) ∧ (Text.padded 16 4 n).length = 4 := by
  decide +kernel

theorem escaped?_coded (hc : isControl c = true) (rest : List Char) :
    escaped? ('u' :: ((Text.padded 16 4 c.toNat).map Char.toUpper ++ rest)) = some (c, rest) := by
  have hsmall : c.toNat < 128 := by
    simp only [isControl, Bool.or_eq_true, Bool.and_eq_true, decide_eq_true_eq] at hc
    omega
  obtain ⟨hhex, hlength⟩ := ofHex?_padded c.toNat hsmall
  have hlength : ((Text.padded 16 4 c.toNat).map Char.toUpper).length = 4 := by
    rw [List.length_map, hlength]
  rw [escaped?, List.take_append_of_le_length (by omega), List.drop_append_of_le_length (by omega),
    List.take_of_length_le (by omega), List.drop_of_length_le (by omega), hhex]
  simp [hlength, Char.ofNat_toNat]

theorem isPlain_of_not_control (hc : isControl c = false) (hfeed : c ≠ '\n') :
    isPlain c = true := by
  by_cases htab : c = '\t'
  · rw [htab]
    rfl
  · simp only [isControl, Bool.or_eq_false_iff, Bool.and_eq_false_imp, Bool.and_eq_true,
      decide_eq_true_eq, decide_eq_false_iff_not, bne_iff_ne, ne_eq, bne_eq_false_iff_eq] at hc
    simp only [isPlain, Bool.or_eq_true, decide_eq_true_eq, Bool.and_eq_true, bne_iff_ne]
    refine Or.inr ⟨?_, hc.2⟩
    by_contra hlow
    exact hfeed (hc.1 ⟨by omega, htab⟩)

theorem writes_letter {x : Char} (h : ∀ rest, escaped? (x :: rest) = some (c, rest))
    (hx : isBlank x = false ∧ x ≠ '\n' ∧ x ≠ '\r') : Writes multiline c ['\\', x] :=
  .escape hx h

/-- Each character is written in its way, or is a quote that may stand. -/
theorem escapeFrom_cons (multiline : Bool) (run : Nat) (c : Char) (cs : List Char) :
    (∃ w, Writes multiline c w ∧
      escapeFrom multiline run (c :: cs) = w ++ escapeFrom multiline 0 cs) ∨
    (multiline = true ∧ c = '"' ∧ run < 2 ∧
      escapeFrom multiline run (c :: cs) = '"' :: escapeFrom multiline (run + 1) cs) := by
  by_cases hquote : c = '"'
  · subst hquote
    rw [escapeFrom]
    split
    · rename_i h
      rw [Bool.and_eq_true, decide_eq_true_eq] at h
      exact Or.inr ⟨h.1, rfl, h.2, rfl⟩
    · exact Or.inl ⟨_, writes_letter (x := '"') (fun _ => rfl) (by decide), rfl⟩
  refine Or.inl ?_
  by_cases hback : c = '\x08'
  · subst hback
    exact ⟨_, writes_letter (x := 'b') (fun _ => rfl) (by decide), rfl⟩
  by_cases htab : c = '\t'
  · subst htab
    exact ⟨_, writes_letter (x := 't') (fun _ => rfl) (by decide), rfl⟩
  by_cases hform : c = '\x0c'
  · subst hform
    exact ⟨_, writes_letter (x := 'f') (fun _ => rfl) (by decide), rfl⟩
  by_cases hreturn : c = '\r'
  · subst hreturn
    exact ⟨_, writes_letter (x := 'r') (fun _ => rfl) (by decide), rfl⟩
  by_cases hslash : c = '\\'
  · subst hslash
    exact ⟨_, writes_letter (x := '\\') (fun _ => rfl) (by decide), rfl⟩
  by_cases hfeed : c = '\n'
  · subst hfeed
    cases multiline with
    | true => exact ⟨_, .lineFeed rfl, rfl⟩
    | false => exact ⟨_, writes_letter (x := 'n') (fun _ => rfl) (by decide), rfl⟩
  rw [escapeFrom]
  · split
    · rename_i hc
      exact ⟨coded c, .escape (by decide) (escaped?_coded hc), rfl⟩
    · rename_i hc
      have hplain := isPlain_of_not_control (Bool.eq_false_iff.2 hc) hfeed
      exact ⟨[c], .plain hplain hslash hquote, rfl⟩
  all_goals assumption

theorem Writes.exists_cons {w : List Char} (h : Writes multiline c w) :
    ∃ x v, w = x :: v ∧ x ≠ '"' := by
  cases h with
  | plain _ _ hquote => exact ⟨_, _, rfl, hquote⟩
  | lineFeed _ => exact ⟨_, _, rfl, by decide⟩
  | escape _ _ => exact ⟨_, _, rfl, by decide⟩

theorem Writes.readRest {w : List Char} (h : Writes multiline c w) :
    readRest ⟨'"', true, multiline⟩ (fuel + 1) acc (w ++ rest) =
      readRest ⟨'"', true, multiline⟩ fuel (c :: acc) rest := by
  cases h with
  | plain hc hslash hquote => exact readRest_plain (closing?_of_ne hquote) hc fun _ => hslash
  | lineFeed h => exact readRest_lineFeed (closing?_of_ne (by decide)) h
  | escape hx he => exact readRest_escape (closing?_of_ne (by decide)) rfl hx (he rest)

theorem readRest_escaped_line (run : Nat) (cs : List Char)
    (hfuel : (escapeFrom false run cs).length < fuel) :
    readRest ⟨'"', true, false⟩ fuel acc (escapeFrom false run cs ++ '"' :: rest) =
      some (String.ofList (acc.reverse ++ cs), rest) := by
  induction cs generalizing fuel acc run with
  | nil =>
    obtain ⟨fuel, rfl⟩ := Nat.exists_add_one_eq.2 (Nat.zero_lt_of_lt hfuel)
    exact readRest_closing closing?_single
  | cons c cs ih =>
    obtain ⟨fuel, rfl⟩ := Nat.exists_add_one_eq.2 (Nat.zero_lt_of_lt hfuel)
    rcases escapeFrom_cons false run c cs with ⟨w, hw, hcons⟩ | ⟨h, -⟩
    · obtain ⟨x, v, hx, -⟩ := hw.exists_cons
      rw [hcons, List.length_append, hx, List.length_cons] at hfuel
      rw [hcons, List.append_assoc, hw.readRest, ih 0 (by omega)]
      simp
    · cases h

/-- What stands at the front: a short run of quotes, and they alone or something else after them. -/
theorem escapeFrom_front {run : Nat} (hrun : run ≤ 2) (cs : List Char) :
    ∃ j, j + run ≤ 2 ∧
      (escapeFrom true run cs = List.replicate j '"' ∧ cs = List.replicate j '"' ∨
        ∃ c w, c ≠ '"' ∧ escapeFrom true run cs = List.replicate j '"' ++ c :: w) := by
  induction cs generalizing run with
  | nil => exact ⟨0, by omega, Or.inl ⟨rfl, rfl⟩⟩
  | cons c cs ih =>
    rcases escapeFrom_cons true run c cs with ⟨w, hw, hcons⟩ | ⟨-, rfl, hroom, hcons⟩
    · obtain ⟨x, v, rfl, hx⟩ := hw.exists_cons
      exact ⟨0, by omega, Or.inr ⟨x, v ++ escapeFrom true 0 cs, hx, hcons⟩⟩
    · have hrun : run + 1 ≤ 2 := hroom
      obtain ⟨j, hj, hfront⟩ := ih hrun
      refine ⟨j + 1, by omega, ?_⟩
      rw [hcons]
      rcases hfront with ⟨hwritten, hcs⟩ | ⟨x, w, hx, hwritten⟩
      · exact Or.inl ⟨by rw [hwritten]; rfl, by rw [hcs]; rfl⟩
      · exact Or.inr ⟨x, w, hx, by rw [hwritten]; rfl⟩

theorem readRest_escaped_lines {run : Nat} (hrun : run ≤ 2) (cs : List Char)
    (hrest : rest.head? ≠ some '"') (hfuel : (escapeFrom true run cs).length < fuel) :
    readRest ⟨'"', true, true⟩ fuel acc
        (escapeFrom true run cs ++ (List.replicate 3 '"' ++ rest)) =
      some (String.ofList (acc.reverse ++ cs), rest) := by
  induction cs generalizing fuel acc run with
  | nil =>
    obtain ⟨fuel, rfl⟩ := Nat.exists_add_one_eq.2 (Nat.zero_lt_of_lt hfuel)
    exact readRest_closing (closing?_triple (j := 0) (by omega) hrest)
  | cons c cs ih =>
    obtain ⟨fuel, rfl⟩ := Nat.exists_add_one_eq.2 (Nat.zero_lt_of_lt hfuel)
    obtain ⟨j, hj, hfront⟩ := escapeFrom_front hrun (c :: cs)
    rcases hfront with ⟨hwritten, hcs⟩ | ⟨x, v, hx, hwritten⟩
    · rw [hwritten, hcs]
      exact readRest_closing (closing?_triple (by omega) hrest)
    · have hopen : closing? ⟨'"', true, true⟩
          (escapeFrom true run (c :: cs) ++ (List.replicate 3 '"' ++ rest)) = none := by
        rw [hwritten, List.append_assoc]
        exact closing?_run (by omega) fun h => hx (Option.some.inj h)
      rcases escapeFrom_cons true run c cs with ⟨w, hw, hcons⟩ | ⟨-, rfl, hroom, hcons⟩
      · obtain ⟨y, u, hy, -⟩ := hw.exists_cons
        rw [hcons, List.length_append, hy, List.length_cons] at hfuel
        rw [hcons, List.append_assoc, hw.readRest, ih (Nat.zero_le 2) (by omega)]
        simp
      · rw [hcons, List.length_cons] at hfuel
        rw [hcons, List.cons_append] at hopen ⊢
        have hrun : run + 1 ≤ 2 := hroom
        rw [readRest_plain hopen rfl fun _ => by decide, ih hrun (by omega)]
        simp

/-! ### Between single quotes -/

theorem readRest_literal_line (cs : List Char) (hcs : ∀ c ∈ cs, isPlain c = true ∧ c ≠ '\'')
    (hfuel : cs.length < fuel) :
    readRest ⟨'\'', false, false⟩ fuel acc (cs ++ '\'' :: rest) =
      some (String.ofList (acc.reverse ++ cs), rest) := by
  induction cs generalizing fuel acc with
  | nil =>
    obtain ⟨fuel, rfl⟩ := Nat.exists_add_one_eq.2 (Nat.zero_lt_of_lt hfuel)
    exact readRest_closing closing?_single
  | cons c cs ih =>
    obtain ⟨fuel, rfl⟩ := Nat.exists_add_one_eq.2 (Nat.zero_lt_of_lt hfuel)
    obtain ⟨⟨hc, hquote⟩, hcs⟩ := List.forall_mem_cons.1 hcs
    rw [List.cons_append, readRest_plain (closing?_of_ne hquote) hc (fun h => by cases h),
      ih hcs (Nat.lt_of_succ_lt_succ hfuel)]
    simp

/-- No run of the character is longer than two, when `run` of them stand before. -/
def Short (q : Char) : Nat → List Char → Prop
  | _, [] => True
  | run, c :: cs => if c = q then run < 2 ∧ Short q (run + 1) cs else Short q 0 cs

theorem le_longestRun (q : Char) (cs : List Char) (run best : Nat) :
    max run best ≤ longestRun q cs run best := by
  induction cs generalizing run best with
  | nil => exact Nat.le_refl _
  | cons c cs ih =>
    rw [longestRun]
    split
    · have hle := ih (run + 1) best
      omega
    · have hle := ih 0 (max run best)
      omega

theorem short_of_longestRun (cs : List Char) {run best : Nat}
    (h : longestRun q cs run best ≤ 2) : Short q run cs := by
  induction cs generalizing run best with
  | nil => trivial
  | cons c cs ih =>
    rw [longestRun] at h
    rw [Short]
    split at h
    · rename_i hc
      rw [if_pos hc]
      have hle := le_longestRun q cs (run + 1) best
      exact ⟨by omega, ih h⟩
    · rename_i hc
      rw [if_neg hc]
      exact ih h

theorem Short.front {run : Nat} (hrun : run ≤ 2) {cs : List Char} (h : Short q run cs) :
    ∃ j, j + run ≤ 2 ∧
      (cs = List.replicate j q ∨ ∃ c w, c ≠ q ∧ cs = List.replicate j q ++ c :: w) := by
  induction cs generalizing run with
  | nil => exact ⟨0, by omega, Or.inl rfl⟩
  | cons c cs ih =>
    rw [Short] at h
    split at h
    · rename_i hc
      subst hc
      obtain ⟨j, hj, hfront⟩ := ih (by omega) h.2
      refine ⟨j + 1, by omega, ?_⟩
      rcases hfront with hcs | ⟨x, w, hx, hcs⟩
      · exact Or.inl (by rw [hcs]; rfl)
      · exact Or.inr ⟨x, w, hx, by rw [hcs]; rfl⟩
    · rename_i hc
      exact ⟨0, by omega, Or.inr ⟨c, cs, hc, rfl⟩⟩

theorem readRest_literal_lines {run : Nat} (hrun : run ≤ 2) {cs : List Char}
    (hshort : Short '\'' run cs) (hcs : ∀ c ∈ cs, isPlain c = true ∨ c = '\n')
    (hrest : rest.head? ≠ some '\'') (hfuel : cs.length < fuel) :
    readRest ⟨'\'', false, true⟩ fuel acc (cs ++ (List.replicate 3 '\'' ++ rest)) =
      some (String.ofList (acc.reverse ++ cs), rest) := by
  induction cs generalizing fuel acc run with
  | nil =>
    obtain ⟨fuel, rfl⟩ := Nat.exists_add_one_eq.2 (Nat.zero_lt_of_lt hfuel)
    exact readRest_closing (closing?_triple (j := 0) (by omega) hrest)
  | cons c cs ih =>
    obtain ⟨fuel, rfl⟩ := Nat.exists_add_one_eq.2 (Nat.zero_lt_of_lt hfuel)
    obtain ⟨j, hj, hfront⟩ := hshort.front hrun
    rcases hfront with hquotes | ⟨x, v, hx, hfront⟩
    · rw [hquotes]
      exact readRest_closing (closing?_triple (by omega) hrest)
    · have hopen : closing? ⟨'\'', false, true⟩ (c :: cs ++ (List.replicate 3 '\'' ++ rest)) =
          none := by
        rw [hfront, List.append_assoc]
        exact closing?_run (by omega) fun h => hx (Option.some.inj h)
      obtain ⟨hc, hcs⟩ := List.forall_mem_cons.1 hcs
      have hread : readRest ⟨'\'', false, true⟩ (fuel + 1) acc
          (c :: cs ++ (List.replicate 3 '\'' ++ rest)) =
          readRest ⟨'\'', false, true⟩ fuel (c :: acc) (cs ++ (List.replicate 3 '\'' ++ rest)) := by
        rcases hc with hc | rfl
        · exact readRest_plain hopen hc fun h => nomatch h
        · exact readRest_lineFeed hopen rfl
      have hnext : ∃ run' ≤ 2, Short '\'' run' cs := by
        rw [Short] at hshort
        split at hshort
        · exact ⟨run + 1, by omega, hshort.2⟩
        · exact ⟨0, by omega, hshort⟩
      obtain ⟨run', hrun', hshort⟩ := hnext
      rw [hread, ih hrun' hshort hcs (Nat.lt_of_succ_lt_succ hfuel)]
      simp

/-! ### Strings -/

theorem readLine?_basic (cs : List Char) :
    readLine? (basic cs ++ rest) = some (String.ofList cs, rest) := by
  have hread : readRest ⟨'"', true, false⟩ ((escapeFrom false 0 cs ++ '"' :: rest).length + 1) []
      (escapeFrom false 0 cs ++ '"' :: rest) = some (String.ofList cs, rest) :=
    readRest_escaped_line 0 cs (by rw [List.length_append]; omega)
  simpa [basic, readLine?, readBody] using hread

theorem readLine?_literal {cs : List Char} (hcs : ∀ c ∈ cs, isPlain c = true ∧ c ≠ '\'') :
    readLine? (literal cs ++ rest) = some (String.ofList cs, rest) := by
  have hread : readRest ⟨'\'', false, false⟩ ((cs ++ '\'' :: rest).length + 1) []
      (cs ++ '\'' :: rest) = some (String.ofList cs, rest) :=
    readRest_literal_line cs hcs (by rw [List.length_append]; omega)
  simpa [literal, readLine?, readBody] using hread

theorem newline?_of_plain (hc : isPlain c = true) : newline? (c :: rest) = none := by
  rw [newline?]
  · rintro others ⟨rfl, -⟩
    cases hc
  · rintro others ⟨rfl, -⟩
    cases hc

/-- A line end is put right after the opening mark exactly if the string has one itself. -/
theorem readBody_tripled (escapes : Bool) {cs written : List Char}
    (hplain : '\n' ∉ cs → ∃ c w, written ++ (List.replicate 3 q ++ rest) = c :: w ∧
      isPlain c = true) :
    ∃ fuel, written.length < fuel ∧ readBody ⟨q, escapes, true⟩
        ((if cs.contains '\n' then ['\n'] else []) ++ (written ++ (List.replicate 3 q ++ rest))) =
      readRest ⟨q, escapes, true⟩ fuel [] (written ++ (List.replicate 3 q ++ rest)) := by
  refine ⟨(written ++ (List.replicate 3 q ++ rest)).length + 1,
    by rw [List.length_append]; omega, ?_⟩
  by_cases hlined : '\n' ∈ cs
  · simp [readBody, hlined, newline?]
  · obtain ⟨c, w, hfront, hc⟩ := hplain hlined
    have hnone : newline? (written ++ (List.replicate 3 q ++ rest)) = none :=
      hfront ▸ newline?_of_plain hc
    simp only [readBody, List.contains_eq_mem, hlined, decide_false, Bool.false_eq_true, if_false,
      List.nil_append, if_true, hnone, Option.getD_none]

theorem escapeFrom_opens {cs : List Char} (hlined : '\n' ∉ cs) (run : Nat) (w : List Char) :
    ∃ c v, escapeFrom true run cs ++ '"' :: w = c :: v ∧ isPlain c = true := by
  cases cs with
  | nil => exact ⟨'"', w, rfl, rfl⟩
  | cons c cs =>
    rcases escapeFrom_cons true run c cs with ⟨v, hv, hcons⟩ | ⟨-, rfl, -, hcons⟩
    · rw [hcons]
      cases hv with
      | plain hc _ _ => exact ⟨c, _, rfl, hc⟩
      | lineFeed _ => exact (hlined List.mem_cons_self).elim
      | escape _ _ => exact ⟨'\\', _, rfl, rfl⟩
    · rw [hcons]
      exact ⟨'"', _, rfl, rfl⟩

theorem read?_escaped_lines (cs : List Char) (hrest : rest.head? ≠ some '"') :
    read? (tripled '"' cs (escapeFrom true 0 cs) ++ rest) = some (String.ofList cs, rest) := by
  have hopens (hlined : '\n' ∉ cs) : ∃ c w,
      escapeFrom true 0 cs ++ (List.replicate 3 '"' ++ rest) = c :: w ∧ isPlain c = true :=
    escapeFrom_opens hlined 0 ('"' :: '"' :: rest)
  obtain ⟨fuel, hfuel, hbody⟩ := readBody_tripled true hopens
  rw [readRest_escaped_lines (Nat.zero_le 2) cs hrest hfuel] at hbody
  simpa [tripled, read?] using hbody

theorem read?_literal_lines {cs : List Char} (hshort : Short '\'' 0 cs)
    (hcs : ∀ c ∈ cs, isPlain c = true ∨ c = '\n') (hrest : rest.head? ≠ some '\'') :
    read? (tripled '\'' cs cs ++ rest) = some (String.ofList cs, rest) := by
  have hopens (hlined : '\n' ∉ cs) : ∃ c w, cs ++ (List.replicate 3 '\'' ++ rest) = c :: w ∧
      isPlain c = true := by
    cases cs with
    | nil => exact ⟨'\'', _, rfl, rfl⟩
    | cons c cs =>
      refine ⟨c, _, rfl, (hcs c List.mem_cons_self).resolve_right ?_⟩
      rintro rfl
      exact hlined List.mem_cons_self
  obtain ⟨fuel, hfuel, hbody⟩ := readBody_tripled false hopens
  rw [readRest_literal_lines (Nat.zero_le 2) hshort hcs hrest hfuel] at hbody
  simpa [tripled, read?] using hbody

theorem longestRun_pos {cs : List Char} (hq : q ∈ cs) (run best : Nat) :
    0 < longestRun q cs run best := by
  induction cs generalizing run best with
  | nil => cases hq
  | cons c cs ih =>
    rw [longestRun]
    split
    · have hle := le_longestRun q cs (run + 1) best
      omega
    · rename_i hc
      exact ih ((List.mem_cons.1 hq).resolve_left (Ne.symm hc)) 0 (max run best)

/-- On one line a string is not mistaken for one of several lines. -/
theorem read?_of_line {w : List Char} (hw : ∀ v, w ≠ '"' :: '"' :: '"' :: v)
    (hw' : ∀ v, w ≠ '\'' :: '\'' :: '\'' :: v) : read? w = readLine? w := by
  rw [read?]
  · exact hw
  · exact hw'

theorem read?_basic (cs : List Char) (hrest : rest.head? ≠ some '"') :
    read? (basic cs ++ rest) = some (String.ofList cs, rest) := by
  have hline (v : List Char) : basic cs ++ rest ≠ '"' :: '"' :: '"' :: v := by
    intro h
    rw [basic, List.cons_append, List.cons_append, List.append_assoc] at h
    have h := (List.cons.inj h).2
    cases cs with
    | nil => exact hrest (congrArg List.head? (List.cons.inj h).2)
    | cons c cs =>
      rcases escapeFrom_cons false 0 c cs with ⟨w, hw, hcons⟩ | ⟨hfalse, -⟩
      · obtain ⟨x, u, rfl, hx⟩ := hw.exists_cons
        rw [hcons] at h
        exact hx (List.cons.inj h).1
      · cases hfalse
  have hother (v : List Char) : basic cs ++ rest ≠ '\'' :: '\'' :: '\'' :: v :=
    fun h => absurd (List.cons.inj h).1 (by decide)
  rw [read?_of_line hline hother, readLine?_basic]

theorem read?_literal {cs : List Char} (hcs : ∀ c ∈ cs, isPlain c = true ∧ c ≠ '\'')
    (hne : cs ≠ []) : read? (literal cs ++ rest) = some (String.ofList cs, rest) := by
  have hline (v : List Char) : literal cs ++ rest ≠ '\'' :: '\'' :: '\'' :: v := by
    intro h
    obtain ⟨c, cs, rfl⟩ := List.exists_cons_of_ne_nil hne
    exact (hcs c List.mem_cons_self).2 (List.cons.inj (List.cons.inj h).2).1
  have hother (v : List Char) : literal cs ++ rest ≠ '"' :: '"' :: '"' :: v :=
    fun h => absurd (List.cons.inj h).1 (by decide)
  rw [read?_of_line hother hline, readLine?_literal hcs]

theorem read?_writeString (s : String) (hrest : rest.head? ≠ some '"' ∧ rest.head? ≠ some '\'') :
    read? (writeString s ++ rest) = some (s, rest) := by
  obtain ⟨cs, rfl⟩ : ∃ cs, s = String.ofList cs := ⟨s.toList, String.ofList_toList.symm⟩
  have hplain (hcontrolled : cs.any isControl = false) : ∀ c ∈ cs, isPlain c = true ∨ c = '\n' := by
    intro c hc
    by_cases hfeed : c = '\n'
    · exact Or.inr hfeed
    · have hc := List.any_eq_false.1 hcontrolled c hc
      exact Or.inl (isPlain_of_not_control (Bool.eq_false_iff.2 hc) hfeed)
  rw [writeString, String.toList_ofList]
  simp only [Bool.and_eq_true, Bool.not_eq_true', decide_eq_true_eq]
  split
  · exact read?_basic cs hrest.1
  rename_i hfirst
  split
  · rename_i hliteral
    obtain ⟨⟨hcontrolled, hlined⟩, hsingle⟩ := hliteral
    refine read?_literal (fun c hc => ⟨(hplain hcontrolled c hc).resolve_right ?_, ?_⟩) ?_
    · rintro rfl
      simp [hc] at hlined
    · rintro rfl
      exact (longestRun_pos hc 0 0).ne' hsingle
    · rintro rfl
      exact hfirst ⟨⟨⟨rfl, rfl⟩, rfl⟩, rfl⟩
  split
  · exact read?_escaped_lines cs hrest.1
  split
  · rename_i hraw
    exact read?_literal_lines (short_of_longestRun cs hraw.2) (hplain hraw.1) hrest.2
  split
  · exact read?_escaped_lines cs hrest.1
  · exact read?_basic cs hrest.1

/-! ### Names -/

theorem name?_bare {cs : List Char} (hbare : isBareName cs = true)
    (hrest : ∀ c ∈ rest.head?, isBare c = false) :
    name? (cs ++ rest) = some (String.ofList cs, rest) := by
  rw [isBareName, Bool.and_eq_true, List.all_eq_true] at hbare
  obtain ⟨hne, hall⟩ := hbare
  have hall : ∀ c ∈ cs, isBare c = true := hall
  have htake : (cs ++ rest).takeWhile isBare = cs := takeWhile_append_of_stop hall hrest
  obtain ⟨c, w, hcs⟩ := List.exists_cons_of_ne_nil (l := cs) (by rintro rfl; cases hne)
  have hc : isBare c = true := hall c (hcs ▸ List.mem_cons_self)
  rw [name?]
  · have hempty : cs.isEmpty = false := by rw [hcs]; rfl
    simp [htake, hempty]
  · rintro v h
    rw [hcs] at h
    rw [(List.cons.inj h).1] at hc
    cases hc
  · rintro v h
    rw [hcs] at h
    rw [(List.cons.inj h).1] at hc
    cases hc

theorem name?_writeName (s : String) (hrest : ∀ c ∈ rest.head?, isBare c = false) :
    name? (writeName s ++ rest) = some (s, rest) := by
  obtain ⟨cs, rfl⟩ : ∃ cs, s = String.ofList cs := ⟨s.toList, String.ofList_toList.symm⟩
  rw [writeName, String.toList_ofList]
  simp only [Bool.and_eq_true, Bool.not_eq_true']
  split
  · rename_i hbare
    exact name?_bare hbare hrest
  have hbasic : name? (basic cs ++ rest) = some (String.ofList cs, rest) := readLine?_basic cs
  split
  · exact hbasic
  split
  · rename_i hliteral
    have hplain : ∀ c ∈ cs, isPlain c = true ∧ c ≠ '\'' := by
      intro c hc
      have hcontrolled := List.any_eq_false.1 hliteral.1 c hc
      rw [Bool.not_eq_true, Bool.or_eq_false_iff, decide_eq_false_iff_not] at hcontrolled
      refine ⟨isPlain_of_not_control hcontrolled.1 hcontrolled.2, ?_⟩
      rintro rfl
      simp [hc] at hliteral
    exact readLine?_literal hplain
  · exact hbasic

/-- A written name begins with a bare letter or with a quote. -/
theorem writeName_opens (s : String) :
    ∃ c w, writeName s = c :: w ∧ (isBare c = true ∨ c = '"' ∨ c = '\'') := by
  rw [writeName]
  split
  · rename_i hbare
    rw [isBareName, Bool.and_eq_true, List.all_eq_true] at hbare
    obtain ⟨c, w, hcs⟩ := List.exists_cons_of_ne_nil (l := s.toList) (by simpa using hbare.1)
    exact ⟨c, w, hcs, Or.inl (hbare.2 c (hcs ▸ List.mem_cons_self))⟩
  split
  · exact ⟨_, _, rfl, Or.inr (Or.inl rfl)⟩
  split
  · exact ⟨_, _, rfl, Or.inr (Or.inr rfl)⟩
  · exact ⟨_, _, rfl, Or.inr (Or.inl rfl)⟩

theorem writeString_opens (s : String) : ∃ c w, writeString s = c :: w ∧ (c = '"' ∨ c = '\'') := by
  rw [writeString]
  split
  · exact ⟨_, _, rfl, Or.inl rfl⟩
  split
  · exact ⟨_, _, rfl, Or.inr rfl⟩
  split
  · exact ⟨_, _, rfl, Or.inl rfl⟩
  split
  · exact ⟨_, _, rfl, Or.inr rfl⟩
  split
  · exact ⟨_, _, rfl, Or.inl rfl⟩
  · exact ⟨_, _, rfl, Or.inl rfl⟩

end WifiAdvisor.Document.Toml.Quotation
