import WifiAdvisor.Proofs.Numerals
import WifiAdvisor.Proofs.Quotes

/-!
# Values on a line

A truth value, a string, an empty list and a whole number with room in 64 bits come back from the
line they are written on. Digits before a line end are no date and no time of day, nor the front of
a number with a point or an exponent.
-/
namespace WifiAdvisor.Document.Toml

open Text (digit?)
open Json.Numeral (digit?_of_isDigit isDigit_of_mem_toDigits toDigits_eq_cons)

variable {rest : List Char}

/-! ### Whole numbers -/

namespace Numeral

theorem digitsAfter_run {ds : List Char} (hds : ∀ c ∈ ds, c.isDigit = true) (acc : List Nat)
    (rest : List Char) :
    digitsAfter digit? acc (ds ++ '\n' :: rest) =
      (acc.reverse ++ ds.map fun c => c.toNat - '0'.toNat, '\n' :: rest) := by
  induction ds generalizing acc with
  | nil =>
    have hfeed : digit? '\n' = none := rfl
    cases rest with
    | nil => simp [digitsAfter, hfeed]
    | cons c rest => cases h : digit? c <;> simp [digitsAfter, hfeed, h]
  | cons c ds ih =>
    obtain ⟨hc, hds⟩ := List.forall_mem_cons.1 hds
    obtain ⟨next, more, hnext⟩ : ∃ next more, ds ++ '\n' :: rest = next :: more :=
      List.exists_cons_of_ne_nil (by simp)
    have hread := ih hds ((c.toNat - '0'.toNat) :: acc)
    rw [hnext] at hread
    rw [List.cons_append, hnext, digitsAfter, digit?_of_isDigit hc]
    simpa using hread

theorem foldl_digits (ds : List Char) (n : Nat) :
    (ds.map fun c => c.toNat - '0'.toNat).foldl (fun n d => n * 10 + d) n =
      Nat.ofDigitChars 10 ds n := by
  induction ds generalizing n with
  | nil => rfl
  | cons c ds ih => rw [List.map_cons, List.foldl_cons, ih, Nat.ofDigitChars_cons, Nat.mul_comm]

theorem whole?_toDigits (n : Nat) (rest : List Char) :
    ∃ digits, whole? (Nat.toDigits 10 n ++ '\n' :: rest) = some (digits, '\n' :: rest) ∧
      valueOf 10 digits = n := by
  rcases Nat.eq_zero_or_pos n with rfl | hpos
  · exact ⟨[0], rfl, rfl⟩
  · obtain ⟨c, cs, hcs, hc⟩ := toDigits_eq_cons hpos
    have hread := digitsAfter_run (isDigit_of_mem_toDigits (n := n)) [] rest
    refine ⟨(Nat.toDigits 10 n).map fun c => c.toNat - '0'.toNat, ?_, ?_⟩
    · rw [hcs] at hread ⊢
      rw [List.cons_append] at hread ⊢
      rw [whole?]
      · simp [digits?, hread]
      · intro others h
        exact hc (List.cons.inj h).1
    · rw [valueOf, foldl_digits]
      exact Nat.ofDigitChars_toDigits (by decide) (by decide)

/-- The characters of a whole number: its digits, after a minus sign if it is negative. -/
def written (negative : Bool) (n : Nat) : List Char :=
  if negative then '-' :: Nat.toDigits 10 n else Nat.toDigits 10 n

theorem exists_written (i : Int) : ∃ negative n, (toString i).toList = written negative n ∧
    i = if negative then -(n : Int) else n := by
  rw [Int.toString_eq_repr, Int.repr_eq_if]
  split
  · exact ⟨false, i.toNat, Nat.toList_repr, (Int.toNat_of_nonneg ‹_›).symm⟩
  · refine ⟨true, (-i).toNat, by rw [String.toList_append, Nat.toList_repr]; rfl, ?_⟩
    rw [if_pos rfl, Int.toNat_of_nonneg (by omega), Int.neg_neg]

theorem toDigits_opens (n : Nat) : ∃ c cs, Nat.toDigits 10 n = c :: cs ∧ c.isDigit = true := by
  obtain ⟨c, cs, hcs⟩ := List.exists_cons_of_ne_nil (Nat.toDigits_ne_nil (n := n) (b := 10))
  exact ⟨c, cs, hcs, isDigit_of_mem_toDigits (n := n) c (hcs ▸ List.mem_cons_self)⟩

theorem ne_of_isDigit {c d : Char} (hc : c.isDigit = true) (hd : d.isDigit = false) : c ≠ d := by
  rintro rfl
  rw [hd] at hc
  cases hc

theorem sign_written (negative : Bool) (n : Nat) (rest : List Char) :
    sign (written negative n ++ rest) = (negative, Nat.toDigits 10 n ++ rest) := by
  cases negative with
  | true => rfl
  | false =>
    obtain ⟨c, cs, hcs, hc⟩ := toDigits_opens n
    rw [written, if_neg (by decide), hcs, List.cons_append, sign]
    · exact fun _ h => ne_of_isDigit hc rfl (List.cons.inj h).1
    · exact fun _ h => ne_of_isDigit hc rfl (List.cons.inj h).1

theorem readSpecial?_written (negative : Bool) (n : Nat) (rest : List Char) :
    readSpecial? (written negative n ++ rest) = none := by
  obtain ⟨c, cs, hcs, hc⟩ := toDigits_opens n
  simp only [readSpecial?, sign_written, hcs, List.cons_append]
  split
  · rename_i h
    exact (ne_of_isDigit hc rfl (List.cons.inj h).1).elim
  · rename_i h
    exact (ne_of_isDigit hc rfl (List.cons.inj h).1).elim
  · rfl

theorem readBased?_written (negative : Bool) (n : Nat) (rest : List Char) :
    readBased? (written negative n ++ '\n' :: rest) = none := by
  cases negative with
  | true => rfl
  | false =>
    rcases Nat.eq_zero_or_pos n with rfl | hpos
    · rfl
    · obtain ⟨c, cs, hcs, hc⟩ := toDigits_eq_cons hpos
      rw [written, if_neg (by decide), hcs, List.cons_append, readBased?]
      all_goals exact fun _ h => hc (List.cons.inj h).1

theorem read?_toString {i : Int} (hi : hasRoom i = true) (rest : List Char) :
    read? ((toString i).toList ++ '\n' :: rest) = some (.integer i, '\n' :: rest) := by
  obtain ⟨negative, n, htext, hvalue⟩ := exists_written i
  obtain ⟨digits, hdigits, hn⟩ := whole?_toDigits n rest
  have hsign := sign_written negative n ('\n' :: rest)
  have hreal : readReal? (written negative n ++ '\n' :: rest) = none := by
    simp [readReal?, hsign, hdigits, fraction?, exponent?]
  have hwhole : readWhole? (written negative n ++ '\n' :: rest) =
      some (.integer i, '\n' :: rest) := by
    simp [readWhole?, hsign, hdigits, hn, ← hvalue, integer?, hi]
  rw [htext, read?, hreal, readSpecial?_written, readBased?_written, hwhole]
  rfl

end Numeral

/-! ### No dates -/

namespace Datetime

/-- Digits, and after them nothing that a date or a time of day goes on with. -/
def Run (cs : List Char) : Prop :=
  ∃ ds c w, cs = ds ++ c :: w ∧ (∀ d ∈ ds, d.isDigit = true) ∧ digit? c = none ∧ c ≠ '-' ∧ c ≠ ':'

theorem Run.tail {a : Char} {cs : List Char} (h : Run (a :: cs)) {n : Nat}
    (ha : digit? a = some n) : Run cs := by
  obtain ⟨ds, c, w, hcs, hds, hc, hmarks⟩ := h
  cases ds with
  | nil =>
    rw [(List.cons.inj hcs).1, hc] at ha
    cases ha
  | cons d ds => exact ⟨ds, c, w, (List.cons.inj hcs).2, (List.forall_mem_cons.1 hds).2, hc, hmarks⟩

theorem exists_digits_of_two? {cs after : List Char} {low high n : Nat}
    (h : two? low high cs = some (n, after)) :
    ∃ a b m k, cs = a :: b :: after ∧ digit? a = some m ∧ digit? b = some k := by
  match cs with
  | [] | [_] => cases h
  | a :: b :: cs =>
    simp only [two?, Option.bind_eq_bind, Option.bind_eq_some_iff] at h
    obtain ⟨m, ha, k, hb, h⟩ := h
    split at h
    · rw [← (Prod.mk.inj (Option.some.inj h)).2]
      exact ⟨a, b, m, k, rfl, ha, hb⟩
    · cases h

theorem Run.two? {cs after : List Char} (h : Run cs) {low high n : Nat}
    (hread : two? low high cs = some (n, after)) : Run after := by
  obtain ⟨a, b, m, k, rfl, ha, hb⟩ := exists_digits_of_two? hread
  exact (h.tail ha).tail hb

theorem Run.four? {cs after : List Char} (h : Run cs) {n : Nat}
    (hread : four? cs = some (n, after)) : Run after := by
  match cs with
  | [] | [_] | [_, _] | [_, _, _] => simp [Datetime.four?] at hread
  | a :: b :: c :: d :: cs =>
    simp only [Datetime.four?, Option.bind_eq_bind, Option.bind_eq_some_iff] at hread
    obtain ⟨⟨x, restx⟩, hx, ⟨y, resty⟩, hy, hread⟩ := hread
    cases hread
    obtain ⟨_, _, m, k, heq, ha, hb⟩ := exists_digits_of_two? hx
    obtain ⟨_, _, m', k', heq', hc, hd⟩ := exists_digits_of_two? hy
    cases heq
    cases heq'
    exact (((h.tail ha).tail hb).tail hc).tail hd

theorem Run.mark? {cs : List Char} (h : Run cs) {m : Char} (hm : m = '-' ∨ m = ':') :
    mark? m cs = none := by
  obtain ⟨ds, c, w, rfl, hds, hc, hminus, hcolon⟩ := h
  cases ds with
  | nil =>
    have hne : c ≠ m := by rcases hm with rfl | rfl <;> assumption
    simp [Datetime.mark?, hne]
  | cons d ds =>
    have hd := hds d List.mem_cons_self
    have hne : d ≠ m := by
      rcases hm with rfl | rfl <;> exact Numeral.ne_of_isDigit hd rfl
    simp [Datetime.mark?, hne]

theorem Run.read? {cs : List Char} (h : Run cs) : read? cs = none := by
  have hdate : date? cs = none := by
    rw [date?, Option.bind_eq_bind, Option.bind_eq_none_iff]
    rintro ⟨year, after⟩ hyear
    simp [(h.four? hyear).mark? (Or.inl rfl)]
  have htime : time? cs = none := by
    rw [time?, Option.bind_eq_bind, Option.bind_eq_none_iff]
    rintro ⟨hour, after⟩ hhour
    simp [(h.two? hhour).mark? (Or.inr rfl)]
  rw [Datetime.read?, hdate, htime]
  rfl

theorem read?_of_not_digit {c : Char} (hc : digit? c = none) (cs : List Char) :
    read? (c :: cs) = none := by
  have htwo (low high : Nat) (cs : List Char) : two? low high (c :: cs) = none := by
    rw [Option.eq_none_iff_forall_ne_some]
    rintro ⟨n, after⟩ h
    obtain ⟨a, b, m, k, heq, ha, -⟩ := exists_digits_of_two? h
    rw [← (List.cons.inj heq).1, hc] at ha
    cases ha
  have hfour : four? (c :: cs) = none := by
    match cs with
    | [] | [_] | [_, _] => rfl
    | _ :: _ :: _ :: _ => simp [four?, htwo]
  simp [read?, date?, time?, hfour, htwo]

end Datetime

/-- A whole number at the end of a line is no date. -/
theorem Datetime.read?_toString (i : Int) (rest : List Char) :
    Datetime.read? ((toString i).toList ++ '\n' :: rest) = none := by
  obtain ⟨negative, n, htext, -⟩ := Numeral.exists_written i
  rw [htext]
  cases negative with
  | true => exact read?_of_not_digit rfl _
  | false =>
    exact Run.read? ⟨_, '\n', rest, rfl, isDigit_of_mem_toDigits, rfl, by decide, by decide⟩

/-! ### Values -/

theorem value?_string (s : String) (fuel : Nat) :
    value? 0 (fuel + 1) (Quotation.writeString s ++ '\n' :: rest) =
      some (.string s, '\n' :: rest) := by
  obtain ⟨c, w, hs, hc⟩ := Quotation.writeString_opens s
  have hread : Quotation.read? (Quotation.writeString s ++ '\n' :: rest) = some (s, '\n' :: rest) :=
    Quotation.read?_writeString s ⟨by simp, by simp⟩
  rw [hs, List.cons_append] at hread ⊢
  rw [value?, if_pos (by simpa using hc), hread]
  rfl

theorem value?_int {i : Int} (hi : Numeral.hasRoom i = true) (fuel : Nat) :
    value? 0 (fuel + 1) ((toString i).toList ++ '\n' :: rest) =
      some (.int i, '\n' :: rest) := by
  have hdate := Datetime.read?_toString i rest
  have hread := Numeral.read?_toString hi rest
  obtain ⟨c, cs, htext, hc⟩ := Json.Numeral.toString_eq_cons i
  rw [htext, List.cons_append] at hdate hread ⊢
  have hother (d : Char) (hd : d ≠ '-') (hd' : Json.Numeral.startsWithDigit [d] = false) :
      c ≠ d := by
    rintro rfl
    simp [hd, hd'] at hc
  have hquote : ¬ (decide (c = '"') || decide (c = '\'')) = true := by
    simp [hother '"' (by decide) rfl, hother '\'' (by decide) rfl]
  rw [value?, if_neg hquote, if_neg (hother _ (by decide) rfl), if_neg (hother _ (by decide) rfl),
    if_neg (hother _ (by decide) rfl), if_neg (hother _ (by decide) rfl), hdate, hread]
  rfl

theorem value?_empty (fuel : Nat) :
    value? 0 (fuel + 2) ('[' :: ']' :: '\n' :: rest) = some (.array [], '\n' :: rest) := by
  rfl

theorem inlineValue_int_eq_ok_iff {i : Int} {w : List Char} :
    inlineValue (.int i) = .ok w ↔ Numeral.hasRoom i = true ∧ (toString i).toList = w := by
  rw [Value.int, inlineValue]
  split <;> simp [*]

/-- A value that stands on the line of its name. -/
inductive Scalar : Value → Prop
  | bool (b : Bool) : Scalar (.bool b)
  | int (i : Int) : Scalar (.int i)
  | string (s : String) : Scalar (.string s)
  | empty : Scalar (.array [])

theorem Scalar.value? {v : Value} (hv : Scalar v) {w : List Char} (hw : inlineValue v = .ok w)
    (fuel : Nat) : value? 0 (fuel + 2) (w ++ '\n' :: rest) = some (v, '\n' :: rest) := by
  cases hv with
  | bool b => cases b <;> cases Except.ok.inj hw <;> rfl
  | int i =>
    obtain ⟨hroom, rfl⟩ := inlineValue_int_eq_ok_iff.1 hw
    exact value?_int hroom _
  | string s =>
    rw [inlineValue] at hw
    rw [← Except.ok.inj hw]
    exact value?_string s _
  | empty =>
    rw [← Except.ok.inj hw]
    exact value?_empty fuel

theorem Scalar.opens {v : Value} (hv : Scalar v) {w : List Char} (hw : inlineValue v = .ok w) :
    ∃ c cs, w = c :: cs ∧ isBlank c = false := by
  cases hv with
  | bool b => cases b <;> cases Except.ok.inj hw <;> exact ⟨_, _, rfl, rfl⟩
  | int i =>
    obtain ⟨-, rfl⟩ := inlineValue_int_eq_ok_iff.1 hw
    obtain ⟨c, cs, htext, hc⟩ := Json.Numeral.toString_eq_cons i
    refine ⟨c, cs, htext, ?_⟩
    rw [isBlank, Bool.or_eq_false_iff, decide_eq_false_iff_not, decide_eq_false_iff_not]
    constructor <;> rintro rfl <;> simp [Json.Numeral.startsWithDigit, Text.digit?] at hc
  | string s =>
    obtain ⟨c, cs, htext, hc⟩ := Quotation.writeString_opens s
    refine ⟨c, cs, (Except.ok.inj hw).symm.trans htext, ?_⟩
    rcases hc with rfl | rfl <;> rfl
  | empty => exact ⟨'[', [']'], (Except.ok.inj hw).symm, rfl⟩

end WifiAdvisor.Document.Toml
