import WifiAdvisor.Document.Json.Numeral

/-!
# Whole numbers in decimal

A whole number that fits 64 bits is read back from its decimal digits, wherever no more of a number
follows them.
-/
namespace WifiAdvisor.Document.Json.Numeral

open Text (digit?)

/-- What follows begins with nothing that a number could go on with. -/
def Ends (rest : List Char) : Prop :=
  ∀ c ∈ rest.head?, digit? c = none ∧ c ≠ '.' ∧ c ≠ 'e' ∧ c ≠ 'E'

theorem ends_nil : Ends [] := by simp [Ends]

theorem ends_quote : Ends ['"'] := by simp [Ends, digit?]

theorem digit?_of_isDigit {c : Char} (h : c.isDigit = true) :
    digit? c = some (c.toNat - '0'.toNat) := by
  rw [Char.isDigit, Bool.and_eq_true, decide_eq_true_eq, decide_eq_true_eq] at h
  exact if_pos h

theorem le_ofDigitChars (cs : List Char) (n : Nat) : n ≤ Nat.ofDigitChars 10 cs n := by
  induction cs generalizing n with
  | nil => exact Nat.le_refl n
  | cons c cs ih =>
    have hstep := ih (10 * n + (c.toNat - '0'.toNat))
    rw [Nat.ofDigitChars_cons]
    omega

theorem wholeDigits_append {cs rest : List Char} {n : Nat} (hcs : ∀ c ∈ cs, c.isDigit = true)
    (hrest : Ends rest) (hfits : Nat.ofDigitChars 10 cs n ≤ largest) :
    wholeDigits n 0 (cs ++ rest) = (Nat.ofDigitChars 10 cs n, 0, rest) := by
  induction cs generalizing n with
  | nil =>
    cases rest with
    | nil => rfl
    | cons c rest =>
      have hc := (hrest c rfl).1
      simp [wholeDigits, hc]
  | cons c cs ih =>
    obtain ⟨hc, hcs⟩ := List.forall_mem_cons.1 hcs
    rw [Nat.ofDigitChars_cons] at hfits
    have hnext : n * 10 + (c.toNat - '0'.toNat) ≤ largest := by
      have hle := le_ofDigitChars cs (10 * n + (c.toNat - '0'.toNat))
      omega
    rw [List.cons_append, wholeDigits, digit?_of_isDigit hc, Nat.ofDigitChars_cons]
    simp only [true_and, if_pos hnext]
    rw [Nat.mul_comm n 10, ih hcs hfits]

theorem readFraction_of_ends (p : Parts) {rest : List Char} (h : Ends rest) :
    readFraction p rest = .ok (p, rest) := by
  cases rest with
  | nil => rfl
  | cons c rest =>
    obtain ⟨-, hpoint, he, hE⟩ := h c rfl
    rw [readFraction]
    · simp [readExponent, he, hE]
    · intro others hc
      exact hpoint (List.cons.inj hc).1

/-- Only zero is written with a zero in front. -/
theorem toDigits_eq_cons {n : Nat} (hn : 0 < n) :
    ∃ c cs, Nat.toDigits 10 n = c :: cs ∧ c ≠ '0' := by
  induction n using Nat.strongRecOn with
  | ind n ih =>
    by_cases hlt : n < 10
    · have hdigit : ∀ d < 10, 0 < d → d.digitChar ≠ '0' := by decide
      exact ⟨n.digitChar, [], Nat.toDigits_of_lt_base hlt, hdigit n hlt hn⟩
    · obtain ⟨c, cs, hcs, hc⟩ := ih (n / 10) (by omega) (by omega)
      rw [Nat.toDigits_of_base_le (by omega) (by omega), hcs]
      exact ⟨c, cs ++ [(n % 10).digitChar], rfl, hc⟩

theorem isDigit_of_mem_toDigits {n : Nat} : ∀ c ∈ Nat.toDigits 10 n, c.isDigit = true :=
  fun _ => Nat.isDigit_of_mem_toDigits (by decide) (by decide)

theorem dueDigit_toDigits (n : Nat) (rest : List Char) :
    dueDigit (Nat.toDigits 10 n ++ rest) = .ok () := by
  obtain ⟨c, cs, hcs⟩ := List.exists_cons_of_ne_nil (Nat.toDigits_ne_nil (n := n) (b := 10))
  have hc : c.isDigit = true := isDigit_of_mem_toDigits (n := n) c (hcs ▸ List.mem_cons_self)
  simp [hcs, dueDigit, startsWithDigit, digit?_of_isDigit hc]

theorem readDigits_toDigits (negative : Bool) {n : Nat} (hn : n ≤ largest) {rest : List Char}
    (hrest : Ends rest) :
    readDigits negative (Nat.toDigits 10 n ++ rest) =
      .ok ({ negative, significand := n, exponent := 0, fractional := false }, rest) := by
  have hdue := dueDigit_toDigits n rest
  rcases Nat.eq_zero_or_pos n with rfl | hpos
  · have hzero : Nat.toDigits 10 0 = ['0'] := rfl
    have hstarts : startsWithDigit rest = false := by
      cases rest with
      | nil => rfl
      | cons c rest => simp [startsWithDigit, (hrest c rfl).1]
    rw [hzero, List.singleton_append] at hdue ⊢
    rw [readDigits, hdue]
    simp [hstarts, readFraction_of_ends _ hrest, bind, Except.bind]
  · obtain ⟨c, cs, hcs, hc⟩ := toDigits_eq_cons hpos
    have hvalue : Nat.ofDigitChars 10 (Nat.toDigits 10 n) 0 = n :=
      Nat.ofDigitChars_toDigits (by decide) (by decide)
    have hwhole := wholeDigits_append (n := 0) (isDigit_of_mem_toDigits (n := n)) hrest
      (hvalue.symm ▸ hn)
    rw [hvalue, hcs] at hwhole
    rw [hcs] at hdue ⊢
    rw [List.cons_append] at hdue hwhole ⊢
    rw [readDigits, hdue]
    · simp [hwhole, readFraction_of_ends _ hrest, bind, Except.bind]
    · intro others heq
      exact hc (List.cons.inj heq).1

theorem toString_eq_cons (i : Int) :
    ∃ c cs, (toString i).toList = c :: cs ∧ (c = '-' || startsWithDigit [c]) = true := by
  rw [Int.toString_eq_repr, Int.repr_eq_if]
  split
  · obtain ⟨c, cs, hcs⟩ := List.exists_cons_of_ne_nil
      (Nat.toDigits_ne_nil (n := i.toNat) (b := 10))
    have hc : c.isDigit = true := isDigit_of_mem_toDigits c (hcs ▸ List.mem_cons_self)
    refine ⟨c, cs, Nat.toList_repr.trans hcs, ?_⟩
    simp [startsWithDigit, digit?_of_isDigit hc]
  · rw [String.toList_append]
    exact ⟨'-', _, rfl, rfl⟩

/-- The whole numbers that are kept as such. -/
def Whole (i : Int) : Prop := -9223372036854775808 ≤ i ∧ i ≤ 18446744073709551615

theorem read_toString {i : Int} (hi : Whole i) {rest : List Char} (hrest : Ends rest) :
    read ((toString i).toList ++ rest) = .ok (.integer i, rest) := by
  obtain ⟨hlow, hhigh⟩ := hi
  rw [Int.toString_eq_repr, Int.repr_eq_if]
  split
  · rename_i hsign
    obtain ⟨n, rfl⟩ := Int.eq_ofNat_of_zero_le hsign
    have hdigits := readDigits_toDigits false (n := n) (by rw [largest]; omega) hrest
    obtain ⟨c, cs, hcs⟩ := List.exists_cons_of_ne_nil (Nat.toDigits_ne_nil (n := n) (b := 10))
    have hc : c.isDigit = true := isDigit_of_mem_toDigits (n := n) c (hcs ▸ List.mem_cons_self)
    rw [Int.toNat_natCast, Nat.toList_repr]
    rw [hcs, List.cons_append] at hdigits ⊢
    rw [read]
    · simp [hdigits, value, bind, Except.bind, pure, Except.pure]
    · intro others heq
      cases (List.cons.inj heq).1
      simp at hc
  · rename_i hsign
    obtain ⟨n, hn⟩ := Int.eq_ofNat_of_zero_le (a := -i) (by omega)
    have hdigits := readDigits_toDigits true (n := n) (by rw [largest]; omega) hrest
    have hminus : "-".toList = ['-'] := rfl
    have hpos : 0 < n := by omega
    have hroom : n ≤ 9223372036854775808 := by omega
    rw [hn, Int.toNat_natCast, String.toList_append, hminus, Nat.toList_repr, List.append_assoc,
      List.singleton_append, read, hdigits]
    simp only [bind, Except.bind, pure, Except.pure, value]
    simp only [Bool.not_false, Bool.not_true, Bool.and_false, hpos, hroom, decide_true,
      Bool.and_true, Bool.false_eq_true, if_false, if_true]
    rw [← hn, Int.neg_neg]

end WifiAdvisor.Document.Json.Numeral
