import Mathlib.Data.List.Basic
import WifiAdvisor.Selection

/-!
# The first of the strongest

What a scan comes to is decided by one candidate, the first of those than which none is stronger.
It is recommended unless its name is blocklisted, and then nothing is, whatever else came in. So no
other name counts, and candidates that are weaker, or as strong and later, make no difference.
-/
namespace WifiAdvisor.Selection

variable {c d best x : Candidate} {cs seen front back more : List Candidate} {i j : Nat}
  {blocklist other : Blocklist}

/-- Nothing before `c` is as strong, and nothing after it is stronger. -/
def FirstStrongest (c : Candidate) (cs : List Candidate) : Prop :=
  ∃ before later, cs = before ++ c :: later ∧ (∀ x ∈ before, x.rssi < c.rssi) ∧
    ∀ x ∈ later, x.rssi ≤ c.rssi

/-- At `i` stands `c`, as strong as any and stronger than each one before it. -/
structure StandsFirst (cs : List Candidate) (i : Nat) (c : Candidate) : Prop where
  there : cs[i]? = some c
  strongest : ∀ x ∈ cs, x.rssi ≤ c.rssi
  first : ∀ x ∈ cs.take i, x.rssi < c.rssi

/-! ### There is one place where it can stand -/

theorem StandsFirst.firstStrongest (h : StandsFirst cs i c) : FirstStrongest c cs := by
  obtain ⟨hi, rfl⟩ := List.getElem?_eq_some_iff.mp h.there
  refine ⟨cs.take i, cs.drop (i + 1), ?_, h.first, ?_⟩
  · rw [← List.drop_eq_getElem_cons hi, List.take_append_drop]
  · exact fun x hx => h.strongest x (List.mem_of_mem_drop hx)

theorem FirstStrongest.le (h : FirstStrongest c cs) : ∀ x ∈ cs, x.rssi ≤ c.rssi := by
  obtain ⟨before, later, rfl, hbefore, hlater⟩ := h
  intro x hx
  rcases List.mem_append.mp hx with hx | hx
  · exact Int32.le_of_lt (hbefore x hx)
  · rcases List.mem_cons.mp hx with rfl | hx
    · exact Int32.le_refl _
    · exact hlater x hx

theorem FirstStrongest.standsFirst (h : FirstStrongest c cs) : ∃ i, StandsFirst cs i c := by
  have hle := h.le
  obtain ⟨before, later, rfl, hbefore, -⟩ := h
  exact ⟨before.length, by simp, hle, by simpa using hbefore⟩

theorem StandsFirst.not_lt (hi : StandsFirst cs i c) (hj : StandsFirst cs j d) : ¬i < j := by
  intro hij
  have hc : c ∈ cs.take j := by
    refine List.mem_of_getElem? (i := i) ?_
    rw [List.getElem?_take_of_lt hij, hi.there]
  have hd : d ∈ cs := List.mem_of_getElem? hj.there
  exact Int32.not_lt.mpr (hi.strongest d hd) (hj.first c hc)

theorem StandsFirst.unique (hi : StandsFirst cs i c) (hj : StandsFirst cs j d) :
    i = j ∧ c = d := by
  obtain rfl : i = j :=
    Nat.le_antisymm (Nat.not_lt.mp (hj.not_lt hi)) (Nat.not_lt.mp (hi.not_lt hj))
  exact ⟨rfl, Option.some.inj (hi.there.symm.trans hj.there)⟩

theorem FirstStrongest.unique (hc : FirstStrongest c cs) (hd : FirstStrongest d cs) : c = d := by
  obtain ⟨i, hi⟩ := hc.standsFirst
  obtain ⟨j, hj⟩ := hd.standsFirst
  exact (hi.unique hj).2

/-! ### Going through a list -/

theorem FirstStrongest.next (h : FirstStrongest best seen) (x : Candidate) :
    FirstStrongest (if best.rssi < x.rssi then x else best) (seen ++ [x]) := by
  split
  next hx =>
    exact ⟨seen, [], rfl, fun y hy => Int32.lt_of_le_of_lt (h.le y hy) hx, by simp⟩
  next hx =>
    obtain ⟨before, later, rfl, hbefore, hlater⟩ := h
    refine ⟨before, later ++ [x], by simp, hbefore, ?_⟩
    exact List.forall_mem_append.mpr ⟨hlater, by simpa using Int32.not_lt.mp hx⟩

/-- Whatever has been seen, the first of the strongest so far is what is kept. -/
theorem FirstStrongest.strongerOf (h : FirstStrongest best seen) (cs : List Candidate) :
    FirstStrongest (strongerOf best cs) (seen ++ cs) := by
  induction cs generalizing best seen with
  | nil => simpa [Selection.strongerOf] using h
  | cons x rest ih => simpa [Selection.strongerOf] using ih (h.next x)

theorem firstStrongest?_eq_some_iff : firstStrongest? cs = some c ↔ FirstStrongest c cs := by
  cases cs with
  | nil => simp [firstStrongest?, FirstStrongest]
  | cons best rest =>
    have hone : FirstStrongest best [best] := ⟨[], [], rfl, by simp, by simp⟩
    have hkept : FirstStrongest (strongerOf best rest) (best :: rest) := hone.strongerOf rest
    rw [firstStrongest?, Option.some.injEq]
    constructor
    · rintro rfl
      exact hkept
    · exact hkept.unique

theorem exists_standsFirst (h : cs ≠ []) : ∃ i c, StandsFirst cs i c := by
  cases cs with
  | nil => exact absurd rfl h
  | cons best rest =>
    have hkept : firstStrongest? (best :: rest) = some (strongerOf best rest) := rfl
    obtain ⟨i, hi⟩ := (firstStrongest?_eq_some_iff.mp hkept).standsFirst
    exact ⟨i, _, hi⟩

/-! ### What is recommended, and where it stands -/

theorem recommend?_nil (blocklist : Blocklist) : recommend? [] blocklist = none := rfl

theorem StandsFirst.recommend?_eq (h : StandsFirst cs i c) (blocklist : Blocklist) :
    recommend? cs blocklist = if c.ssid ∈ blocklist then none else some c := by
  rw [recommend?, firstStrongest?_eq_some_iff.mpr h.firstStrongest]
  by_cases hb : c.ssid ∈ blocklist <;> simp [Option.filter, Blocklist.contains, hb]

theorem StandsFirst.findIdx? (h : StandsFirst cs i c) :
    (cs.findIdx? fun x => x.rssi = c.rssi) = some i := by
  obtain ⟨hi, hc⟩ := List.getElem?_eq_some_iff.mp h.there
  refine List.findIdx?_eq_some_iff_getElem.mpr ⟨hi, by simp [hc], fun j hj => ?_⟩
  have hlt := h.first _ (List.mem_take_iff_getElem.mpr ⟨j, by omega, rfl⟩)
  simpa using Int32.ne_of_lt hlt

theorem StandsFirst.recommendIndex?_eq (h : StandsFirst cs i c) (blocklist : Blocklist) :
    recommendIndex? cs blocklist = if c.ssid ∈ blocklist then none else some i := by
  rw [recommendIndex?, h.recommend?_eq]
  split
  · rfl
  · exact h.findIdx?

theorem recommend?_eq (h : FirstStrongest c cs) (hb : c.ssid ∉ blocklist) :
    recommend? cs blocklist = some c := by
  obtain ⟨i, hi⟩ := h.standsFirst
  rw [hi.recommend?_eq, if_neg hb]

theorem recommendIndex?_eq_some_iff :
    recommendIndex? cs blocklist = some i ↔ ∃ c, StandsFirst cs i c ∧ c.ssid ∉ blocklist := by
  constructor
  · intro h
    have hne : cs ≠ [] := by
      rintro rfl
      cases h
    obtain ⟨j, c, hj⟩ := exists_standsFirst hne
    rw [hj.recommendIndex?_eq, Option.ite_none_left_eq_some] at h
    obtain ⟨hb, hij⟩ := h
    exact ⟨c, Option.some.inj hij ▸ hj, hb⟩
  · rintro ⟨c, hi, hb⟩
    rw [hi.recommendIndex?_eq, if_neg hb]

theorem recommend?_eq_none_iff :
    recommend? cs blocklist = none ↔
      cs = [] ∨ ∃ i c, StandsFirst cs i c ∧ c.ssid ∈ blocklist := by
  by_cases hne : cs = []
  · simp [hne, recommend?_nil]
  · obtain ⟨i, c, hi⟩ := exists_standsFirst hne
    rw [hi.recommend?_eq]
    constructor
    · intro h
      have hb : c.ssid ∈ blocklist := by simpa using h
      exact .inr ⟨i, c, hi, hb⟩
    · rintro (h | ⟨j, d, hj, hb⟩)
      · exact absurd h hne
      · rw [(hi.unique hj).2, if_pos hb]

theorem recommend?_eq_getElem? (cs : List Candidate) (blocklist : Blocklist) :
    recommend? cs blocklist = (recommendIndex? cs blocklist).bind (cs[·]?) := by
  by_cases hne : cs = []
  · rw [hne]
    rfl
  · obtain ⟨i, c, hi⟩ := exists_standsFirst hne
    rw [hi.recommend?_eq, hi.recommendIndex?_eq]
    split
    · rfl
    · exact hi.there.symm

/-- Of the blocklist only one name counts. -/
theorem recommend?_congr
    (h : ∀ i c, StandsFirst cs i c → (c.ssid ∈ blocklist ↔ c.ssid ∈ other)) :
    recommend? cs blocklist = recommend? cs other := by
  by_cases hne : cs = []
  · rw [hne]
    rfl
  · obtain ⟨i, c, hi⟩ := exists_standsFirst hne
    rw [hi.recommend?_eq, hi.recommend?_eq]
    simp only [h i c hi]

/-! ### Candidates that are put in -/

/-- `x`, put in between `front` and `back`, is no stronger than one before it or weaker than one
behind it: so it is if weaker than the strongest, or as strong and behind the first of those. -/
def Negligible (front : List Candidate) (x : Candidate) (back : List Candidate) : Prop :=
  (∃ c ∈ front, x.rssi ≤ c.rssi) ∨ ∃ c ∈ back, x.rssi < c.rssi

/-- The list with negligible candidates put in, one after the other. -/
inductive Widens (cs : List Candidate) : List Candidate → Prop where
  | refl : Widens cs cs
  | insert {y : Candidate} {before later : List Candidate} :
    Widens cs (before ++ later) → Negligible before y later → Widens cs (before ++ y :: later)

/-- The first of the strongest stays where it is, or moves on by the place that `x` takes. -/
theorem StandsFirst.insert (h : StandsFirst (front ++ back) i c) (hx : Negligible front x back) :
    StandsFirst (front ++ x :: back) (if i < front.length then i else i + 1) c := by
  have hle : x.rssi ≤ c.rssi := by
    rcases hx with ⟨y, hy, hxy⟩ | ⟨y, hy, hxy⟩
    · exact Int32.le_trans hxy (h.strongest y (List.mem_append_left _ hy))
    · exact Int32.le_trans (Int32.le_of_lt hxy) (h.strongest y (List.mem_append_right _ hy))
  have hstrongest : ∀ y ∈ front ++ x :: back, y.rssi ≤ c.rssi := by
    intro y hy
    rcases List.mem_append.mp hy with hy | hy
    · exact h.strongest y (List.mem_append_left _ hy)
    · rcases List.mem_cons.mp hy with rfl | hy
      · exact hle
      · exact h.strongest y (List.mem_append_right _ hy)
  have hthere := h.there
  have hfirst := h.first
  by_cases hi : i < front.length
  · rw [if_pos hi]
    rw [List.getElem?_append_left hi] at hthere
    rw [List.take_append_of_le_length (Nat.le_of_lt hi)] at hfirst
    refine ⟨?_, hstrongest, ?_⟩
    · rw [List.getElem?_append_left hi, hthere]
    · rw [List.take_append_of_le_length (Nat.le_of_lt hi)]
      exact hfirst
  · -- All of `front` is before it, so `x` comes in before it and has to be weaker.
    rw [if_neg hi]
    obtain ⟨k, rfl⟩ := Nat.exists_eq_add_of_le (Nat.not_lt.mp hi)
    rw [List.getElem?_append_right (Nat.le_add_right _ _), Nat.add_sub_cancel_left] at hthere
    rw [List.take_length_add_append] at hfirst
    have hfront : ∀ y ∈ front, y.rssi < c.rssi := fun y hy => hfirst y (List.mem_append_left _ hy)
    have hlt : x.rssi < c.rssi := by
      rcases hx with ⟨y, hy, hxy⟩ | ⟨y, hy, hxy⟩
      · exact Int32.lt_of_le_of_lt hxy (hfront y hy)
      · exact Int32.lt_of_lt_of_le hxy (h.strongest y (List.mem_append_right _ hy))
    refine ⟨?_, hstrongest, ?_⟩
    · rw [Nat.add_assoc, List.getElem?_append_right (Nat.le_add_right _ _),
        Nat.add_sub_cancel_left, List.getElem?_cons_succ, hthere]
    · rw [Nat.add_assoc, List.take_length_add_append, List.take_succ_cons]
      intro y hy
      rcases List.mem_append.mp hy with hy | hy
      · exact hfront y hy
      · rcases List.mem_cons.mp hy with rfl | hy
        · exact hlt
        · exact hfirst y (List.mem_append_right _ hy)

theorem Negligible.exists_standsFirst (hx : Negligible front x back) :
    ∃ i c, StandsFirst (front ++ back) i c := by
  refine Selection.exists_standsFirst ?_
  rintro heq
  obtain ⟨rfl, rfl⟩ := List.append_eq_nil_iff.mp heq
  simp [Negligible] at hx

theorem Negligible.recommend?_eq (hx : Negligible front x back) (blocklist : Blocklist) :
    recommend? (front ++ x :: back) blocklist = recommend? (front ++ back) blocklist := by
  obtain ⟨i, c, hi⟩ := hx.exists_standsFirst
  rw [hi.recommend?_eq, (hi.insert hx).recommend?_eq]

theorem Negligible.recommendIndex?_eq (hx : Negligible front x back) (blocklist : Blocklist) :
    recommendIndex? (front ++ x :: back) blocklist =
      (recommendIndex? (front ++ back) blocklist).map fun i =>
        if i < front.length then i else i + 1 := by
  obtain ⟨i, c, hi⟩ := hx.exists_standsFirst
  rw [hi.recommendIndex?_eq, (hi.insert hx).recommendIndex?_eq]
  split <;> rfl

theorem Widens.recommend?_eq (h : Widens cs more) (blocklist : Blocklist) :
    recommend? more blocklist = recommend? cs blocklist := by
  induction h with
  | refl => rfl
  | insert _ hx ih => rw [hx.recommend?_eq, ih]

/-- A place is recommended if and only if what stands there is as strong as any, stronger than
each one before it and not blocklisted; nothing is if and only if there is nothing or the name of
the first of the strongest is blocklisted. So the blocklist counts only as far as it holds that
name, and candidates that are put in where they are negligible leave the same one recommended, in
the place it has moved to. -/
theorem first_strongest_or_nothing (cs : List Candidate) (blocklist : Blocklist) :
    (∀ i, recommendIndex? cs blocklist = some i ↔ ∃ c, cs[i]? = some c ∧
      (∀ x ∈ cs, x.rssi ≤ c.rssi) ∧ (∀ x ∈ cs.take i, x.rssi < c.rssi) ∧ c.ssid ∉ blocklist) ∧
    recommend? cs blocklist = (recommendIndex? cs blocklist).bind (cs[·]?) ∧
    (recommend? cs blocklist = none ↔
      cs = [] ∨ ∃ i c, StandsFirst cs i c ∧ c.ssid ∈ blocklist) ∧
    (∀ other, (∀ i c, StandsFirst cs i c → (c.ssid ∈ blocklist ↔ c.ssid ∈ other)) →
      recommend? cs blocklist = recommend? cs other) ∧
    (∀ front x back, cs = front ++ back → Negligible front x back →
      recommendIndex? (front ++ x :: back) blocklist =
        (recommendIndex? cs blocklist).map fun i => if i < front.length then i else i + 1) ∧
    ∀ more, Widens cs more → recommend? more blocklist = recommend? cs blocklist := by
  refine ⟨fun i => ?_, recommend?_eq_getElem? cs blocklist, recommend?_eq_none_iff,
    fun other => recommend?_congr, ?_, fun more h => h.recommend?_eq blocklist⟩
  · rw [recommendIndex?_eq_some_iff]
    constructor
    · rintro ⟨c, h, hb⟩
      exact ⟨c, h.there, h.strongest, h.first, hb⟩
    · rintro ⟨c, hthere, hstrongest, hfirst, hb⟩
      exact ⟨c, ⟨hthere, hstrongest, hfirst⟩, hb⟩
  · rintro front x back rfl hx
    exact hx.recommendIndex?_eq blocklist

namespace Arcade

/-- The strongest stands between a weaker candidate and one as strong. -/
def scanned : List Candidate :=
  [.ofSignal "mall" (-70), .ofSignal "kiosk" (-50), .ofSignal "cinema" (-50)]

/-- A weaker one has come in, in front of the others. -/
def crowded : List Candidate := .ofSignal "garage" (-90) :: scanned

/-- And one as strong, right behind the first of the strongest. -/
def busy : List Candidate :=
  crowded.take 3 ++ .ofSignal "stairs" (-50) :: crowded.drop 3

end Arcade

open Arcade in
theorem first_strongest_of_busy_scan :
    Widens scanned busy ∧ recommendIndex? scanned (.ofList ["mall"]) = some 1 ∧
      recommend? busy (.ofList ["mall"]) = recommend? scanned (.ofList ["mall"]) ∧
      recommend? scanned (.ofList ["kiosk"]) = none := by
  have hgarage : Negligible [] (.ofSignal "garage" (-90)) scanned :=
    .inr ⟨.ofSignal "mall" (-70), by decide, by decide⟩
  have hstairs : Negligible (crowded.take 3) (.ofSignal "stairs" (-50)) (crowded.drop 3) :=
    .inl ⟨.ofSignal "kiosk" (-50), by decide, by decide⟩
  have hcrowded : Widens ([] ++ scanned) ([] ++ .ofSignal "garage" (-90) :: scanned) :=
    .insert .refl hgarage
  have hbusy : Widens scanned busy := .insert hcrowded hstairs
  obtain ⟨hplace, -, -, -, -, hwidens⟩ := first_strongest_or_nothing scanned (.ofList ["mall"])
  obtain ⟨-, -, hnothing, -⟩ := first_strongest_or_nothing scanned (.ofList ["kiosk"])
  refine ⟨hbusy, (hplace 1).mpr ⟨_, rfl, ?_, ?_, ?_⟩, hwidens busy hbusy, hnothing.mpr (.inr ?_)⟩
  · decide
  · decide
  · decide
  · exact ⟨1, .ofSignal "kiosk" (-50), ⟨rfl, by decide, by decide⟩, by decide⟩

end WifiAdvisor.Selection
