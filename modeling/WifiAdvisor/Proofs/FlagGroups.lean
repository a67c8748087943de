import Mathlib.Data.List.Forall2
import Mathlib.Data.Option.NAry
import WifiAdvisor.Candidate

/-!
# Capability flags, group by group

Flags come in groups in square brackets. No word that counts holds a bracket, so none is spelled
across the border of two groups, and what the flags say is what the groups say one by one: they rule
a connection out if one of them does, and otherwise the strongest type that one of them asks for is
the type of the network. So neither order nor repetition matters, and more groups only ask for more.
-/
namespace WifiAdvisor

namespace Security

variable {word flags front back : List Char} {s t : Security}

/-! ### Types by strength -/

def rank : Security → Nat
  | .open => 0
  | .owe => 1
  | .psk => 2
  | .sae => 3

instance : LE Security := ⟨fun s t => s.rank ≤ t.rank⟩

instance (s t : Security) : Decidable (s ≤ t) := inferInstanceAs (Decidable (s.rank ≤ t.rank))

instance : Max Security := ⟨fun s t => if s ≤ t then t else s⟩

/-- The strongest of some types, and of none the weakest there is. -/
def strongest (types : List Security) : Security := types.foldr max .open

theorem le_max_left (s t : Security) : s ≤ max s t := by
  cases s <;> cases t <;> decide

/-! ### Words among flags -/

theorem mentions_iff : mentions word flags = true ↔ word <:+: flags := by
  induction flags with
  | nil => simp [mentions]
  | cons c rest ih =>
    rw [mentions, Bool.or_eq_true, List.isPrefixOf_iff_prefix, ih, List.infix_cons_iff]

theorem infix_append_cons_iff {c : Char} (hc : c ∉ word) :
    word <:+: front ++ c :: back ↔ word <:+: front ∨ word <:+: back := by
  -- What stands right behind the front begins with `c`, or is nothing.
  have hborder : ∀ {l : List Char}, c ∉ l → l <+: c :: back → l = [] := by
    intro l hl h
    rcases List.prefix_cons_iff.mp h with hnil | ⟨rest, rfl, -⟩
    · exact hnil
    · exact absurd List.mem_cons_self hl
  constructor
  · intro h
    rcases List.infix_append_iff.mp h with hfront | hback | ⟨l, m, rfl, hl, hm⟩
    · exact .inl hfront
    · rcases List.infix_cons_iff.mp hback with hstart | hback
      · rw [hborder hc hstart]
        exact .inl List.nil_infix
      · exact .inr hback
    · rw [hborder (fun hmem => hc (List.mem_append_right _ hmem)) hm, List.append_nil]
      exact .inl hl.isInfix
  · rintro (hfront | hback)
    · exact hfront.trans (List.prefix_append _ _).isInfix
    · exact hback.trans ((List.suffix_cons _ _).trans (List.suffix_append _ _)).isInfix

/-- The words that count. -/
def keywords : List (List Char) :=
  [['E', 'A', 'P'], ['W', 'E', 'P'], ['S', 'A', 'E'], ['P', 'S', 'K'], ['O', 'W', 'E']]

/-- What flags come to is a matter of which words they mention. -/
def verdict (eap wep sae psk owe : Bool) : Option Security :=
  if eap || wep then none
  else if sae then some .sae
  else if psk then some .psk
  else if owe then some .owe
  else some .open

theorem verdict_or : ∀ eap eap' wep wep' sae sae' psk psk' owe owe' : Bool,
    verdict (eap || eap') (wep || wep') (sae || sae') (psk || psk') (owe || owe') =
      Option.map₂ max (verdict eap wep sae psk owe) (verdict eap' wep' sae' psk' owe') := by
  decide

theorem ofFlags?_eq_none_iff : ofFlags? flags = none ↔
    mentions ['E', 'A', 'P'] flags = true ∨ mentions ['W', 'E', 'P'] flags = true := by
  rw [ofFlags?, ← Bool.or_eq_true]
  grind

theorem ofFlags?_congr (h : ∀ word ∈ keywords, mentions word front = mentions word back) :
    ofFlags? front = ofFlags? back := by
  simp only [keywords, List.forall_mem_cons] at h
  obtain ⟨heap, hwep, hsae, hpsk, howe, -⟩ := h
  rw [ofFlags?, heap, hwep, hsae, hpsk, howe, ofFlags?]

/-- Flags that mention what is mentioned here or there. -/
theorem ofFlags?_union
    (h : ∀ word ∈ keywords, mentions word flags = (mentions word front || mentions word back)) :
    ofFlags? flags = Option.map₂ max (ofFlags? front) (ofFlags? back) := by
  simp only [keywords, List.forall_mem_cons] at h
  obtain ⟨heap, hwep, hsae, hpsk, howe, -⟩ := h
  have hunion := verdict_or (mentions ['E', 'A', 'P'] front) (mentions ['E', 'A', 'P'] back)
  rw [ofFlags?, heap, hwep, hsae, hpsk, howe]
  exact hunion _ _ _ _ _ _ _ _

/-- Flags that mention more ask for no weaker type, if they do not rule a connection out. -/
theorem ofFlags?_mono
    (h : ∀ word ∈ keywords, mentions word front = true → mentions word back = true)
    (ht : ofFlags? back = some t) : ∃ s ≤ t, ofFlags? front = some s := by
  -- The flags in front add nothing to those behind.
  have hunion : ofFlags? back = Option.map₂ max (ofFlags? front) (ofFlags? back) := by
    refine ofFlags?_union fun word hword => ?_
    rw [Bool.eq_iff_iff, Bool.or_eq_true, iff_or_self]
    exact h word hword
  rw [ht, eq_comm, Option.map₂_eq_some_iff] at hunion
  obtain ⟨s, u, hs, -, hmax⟩ := hunion
  exact ⟨s, hmax ▸ le_max_left s u, hs⟩

/-! ### Letters in either case -/

theorem toUpper_toUpper (c : Char) : c.toUpper.toUpper = c.toUpper := by
  by_cases hc : 'a'.val ≤ c.val ∧ c.val ≤ 'z'.val
  · have hval : c.toUpper.val = c.val + ('A'.val - 'a'.val) := by
      delta Char.toUpper
      rw [dif_pos hc]
    have hout : ¬('a'.val ≤ c.toUpper.val ∧ c.toUpper.val ≤ 'z'.val) := by
      rw [hval]
      grind
    exact dif_neg hout
  · have hsame : c.toUpper = c := dif_neg hc
    rw [hsame, hsame]

theorem toUpper_toLower (c : Char) : c.toLower.toUpper = c.toUpper := by
  by_cases hc : c.val ≥ 'A'.val ∧ c.val ≤ 'Z'.val
  · have hval : c.toLower.val = c.val + ('a'.val - 'A'.val) := by
      delta Char.toLower
      rw [dif_pos hc]
    have hin : 'a'.val ≤ c.toLower.val ∧ c.toLower.val ≤ 'z'.val := by
      rw [hval]
      grind
    have hout : ¬('a'.val ≤ c.val ∧ c.val ≤ 'z'.val) := by grind
    have hsame : c.toUpper = c := dif_neg hout
    have hback : c.toLower.toUpper.val = c.toLower.val + ('A'.val - 'a'.val) := by
      delta Char.toUpper
      rw [dif_pos hin]
    apply Char.ext
    rw [hback, hval, hsame]
    grind
  · have hsame : c.toLower = c := dif_neg hc
    rw [hsame]

/-- The second text is the first with some letters of ASCII in the other case. -/
def Recased (front back : List Char) : Prop :=
  List.Forall₂ (fun c d => d = c ∨ d = c.toUpper ∨ d = c.toLower) front back

theorem Recased.map_toUpper (h : Recased front back) :
    back.map Char.toUpper = front.map Char.toUpper := by
  induction h with
  | nil => rfl
  | cons hc _ ih =>
    rw [List.map_cons, List.map_cons, ih]
    rcases hc with rfl | rfl | rfl
    · rfl
    · rw [toUpper_toUpper]
    · rw [toUpper_toLower]

theorem recased_map_toUpper (text : List Char) : Recased text (text.map Char.toUpper) := by
  induction text with
  | nil => exact .nil
  | cons c rest ih => exact .cons (.inr (.inl rfl)) ih

/-- Text with the letters of ASCII in upper case. -/
def folded (text : String) : List Char := text.toList.map Char.toUpper

/-- Somewhere in `text` stands `word`, in whatever case. -/
def Carries (text : String) (word : List Char) : Prop :=
  ∃ part, part <:+: text.toList ∧ Recased part word

theorem carries_iff (hword : word ∈ keywords) {text : String} :
    Carries text word ↔ mentions word (folded text) = true := by
  have hupper : word.map Char.toUpper = word := by
    revert word
    decide
  rw [mentions_iff, folded, List.infix_map_iff]
  constructor
  · rintro ⟨part, hpart, hcase⟩
    exact ⟨part, hpart, hupper.symm.trans hcase.map_toUpper⟩
  · rintro ⟨part, hpart, rfl⟩
    exact ⟨part, hpart, recased_map_toUpper part⟩

/-! ### Groups -/

/-- The groups, each in its brackets, one after the other. -/
def enclosed (groups : List String) : String := String.join (groups.map fun g => "[" ++ g ++ "]")

theorem folded_enclosed_cons (g : String) (rest : List String) :
    folded (enclosed (g :: rest)) = '[' :: (folded g ++ ']' :: folded (enclosed rest)) := by
  simp [folded, enclosed, String.join_cons]

theorem mentions_enclosed_cons (hword : word ∈ keywords) (g : String) (rest : List String) :
    mentions word (folded (enclosed (g :: rest))) =
      (mentions word (folded g) || mentions word (folded (enclosed rest))) := by
  have hplain : word ≠ [] ∧ '[' ∉ word ∧ ']' ∉ word := by
    revert word
    decide
  obtain ⟨hne, hopen, hclose⟩ := hplain
  have hsplit : word <:+: [] ++ '[' :: (folded g ++ ']' :: folded (enclosed rest)) ↔
      word <:+: folded g ∨ word <:+: folded (enclosed rest) := by
    rw [infix_append_cons_iff hopen, List.infix_nil, or_iff_right hne,
      infix_append_cons_iff hclose]
  rw [Bool.eq_iff_iff, Bool.or_eq_true, mentions_iff, mentions_iff, mentions_iff,
    folded_enclosed_cons]
  exact hsplit

theorem mentions_enclosed (hword : word ∈ keywords) {groups : List String} :
    mentions word (folded (enclosed groups)) = true ↔
      ∃ g ∈ groups, mentions word (folded g) = true := by
  induction groups with
  | nil =>
    have hempty : mentions word [] = false := by
      revert word
      decide
    simp [folded, enclosed, String.join, hempty]
  | cons g rest ih =>
    rw [mentions_enclosed_cons hword, Bool.or_eq_true, ih, List.exists_mem_cons_iff]

/-- Flags in groups rule a connection out if those of one group do, and otherwise ask for the
strongest of the types that the groups ask for. -/
theorem ofCapabilities?_enclosed (groups : List String) :
    ofCapabilities? (enclosed groups) = (groups.mapM ofCapabilities?).map strongest := by
  induction groups with
  | nil => rfl
  | cons g rest ih =>
    have hunion : ofCapabilities? (enclosed (g :: rest)) =
        Option.map₂ max (ofCapabilities? g) (ofCapabilities? (enclosed rest)) :=
      ofFlags?_union fun word hword => mentions_enclosed_cons hword g rest
    rw [hunion, ih, List.mapM_cons]
    cases ofCapabilities? g with
    | none => rfl
    | some s => cases rest.mapM ofCapabilities? <;> rfl

theorem ofCapabilities?_eq_none_iff {groups : List String} :
    ofCapabilities? (enclosed groups) = none ↔
      ∃ g ∈ groups, Carries g ['E', 'A', 'P'] ∨ Carries g ['W', 'E', 'P'] := by
  have heap : ['E', 'A', 'P'] ∈ keywords := by decide
  have hwep : ['W', 'E', 'P'] ∈ keywords := by decide
  have hsplit : ofCapabilities? (enclosed groups) = none ↔
      mentions ['E', 'A', 'P'] (folded (enclosed groups)) = true ∨
        mentions ['W', 'E', 'P'] (folded (enclosed groups)) = true := ofFlags?_eq_none_iff
  rw [hsplit, mentions_enclosed heap, mentions_enclosed hwep]
  simp only [carries_iff heap, carries_iff hwep, and_or_left, exists_or]

theorem ofCapabilities?_congr {groups others : List String} (h : ∀ g, g ∈ others ↔ g ∈ groups) :
    ofCapabilities? (enclosed others) = ofCapabilities? (enclosed groups) := by
  refine ofFlags?_congr fun word hword => ?_
  rw [Bool.eq_iff_iff]
  exact (mentions_enclosed hword).trans
    ((exists_congr fun g => and_congr_left fun _ => h g).trans (mentions_enclosed hword).symm)

theorem ofCapabilities?_recased {groups others : List String}
    (h : List.Forall₂ (fun g o => Recased g.toList o.toList) groups others) :
    ofCapabilities? (enclosed others) = ofCapabilities? (enclosed groups) := by
  have hsame : folded (enclosed others) = folded (enclosed groups) := by
    induction h with
    | nil => rfl
    | @cons g o groups others hg _ ih =>
      have hgo : folded o = folded g := hg.map_toUpper
      rw [folded_enclosed_cons, folded_enclosed_cons, hgo, ih]
  exact congrArg ofFlags? hsame

theorem ofCapabilities?_mono {groups others : List String} (h : groups ⊆ others)
    (ht : ofCapabilities? (enclosed others) = some t) :
    ∃ s ≤ t, ofCapabilities? (enclosed groups) = some s := by
  refine ofFlags?_mono (fun word hword hmentions => ?_) ht
  obtain ⟨g, hg, hmentions⟩ := (mentions_enclosed hword).mp hmentions
  exact (mentions_enclosed hword).mpr ⟨g, h hg, hmentions⟩

end Security

/-- A network with a name and flags in groups cannot be configured from its record if and only if
one of the groups carries `EAP` or `WEP`; otherwise its type is the strongest of the types that the
groups have by themselves. Groups in another order, or more than once, or in another case make no
difference, and with more groups a network that can still be configured has no weaker type. -/
theorem NetworkConfig.classified_by_groups (c : Candidate) (groups : List String)
    (hnamed : c.ssid ≠ "") :
    let config (groups : List String) :=
      ofCandidate? { c with capabilities := Security.enclosed groups }
    (config groups = none ↔
      ∃ g ∈ groups, Security.Carries g ['E', 'A', 'P'] ∨ Security.Carries g ['W', 'E', 'P']) ∧
    config groups = (groups.mapM Security.ofCapabilities?).map
      (fun types => { ssid := c.ssid, security := Security.strongest types }) ∧
    ∀ others : List String,
      ((∀ g, g ∈ others ↔ g ∈ groups) → config others = config groups) ∧
      (List.Forall₂ (fun g o => Security.Recased g.toList o.toList) groups others →
        config others = config groups) ∧
      (groups ⊆ others → ∀ most, config others = some most →
        ∃ s ≤ most.security, config groups = some { ssid := c.ssid, security := s }) := by
  intro config
  have hconfig (groups : List String) : config groups =
      (Security.ofCapabilities? (Security.enclosed groups)).map
        fun security => { ssid := c.ssid, security } := by
    have hname : c.ssid.isEmpty = false := by simpa using hnamed
    simp only [config, ofCandidate?, hname, Bool.false_eq_true, if_false]
  refine ⟨?_, ?_, fun others => ⟨?_, ?_, ?_⟩⟩
  · rw [hconfig, Option.map_eq_none_iff, Security.ofCapabilities?_eq_none_iff]
  · rw [hconfig, Security.ofCapabilities?_enclosed, Option.map_map]
    rfl
  · intro h
    rw [hconfig, hconfig, Security.ofCapabilities?_congr h]
  · intro h
    rw [hconfig, hconfig, Security.ofCapabilities?_recased h]
  · intro h most hmost
    rw [hconfig, Option.map_eq_some_iff] at hmost
    obtain ⟨t, ht, rfl⟩ := hmost
    obtain ⟨s, hst, hs⟩ := Security.ofCapabilities?_mono h ht
    exact ⟨s, hst, by rw [hconfig, hs, Option.map_some]⟩

namespace Marina

def berth : Candidate := .ofSignal "berth 7" (-58)

/-- Personal keys in one group, and in another, in mixed case, their successor. -/
def groups : List String := ["WPA2-PSK-CCMP", "ESS", "rsn-Sae-CCMP"]

end Marina

open Marina in
theorem NetworkConfig.classified_by_mixed_groups :
    berth.ssid ≠ "" ∧
      ofCandidate? { berth with capabilities := Security.enclosed groups } =
        some { ssid := "berth 7", security := .sae } ∧
      ofCandidate? { berth with capabilities := Security.enclosed ("wEp" :: groups) } = none := by
  have hnamed : berth.ssid ≠ "" := by decide
  obtain ⟨-, htype, -⟩ := classified_by_groups berth groups hnamed
  obtain ⟨hnone, -⟩ := classified_by_groups berth ("wEp" :: groups) hnamed
  have hcarries : Security.Carries "wEp" ['W', 'E', 'P'] :=
    ⟨['w', 'E', 'p'], List.infix_rfl, Security.recased_map_toUpper ['w', 'E', 'p']⟩
  exact ⟨hnamed, htype.trans rfl, hnone.mpr ⟨"wEp", List.mem_cons_self, .inr hcarries⟩⟩

end WifiAdvisor
