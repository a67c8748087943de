import Mathlib.Algebra.Group.Nat.Defs
import WifiAdvisor.Config.Toml
import WifiAdvisor.Proofs.Layouts
import WifiAdvisor.Proofs.Members
import WifiAdvisor.Proofs.WrittenForms

/-!
# Configurations are read back, whole or in part

A configuration is printed as long as its times have room, and its text reads as the configuration.
Of a document that lacks some of its keys at the top, in the timing or in the restrictions the same
is read, with defaults in place of what is missing.
-/
namespace WifiAdvisor

open Document

namespace Document

variable {α β : Type}

/-! ### Values in another order -/

/-- The decoder makes `a` of the value, in whichever order the members of its tables stand. -/
def Decoder.Takes (d : Decoder α) (v : Value) (a : α) : Prop := ∀ w, Alike v w → d .toml w = .ok a

/-- The value has no members to be moved. -/
def Value.Fixed (v : Value) : Prop := ∀ w, Alike v w → w = v

theorem fixed_bool (b : Bool) : (Value.bool b).Fixed := by
  intro w h
  cases h
  rfl

theorem fixed_number (n : Number) : (Value.number n).Fixed := by
  intro w h
  cases h
  rfl

theorem fixed_string (s : String) : (Value.string s).Fixed := by
  intro w h
  cases h
  rfl

theorem Decoder.Gets.takes {d : Decoder α} {v : Value} {a : α} (h : d.Gets v a) (hv : v.Fixed) :
    d.Takes v a := by
  intro w hw
  rw [hv w hw]
  exact h .toml .written

theorem forall₂_of_alike_array {items : List Value} {w : Value} (h : Alike (.array items) w) :
    ∃ items', w = .array items' ∧ List.Forall₂ Alike items items' := by
  cases h with
  | same => exact ⟨items, rfl, List.forall₂_same.2 fun v _ => .same v⟩
  | array h => exact ⟨_, rfl, h⟩

theorem Decoder.list_takes {d : Decoder α} {write : α → Value} (h : ∀ a, d.Takes (write a) a)
    (l : List α) : (Decoder.list d).Takes (.list write l) l := by
  intro w hw
  obtain ⟨items', rfl, hitems⟩ := forall₂_of_alike_array hw
  have hread : Decoder.items d .toml items' = .ok l := by
    clear hw
    induction l generalizing items' with
    | nil =>
      cases hitems
      rfl
    | cons a l ih =>
      cases hitems with
      | cons hfirst hrest =>
        rw [Decoder.items, h a _ hfirst, ih _ hrest]
        rfl
  rw [Decoder.list, hread]
  rfl

/-- The members with alike values, in any order. -/
def Moved (ms ms' : List (String × Value)) : Prop :=
  ∃ moved, ms.Perm moved ∧ moved.map Prod.fst = ms'.map Prod.fst ∧
    List.Forall₂ Alike (moved.map Prod.snd) (ms'.map Prod.snd)

theorem plain_injective {ms ms' : List (String × Value)} (h : plain ms = plain ms') : ms = ms' := by
  refine List.map_injective_iff.2 ?_ h
  rintro ⟨k, v⟩ ⟨k', v'⟩ heq
  simpa using heq

theorem moved_of_alike {ms : List (String × Value)} {w : Value} (h : Alike (.object (plain ms)) w) :
    ∃ ms', w = .object (plain ms') ∧ Moved ms ms' := by
  generalize hv : Value.object (plain ms) = v at h
  cases h with
  | same =>
    exact ⟨ms, hv.symm, ms, .refl _, rfl, List.forall₂_same.2 fun v _ => .same v⟩
  | array => cases hv
  | object hmoved hnames hvalues =>
    have hms := plain_injective (Value.object.inj hv).1
    exact ⟨_, rfl, _, hms ▸ hmoved, hnames, hvalues⟩

theorem eq_of_fixed {ms ms' : List (String × Value)} (hnames : ms.map Prod.fst = ms'.map Prod.fst)
    (hvalues : List.Forall₂ Alike (ms.map Prod.snd) (ms'.map Prod.snd))
    (hfixed : ∀ m ∈ ms, m.2.Fixed) : ms' = ms := by
  induction ms generalizing ms' with
  | nil => exact (List.map_eq_nil_iff.1 hnames.symm)
  | cons m ms ih =>
    cases ms' with
    | nil => cases hnames
    | cons m' ms' =>
      obtain ⟨hm, hms⟩ := List.forall_mem_cons.1 hfixed
      obtain ⟨hname, hnames⟩ := List.cons.inj hnames
      cases hvalues with
      | cons hfirst hrest => rw [ih hnames hrest hms, Prod.ext hname.symm (hm _ hfirst)]

namespace Moved

variable {ms ms' : List (String × Value)} {name : String} {v : Value}

theorem names_perm (h : Moved ms ms') : (ms.map Prod.fst).Perm (ms'.map Prod.fst) := by
  obtain ⟨moved, hmoved, hnames, -⟩ := h
  exact hnames ▸ hmoved.map Prod.fst

theorem exists_mem (h : Moved ms ms') (hm : (name, v) ∈ ms) : ∃ w, (name, w) ∈ ms' ∧ Alike v w := by
  obtain ⟨moved, hmoved, hnames, hvalues⟩ := h
  replace hm := hmoved.mem_iff.1 hm
  clear hmoved
  induction moved generalizing ms' with
  | nil => cases hm
  | cons m moved ih =>
    cases ms' with
    | nil => cases hnames
    | cons m' ms' =>
      cases hvalues with
      | cons hfirst hrest =>
        obtain ⟨hname, hnames⟩ := List.cons.inj hnames
        rcases List.mem_cons.1 hm with rfl | hm
        · have hname : name = m'.1 := hname
          exact ⟨m'.2, hname ▸ List.mem_cons_self, hfirst⟩
        · obtain ⟨w, hw, halike⟩ := ih hnames hrest hm
          exact ⟨w, List.mem_cons_of_mem _ hw, halike⟩

theorem lookup_of_mem (h : Moved ms ms') (hd : (ms.map Prod.fst).Nodup) (hm : (name, v) ∈ ms) :
    ∃ w, lookup name (plain ms') = some w ∧ Alike v w := by
  obtain ⟨w, hw, halike⟩ := h.exists_mem hm
  exact ⟨w, lookup_plain (h.names_perm.nodup_iff.1 hd) hw, halike⟩

theorem lookup_eq_none (h : Moved ms ms') (hm : name ∉ ms.map Prod.fst) :
    lookup name (plain ms') = none := by
  refine lookup_eq_none_iff.2 fun m hmem htext => ?_
  obtain ⟨x, hx, rfl⟩ := List.mem_map.1 hmem
  cases htext
  exact hm (h.names_perm.mem_iff.2 (List.mem_map_of_mem hx))

theorem distinct (h : Moved ms ms') (hd : (ms.map Prod.fst).Nodup) : Distinct (plain ms') := by
  have hnames : (plain ms').map (fun m => m.1.text) = (ms'.map Prod.fst).map Except.ok := by
    simp [plain, Function.comp_def, Name.text]
  rw [Distinct, hnames]
  exact (h.names_perm.nodup_iff.1 hd).map fun _ _ heq => Except.ok.inj heq

end Moved

/-! ### Records with fields left out -/

/-- The field finds its value among the members, or falls back on it. -/
def RecordField.Finds (f : RecordField β) (ms : List (String × Value)) (b : β) : Prop :=
  (∃ v, (f.name, v) ∈ ms ∧ f.decode.Takes v b) ∨ (f.name ∉ ms.map Prod.fst ∧ f.absent = some b)

namespace RecordField

variable {f : RecordField β} {ms : List (String × Value)} {v : Value} {b fallback : β}

theorem finds_member (hm : (f.name, v) ∈ ms) (hv : f.decode.Takes v b) : f.Finds ms b :=
  Or.inl ⟨v, hm, hv⟩

theorem finds_kept (p : String → Bool) (hm : (f.name, v) ∈ ms) (hv : f.decode.Takes v b)
    (habsent : f.absent = some fallback) :
    f.Finds (ms.filter fun m => p m.1) (if p f.name then b else fallback) := by
  split
  · rename_i hp
    exact Or.inl ⟨v, List.mem_filter.2 ⟨hm, hp⟩, hv⟩
  · rename_i hp
    refine Or.inr ⟨fun hmem => ?_, habsent⟩
    obtain ⟨m, hm, hname⟩ := List.mem_map.1 hmem
    exact hp (hname ▸ (List.mem_filter.1 hm).2)

theorem Finds.get (h : f.Finds ms b) (hd : (ms.map Prod.fst).Nodup) {ms' : List (String × Value)}
    (hmoved : Moved ms ms') : f.get .toml (lookup f.name (plain ms')) = .ok b := by
  rcases h with ⟨v, hm, hv⟩ | ⟨hm, habsent⟩
  · obtain ⟨w, hlookup, halike⟩ := hmoved.lookup_of_mem hd hm
    rw [hlookup]
    exact hv w halike
  · rw [hmoved.lookup_eq_none hm, RecordField.get, habsent]

end RecordField

namespace Schema

/-- The schema puts `a` together from the members, in whichever order they stand. -/
def Takes (s : Schema α) (ms : List (String × Value)) (a : α) : Prop :=
  ∀ ms', (ms.map Prod.fst).Nodup → Moved ms ms' → s.build .toml (plain ms') = .ok a

namespace Takes

variable {ms : List (String × Value)}

theorem pure (a : α) : (Schema.pure a).Takes ms a := fun _ _ _ => rfl

theorem field {s : Schema (β → α)} {g : β → α} (hs : s.Takes ms g) {f : RecordField β} {b : β}
    (hf : f.Finds ms b) : (s.field f).Takes ms (g b) := by
  intro ms' hd hmoved
  rw [build_field, hs ms' hd hmoved, hf.get hd hmoved]
  rfl

theorem record {s : Schema α} {a : α} (h : s.Takes ms a) (hs : s.Regular)
    (hd : (ms.map Prod.fst).Nodup) (hknown : ∀ m ∈ ms, m.1 ∈ s.names) (what : String) :
    (s.record what).Takes (.object (plain ms)) a := by
  intro w hw
  obtain ⟨ms', rfl, hmoved⟩ := moved_of_alike hw
  refine (ofMembers_eq_ok_iff hs (hmoved.distinct hd)).2 ⟨fun m hm => ?_, h ms' hd hmoved⟩
  obtain ⟨x, hx, rfl⟩ := List.mem_map.1 hm
  obtain ⟨y, hy, hname⟩ := List.mem_map.1 (hmoved.names_perm.mem_iff.2 (List.mem_map_of_mem hx))
  exact ⟨x.1, rfl, fun hforeign => (hforeign (hname ▸ hknown y hy)).elim⟩

end Takes

end Schema

end Document

/-! ### Parts of a configuration -/

open Document.Decoder (string_gets bool_gets named_gets list_takes)
open Forms (int32_gets uint32_gets word_gets)

theorem string_takes (s : String) : Decoder.string.Takes (.string s) s :=
  (string_gets s).takes (fixed_string s)

theorem bool_takes (b : Bool) : Decoder.bool.Takes (.bool b) b := (bool_gets b).takes (fixed_bool b)

theorem int32_takes (i : Int32) : Decoder.int32.Takes (Forms.int32 i) i :=
  (int32_gets i).takes (fixed_number _)

theorem uint32_takes (n : UInt32) : Decoder.uint32.Takes (Forms.uint32 n) n :=
  (uint32_gets n).takes (fixed_number _)

theorem uint64_takes (n : UInt64) : Decoder.uint64.Takes (Forms.uint64 n) n :=
  (word_gets "u64" n).takes (fixed_number _)

theorem named_takes {α : Type} [Named α] (a : α) : Decoder.named.Takes (Forms.name a) a :=
  (named_gets a).takes (fixed_string _)

theorem path_takes (path : String) : Decoder.path.optional.Takes (.string path) (some path) := by
  intro w hw
  rw [fixed_string path w hw]
  rfl

open Document.RecordField (finds_member finds_kept)

namespace Identity

def members (i : Identity) : List (String × Value) := [("tag", .string i.tag),
  ("store_key", .string i.storeKey), ("settings_key", .string i.settingsKey),
  ("notification_id", Forms.int32 i.slot), ("nominator_id", Forms.int32 i.nominator)]

theorem decode_takes (i : Identity) : Identity.decode.Takes i.toValue i := by
  have htakes : Identity.schema.Takes i.members i :=
    (((((Schema.Takes.pure _).field (finds_member (.head _) (string_takes _))).field
      (finds_member (.tail _ (.head _)) (string_takes _))).field
      (finds_member (.tail _ (.tail _ (.head _))) (string_takes _))).field
      (finds_member (.tail _ (.tail _ (.tail _ (.head _)))) (int32_takes _))).field
      (finds_member (.tail _ (.tail _ (.tail _ (.tail _ (.head _))))) (int32_takes _))
  have hregular : Identity.schema.Regular :=
    (((((Schema.Regular.pure _).field _).field _).field _).field _).field _
  exact htakes.record hregular (by simp [members]) (fun m hm => List.mem_map_of_mem hm) _

end Identity

namespace Rule

def members (r : Rule) : List (String × Value) :=
  [("user", Forms.uint32 r.user), ("restriction", Forms.name r.restriction)]

theorem decode_takes (r : Rule) : Rule.decode.Takes r.toValue r := by
  have htakes : Rule.schema.Takes r.members r :=
    ((Schema.Takes.pure _).field (finds_member (.head _) (uint32_takes _))).field
      (finds_member (.tail _ (.head _)) (named_takes _))
  have hregular : Rule.schema.Regular := ((Schema.Regular.pure _).field _).field _
  exact htakes.record hregular (by simp [members]) (fun m hm => List.mem_map_of_mem hm) _

end Rule

/-! ### Keys that are left out -/

namespace Document

/-- The members of an object whose names are kept. -/
def Value.only (p : String → Bool) : Value → Value
  | .object members ending => .object (members.filter fun m => p (Toml.nameText m.1)) ending
  | v => v

/-- Changes what stands under a name. -/
def Value.within (name : String) (f : Value → Value) : Value → Value
  | .object members ending =>
    .object (members.map fun m => if Toml.nameText m.1 = name then (m.1, f m.2) else m) ending
  | v => v

theorem only_plain (p : String → Bool) (ms : List (String × Value)) :
    (Value.object (plain ms)).only p = .object (plain (ms.filter fun m => p m.1)) := by
  simp only [Value.only, plain, List.filter_map]
  rfl

theorem only_true (v : Value) : v.only (fun _ => true) = v := by
  cases v <;> simp [Value.only]

theorem within_of_fixed {f : Value → Value} (hf : ∀ v, f v = v) (name : String) (v : Value) :
    v.within name f = v := by
  cases v with
  | object members ending => simp [Value.within, hf]
  | _ => rfl

theorem nodup_kept {ms : List (String × Value)} (hd : (ms.map Prod.fst).Nodup) (p : String → Bool) :
    ((ms.filter fun m => p m.1).map Prod.fst).Nodup :=
  hd.sublist (List.filter_sublist.map Prod.fst)

end Document

namespace Timing

def members (t : Timing) : List (String × Value) := [
  ("repeat_delay_secs", Forms.uint64 t.repeatDelaySecs),
  ("connecting_timeout_ms", Forms.uint64 t.connectingTimeout),
  ("connected_display_ms", Forms.uint64 t.connectedDisplay),
  ("failed_display_ms", Forms.uint64 t.failedDisplay)]

theorem members_distinct (t : Timing) : (t.members.map Prod.fst).Nodup := by simp [members]

/-- The timing with defaults for the keys that are left out. -/
def keep (p : String → Bool) (t : Timing) : Timing where
  repeatDelaySecs :=
    if p "repeat_delay_secs" then t.repeatDelaySecs else ({} : Timing).repeatDelaySecs
  connectingTimeout :=
    if p "connecting_timeout_ms" then t.connectingTimeout else ({} : Timing).connectingTimeout
  connectedDisplay :=
    if p "connected_display_ms" then t.connectedDisplay else ({} : Timing).connectedDisplay
  failedDisplay := if p "failed_display_ms" then t.failedDisplay else ({} : Timing).failedDisplay

theorem only_toValue (p : String → Bool) (t : Timing) :
    t.toValue.only p = .object (plain (t.members.filter fun m => p m.1)) :=
  only_plain p t.members

theorem decode_takes (p : String → Bool) (t : Timing) :
    Timing.decode.Takes (t.toValue.only p) (t.keep p) := by
  have htakes : Timing.schema.Takes (t.members.filter fun m => p m.1) (t.keep p) :=
    ((((Schema.Takes.pure _).field (finds_kept p (.head _) (uint64_takes _) rfl)).field
      (finds_kept p (.tail _ (.head _)) (uint64_takes _) rfl)).field
      (finds_kept p (.tail _ (.tail _ (.head _))) (uint64_takes _) rfl)).field
      (finds_kept p (.tail _ (.tail _ (.tail _ (.head _)))) (uint64_takes _) rfl)
  have hregular : Timing.schema.Regular :=
    ((((Schema.Regular.pure _).field _).field _).field _).field _
  rw [only_toValue]
  exact htakes.record hregular (nodup_kept t.members_distinct p)
    (fun m hm => List.mem_map_of_mem (List.mem_filter.1 hm).1) _

end Timing

namespace RestrictionConfig

def members (r : RestrictionConfig) : List (String × Value) := [
  ("current_user", Forms.uint32 r.currentUser),
  ("supports_add_config_restriction", .bool r.supportsAddRestriction),
  ("rules", .list Rule.toValue r.rules)]

theorem members_distinct (r : RestrictionConfig) : (r.members.map Prod.fst).Nodup := by
  simp [members]

/-- The restrictions with defaults for the keys that are left out. -/
def keep (p : String → Bool) (r : RestrictionConfig) : RestrictionConfig where
  currentUser := if p "current_user" then r.currentUser else ({} : RestrictionConfig).currentUser
  supportsAddRestriction :=
    if p "supports_add_config_restriction" then r.supportsAddRestriction
    else ({} : RestrictionConfig).supportsAddRestriction
  rules := if p "rules" then r.rules else ({} : RestrictionConfig).rules

theorem only_toValue (p : String → Bool) (r : RestrictionConfig) :
    r.toValue.only p = .object (plain (r.members.filter fun m => p m.1)) :=
  only_plain p r.members

theorem decode_takes (p : String → Bool) (r : RestrictionConfig) :
    RestrictionConfig.decode.Takes (r.toValue.only p) (r.keep p) := by
  have htakes : RestrictionConfig.schema.Takes (r.members.filter fun m => p m.1) (r.keep p) :=
    (((Schema.Takes.pure _).field (finds_kept p (.head _) (uint32_takes _) rfl)).field
      (finds_kept p (.tail _ (.head _)) (bool_takes _) rfl)).field
      (finds_kept p (.tail _ (.tail _ (.head _))) (list_takes Rule.decode_takes _) rfl)
  have hregular : RestrictionConfig.schema.Regular :=
    (((Schema.Regular.pure _).field _).field _).field _
  rw [only_toValue]
  exact htakes.record hregular (nodup_kept r.members_distinct p)
    (fun m hm => List.mem_map_of_mem (List.mem_filter.1 hm).1) _

end RestrictionConfig

/-! ### Configurations -/

namespace Config

/-- Which keys of a document are kept: at the top, in the timing and in the restrictions. -/
structure Kept where
  top : String → Bool
  timing : String → Bool
  restrictions : String → Bool

/-- The configuration with defaults for the keys that are left out. -/
def keep (kept : Kept) (c : Config) : Config where
  storePath := if kept.top "store_path" then c.storePath else ({} : Config).storePath
  settings := if kept.top "settings" then c.settings else ({} : Config).settings
  timing := if kept.top "timing" then c.timing.keep kept.timing else {}
  restrictions := if kept.top "restrictions" then c.restrictions.keep kept.restrictions else {}
  advisors := if kept.top "notifiers" then c.advisors else [.openNetworks]

/-- The written configuration without the keys that are left out. -/
def document (kept : Kept) (c : Config) : Value :=
  ((c.toValue.within "timing" (Value.only kept.timing)).within "restrictions"
    (Value.only kept.restrictions)).only kept.top

def settingsMembers (c : Config) : List (String × Value) :=
  c.settings.entries.map fun e => (e.1, .bool e.2)

def documentMembers (kept : Kept) (c : Config) : List (String × Value) :=
  (c.storePath.map fun path => ("store_path", Value.string path)).toList ++ [
    ("settings", .object (plain c.settingsMembers)),
    ("timing", c.timing.toValue.only kept.timing),
    ("restrictions", c.restrictions.toValue.only kept.restrictions),
    ("notifiers", .list Identity.toValue c.advisors)]

theorem plain_settingsMembers (c : Config) :
    plain c.settingsMembers = c.settings.entries.map fun e => (.plain e.1, .bool e.2) := by
  simp [plain, settingsMembers]

theorem document_eq (kept : Kept) (c : Config) : c.document kept =
    .object (plain ((c.documentMembers kept).filter fun m => kept.top m.1)) := by
  rw [← only_plain, document, documentMembers, plain_settingsMembers]
  congr 1
  rw [toValue]
  cases c.storePath <;> rfl

theorem documentMembers_distinct (kept : Kept) (c : Config) :
    ((c.documentMembers kept).map Prod.fst).Nodup := by
  rw [documentMembers]
  cases c.storePath <;> simp

theorem documentMembers_names (kept : Kept) (c : Config) :
    ∀ m ∈ c.documentMembers kept, m.1 ∈ Config.schema.names := by
  intro m hm
  have hname := List.mem_map_of_mem (f := Prod.fst) hm
  rw [documentMembers] at hname
  cases hpath : c.storePath with
  | none =>
    rw [hpath] at hname
    exact List.mem_cons_of_mem _ hname
  | some path =>
    rw [hpath] at hname
    exact hname

theorem settings_takes (c : Config) :
    (Decoder.map Decoder.nameText Decoder.bool).Takes (.object (plain c.settingsMembers))
      c.settings := by
  intro w hw
  obtain ⟨ms', rfl, moved, hmoved, hnames, hvalues⟩ := moved_of_alike hw
  obtain ⟨l, rfl, hl⟩ := Decoder.exists_map_of_perm hmoved.symm
  have hms' : ms' = l.map fun e => (e.1, .bool e.2) := by
    refine eq_of_fixed hnames hvalues fun m hm => ?_
    obtain ⟨e, -, rfl⟩ := List.mem_map.1 hm
    exact fixed_bool e.2
  have hname (k : String) : Decoder.nameText .toml (.plain (id k)) = .ok k := rfl
  have hbool (b : Bool) : Decoder.bool .toml (.bool b) = .ok b := rfl
  have hread : Decoder.members Decoder.nameText Decoder.bool .toml ∅
      (plain (l.map fun e => (e.1, Value.bool e.2))) =
        .ok (l.foldl (fun m e => m.insert e.1 e.2) ∅) :=
    Decoder.members_plain hname hbool ∅ l
  rw [hms', Decoder.map, hread]
  have hlist : l.foldl (fun m e => m.insert e.1 e.2) ∅ = c.settings := SortedMap.ofList_eq hl
  rw [hlist]
  rfl

theorem decode_takes (kept : Kept) (c : Config) :
    Config.decode.Takes (c.document kept) (c.keep kept) := by
  have hpath : (RecordField.defaulting "store_path" none Decoder.path.optional).Finds
      ((c.documentMembers kept).filter fun m => kept.top m.1)
      (if kept.top "store_path" then c.storePath else none) := by
    rw [documentMembers]
    cases c.storePath with
    | some path => exact finds_kept kept.top (.head _) (path_takes path) rfl
    | none =>
      rw [ite_self]
      exact Or.inr ⟨by simp [RecordField.defaulting], rfl⟩
  have hmem {m : String × Value} (hm : m ∈ [
      ("settings", .object (plain c.settingsMembers)),
      ("timing", c.timing.toValue.only kept.timing),
      ("restrictions", c.restrictions.toValue.only kept.restrictions),
      ("notifiers", .list Identity.toValue c.advisors)]) : m ∈ c.documentMembers kept :=
    List.mem_append_right _ hm
  have htakes : Config.schema.Takes ((c.documentMembers kept).filter fun m => kept.top m.1)
      (c.keep kept) :=
    (((((Schema.Takes.pure _).field hpath).field
      (finds_kept kept.top (hmem (.head _)) c.settings_takes rfl)).field
      (finds_kept kept.top (hmem (.tail _ (.head _))) (Timing.decode_takes _ _) rfl)).field
      (finds_kept kept.top (hmem (.tail _ (.tail _ (.head _))))
        (RestrictionConfig.decode_takes _ _) rfl)).field
      (finds_kept kept.top (hmem (.tail _ (.tail _ (.tail _ (.head _)))))
        (list_takes Identity.decode_takes _) rfl)
  have hregular : Config.schema.Regular :=
    (((((Schema.Regular.pure _).field _).field _).field _).field _).field _
  rw [document_eq]
  exact htakes.record hregular (nodup_kept (c.documentMembers_distinct kept) kept.top)
    (fun m hm => c.documentMembers_names kept m (List.mem_filter.1 hm).1) _

end Config

/-! ### Printing -/

namespace Document.Toml

variable {n : Nat}

theorem orderly_int {i : Int} (hi : Numeral.hasRoom i = true) : Orderly n (.int i) := by
  have hwritten : inlineValue (.int i) = .ok (toString i).toList :=
    inlineValue_int_eq_ok_iff.2 ⟨hi, rfl⟩
  exact .scalar (.int i) (by rw [inlineText, hwritten]; rfl)

theorem orderly_string (s : String) : Orderly n (.string s) := .scalar (.string s) rfl

theorem orderly_bool (b : Bool) : Orderly n (.bool b) := by
  refine .scalar (.bool b) ?_
  cases b <;> rfl

theorem orderly_uint32 (m : UInt32) : Orderly n (Forms.uint32 m) := by
  have hm := m.toNat_lt
  refine orderly_int ?_
  simp [Numeral.hasRoom]
  omega

theorem orderly_int32 (i : Int32) : Orderly n (Forms.int32 i) := by
  have hlow := i.le_toInt
  have hhigh := i.toInt_lt
  refine orderly_int ?_
  simp [Numeral.hasRoom]
  omega

theorem orderly_list {α : Type} {write : α → Value} (members : α → List (String × Value))
    (hwrite : ∀ a, write a = .object (plain (members a)))
    (hd : ∀ a, ((members a).map Prod.fst).Nodup) (h : ∀ a, ∀ m ∈ members a, Orderly n m.2)
    (l : List α) : Orderly (n + 1) (.list write l) := by
  cases l with
  | nil => exact .scalar .empty rfl
  | cons a l =>
    have hlist : Value.list write (a :: l) =
        .array (((a :: l).map members).map fun ms => .object (plain ms)) := by
      simp [Value.list, hwrite]
    rw [hlist]
    refine .series (List.cons_ne_nil _ _) ?_ ?_
    · intro ms hms
      obtain ⟨b, -, rfl⟩ := List.mem_map.1 hms
      exact hd b
    · intro ms hms
      obtain ⟨b, -, rfl⟩ := List.mem_map.1 hms
      exact h b

end Document.Toml

open Document.Toml (Orderly orderly_int orderly_string orderly_bool orderly_uint32 orderly_int32
  orderly_list)

theorem hasRoom_iff (n : UInt64) :
    Toml.Numeral.hasRoom (n.toNat : Int) = true ↔ n.toNat ≤ 2 ^ 63 - 1 := by
  simp only [Toml.Numeral.hasRoom, Bool.and_eq_true, decide_eq_true_eq]
  omega

namespace Document.Toml

variable {k : String}

theorem hasRoom_of_valueLines {ms : List (String × Value)} {i : Int} {text : List Char}
    (h : valueLines (plain ms) = .ok text) (hm : (k, .int i) ∈ ms) :
    Numeral.hasRoom i = true := by
  induction ms generalizing text with
  | nil => cases hm
  | cons m ms ih =>
    rw [plain_cons, valueLines] at h
    obtain ⟨after, hafter, h⟩ := bind_eq_ok_iff.1 h
    rcases List.mem_cons.1 hm with rfl | hm
    · have hscalar : ¬ (isTable (.int i) || isSeries (.int i)) = true := Bool.false_ne_true
      rw [if_neg hscalar] at h
      obtain ⟨written, hwritten, -⟩ := bind_eq_ok_iff.1 h
      exact (inlineValue_int_eq_ok_iff.1 hwritten).1
    · exact ih hafter hm

theorem valueLines_of_layoutMembers {ms inner : List (String × Value)} {path : List String}
    {sections : List (List Char)} (h : layoutMembers path (plain ms) = .ok sections)
    (hm : (k, .object (plain inner)) ∈ ms) : ∃ text, valueLines (plain inner) = .ok text := by
  induction ms generalizing sections with
  | nil => cases hm
  | cons m ms ih =>
    rw [plain_cons, layoutMembers_cons] at h
    obtain ⟨first, hfirst, h⟩ := bind_eq_ok_iff.1 h
    obtain ⟨after, hafter, -⟩ := bind_eq_ok_iff.1 h
    rcases List.mem_cons.1 hm with rfl | hm
    · have htable := layoutMembers_table path k (plain inner)
      rw [plain_cons] at htable
      have hlayout := htable.symm.trans hfirst
      rw [layout] at hlayout
      obtain ⟨text, htext, -⟩ := bind_eq_ok_iff.1 hlayout
      exact ⟨text, htext⟩
    · exact ih hafter hm

theorem layoutMembers_of_print {ms : List (String × Value)} {text : String}
    (h : print (.object (plain ms)) = .ok text) :
    ∃ sections, layoutMembers [] (plain ms) = .ok sections := by
  obtain ⟨sections, hlayout, -⟩ := bind_eq_ok_iff.1 h
  rw [layout] at hlayout
  obtain ⟨_, -, hlayout⟩ := bind_eq_ok_iff.1 hlayout
  obtain ⟨tables, htables, -⟩ := bind_eq_ok_iff.1 hlayout
  exact ⟨tables, htables⟩

end Document.Toml

namespace Timing

def times (t : Timing) : List (String × UInt64) := [
  ("repeat_delay_secs", t.repeatDelaySecs), ("connecting_timeout_ms", t.connectingTimeout),
  ("connected_display_ms", t.connectedDisplay), ("failed_display_ms", t.failedDisplay)]

theorem members_eq (t : Timing) : t.members = t.times.map fun m => (m.1, Forms.uint64 m.2) := rfl

/-- TOML has room for the times among the kept keys. -/
def Fits (p : String → Bool) (t : Timing) : Prop :=
  ∀ m ∈ t.times, p m.1 = true → m.2.toNat ≤ 2 ^ 63 - 1

end Timing

namespace Config

variable {kept : Kept} {c : Config}

theorem mem_documentMembers_timing (kept : Kept) (c : Config) :
    ("timing", c.timing.toValue.only kept.timing) ∈ c.documentMembers kept :=
  List.mem_append_right _ (.tail _ (.head _))

theorem fits_of_print {text : String} (h : Toml.print (c.document kept) = .ok text)
    (htop : kept.top "timing" = true) : c.timing.Fits kept.timing := by
  intro m hm hkept
  rw [document_eq] at h
  obtain ⟨sections, hsections⟩ := Toml.layoutMembers_of_print h
  have htiming : ("timing", c.timing.toValue.only kept.timing) ∈
      (c.documentMembers kept).filter fun m => kept.top m.1 :=
    List.mem_filter.2 ⟨c.mem_documentMembers_timing kept, htop⟩
  rw [Timing.only_toValue] at htiming
  obtain ⟨lines, hlines⟩ := Toml.valueLines_of_layoutMembers hsections htiming
  have hmember : (m.1, Forms.uint64 m.2) ∈ c.timing.members :=
    c.timing.members_eq ▸ List.mem_map_of_mem hm
  exact (hasRoom_iff m.2).1 (Toml.hasRoom_of_valueLines hlines
    (List.mem_filter.2 ⟨hmember, hkept⟩))

theorem orderly_settings (c : Config) : Orderly 2 (.object (plain c.settingsMembers)) := by
  refine .table ?_ fun m hm => ?_
  · have hkeys := c.settings.keys_nodup
    simpa [settingsMembers, Function.comp_def] using hkeys
  · obtain ⟨e, -, rfl⟩ := List.mem_map.1 hm
    exact orderly_bool e.2

theorem orderly_timing {p : String → Bool} {t : Timing} (h : t.Fits p) :
    Orderly 2 (t.toValue.only p) := by
  rw [Timing.only_toValue]
  refine .table (nodup_kept t.members_distinct p) fun m hm => ?_
  obtain ⟨hm, hkept⟩ := List.mem_filter.1 hm
  rw [Timing.members_eq] at hm
  obtain ⟨x, hx, rfl⟩ := List.mem_map.1 hm
  exact orderly_int ((hasRoom_iff x.2).2 (h x hx hkept))

theorem orderly_restrictions (p : String → Bool) (r : RestrictionConfig) :
    Orderly 2 (r.toValue.only p) := by
  have hrules : Orderly 1 (.list Rule.toValue r.rules) := by
    refine orderly_list Rule.members (fun _ => rfl) (fun _ => ?_) (fun _ m hm => ?_) _
    · simp [Rule.members]
    · simp only [Rule.members, List.mem_cons, List.not_mem_nil, or_false] at hm
      rcases hm with rfl | rfl
      · exact orderly_uint32 _
      · exact orderly_string _
  rw [RestrictionConfig.only_toValue]
  refine .table (nodup_kept r.members_distinct p) fun m hm => ?_
  have hm := (List.mem_filter.1 hm).1
  simp only [RestrictionConfig.members, List.mem_cons, List.not_mem_nil, or_false] at hm
  rcases hm with rfl | rfl | rfl
  · exact orderly_uint32 _
  · exact orderly_bool _
  · exact hrules

theorem orderly_advisors (c : Config) : Orderly 2 (.list Identity.toValue c.advisors) := by
  refine orderly_list Identity.members (fun _ => rfl) (fun _ => ?_) (fun _ m hm => ?_) _
  · simp [Identity.members]
  · simp only [Identity.members, List.mem_cons, List.not_mem_nil, or_false] at hm
    rcases hm with rfl | rfl | rfl | rfl | rfl
    · exact orderly_string _
    · exact orderly_string _
    · exact orderly_string _
    · exact orderly_int32 _
    · exact orderly_int32 _

theorem orderly_documentMembers (h : kept.top "timing" = true → c.timing.Fits kept.timing) :
    ∀ m ∈ (c.documentMembers kept).filter fun m => kept.top m.1, Orderly 2 m.2 := by
  intro m hm
  obtain ⟨hm, hkept⟩ := List.mem_filter.1 hm
  rw [documentMembers] at hm
  rcases List.mem_append.1 hm with hm | hm
  · obtain ⟨path, -, rfl⟩ := Option.map_eq_some_iff.1 (Option.mem_toList.1 hm)
    exact orderly_string path
  · simp only [List.mem_cons, List.not_mem_nil, or_false] at hm
    rcases hm with rfl | rfl | rfl | rfl
    · exact c.orderly_settings
    · exact orderly_timing (h hkept)
    · exact orderly_restrictions _ _
    · exact c.orderly_advisors

/-- The text is one for the value, in whichever order the members of its tables stand. -/
def Holds (text : String) (v : Value) : Prop := ∃ w, Toml.parse? text = some w ∧ Alike v w

theorem Holds.read {text : String} (h : Holds text (c.document kept)) :
    ofToml text = .ok (c.keep kept) := by
  obtain ⟨w, hparse, halike⟩ := h
  rw [ofToml, hparse]
  exact c.decode_takes kept w halike

theorem exists_print (h : kept.top "timing" = true → c.timing.Fits kept.timing) :
    ∃ text, Toml.print (c.document kept) = .ok text ∧ Holds text (c.document kept) := by
  obtain ⟨text, w, hprint, hparse, halike⟩ := Toml.parse?_print
    (nodup_kept (c.documentMembers_distinct kept) kept.top) (orderly_documentMembers h) (by decide)
  rw [← document_eq] at hprint halike
  exact ⟨text, hprint, w, hparse, halike⟩

theorem holds_of_print {text : String} (h : Toml.print (c.document kept) = .ok text) :
    Holds text (c.document kept) := by
  obtain ⟨text', htext', hholds⟩ := exists_print (fits_of_print h)
  rw [h] at htext'
  exact Except.ok.inj htext' ▸ hholds

theorem exists_print_iff (kept : Kept) (c : Config) :
    (∃ text, Toml.print (c.document kept) = .ok text) ↔
      (kept.top "timing" = true → c.timing.Fits kept.timing) := by
  refine ⟨fun ⟨text, h⟩ => fits_of_print h, fun h => ?_⟩
  obtain ⟨text, htext, -⟩ := exists_print h
  exact ⟨text, htext⟩

/-- Nothing is left out. -/
def Kept.all : Kept := ⟨fun _ => true, fun _ => true, fun _ => true⟩

theorem document_all (c : Config) : c.document .all = c.toValue := by
  rw [document, Kept.all, only_true, within_of_fixed only_true, within_of_fixed only_true]

theorem keep_all (c : Config) : c.keep .all = c := by
  simp [keep, Kept.all, Timing.keep, RestrictionConfig.keep]

/-- A configuration is printed exactly if TOML has room for its times, and its text reads as the
configuration; so it is with any part of it, read with defaults for the keys that were left out. -/
theorem read_back_whole_or_in_part (c : Config) :
    ((∃ text, c.toToml = .ok text) ↔
      c.timing.repeatDelaySecs.toNat ≤ 2 ^ 63 - 1 ∧ c.timing.connectingTimeout.toNat ≤ 2 ^ 63 - 1 ∧
        c.timing.connectedDisplay.toNat ≤ 2 ^ 63 - 1 ∧ c.timing.failedDisplay.toNat ≤ 2 ^ 63 - 1) ∧
    (∀ text, c.toToml = .ok text → ofToml text = .ok c) ∧
    ∀ kept : Kept,
      ((∃ text, Toml.print (c.document kept) = .ok text) ↔
        (kept.top "timing" = true → c.timing.Fits kept.timing)) ∧
      (∀ text, Toml.print (c.document kept) = .ok text → ofToml text = .ok (c.keep kept)) ∧
      ∀ text, Holds text (c.document kept) → ofToml text = .ok (c.keep kept) := by
  have hprint := exists_print_iff .all c
  rw [document_all] at hprint
  refine ⟨hprint.trans ?_, fun text h => ?_, fun kept => ⟨exists_print_iff kept c,
    fun text h => (holds_of_print h).read, fun text h => h.read⟩⟩
  · simp [Kept.all, Timing.Fits, Timing.times]
  · rw [toToml, ← document_all] at h
    rw [(holds_of_print h).read, keep_all]

namespace Lodge

def config : Config where
  storePath := some "lodge.db"
  settings := SortedMap.ofList [("quiet \"hours\"", false), ("a.b", true)]
  timing := { repeatDelaySecs := 60 }
  restrictions := { currentUser := 10, rules := [⟨10, .configWifi⟩] }
  advisors := [.carrierNetworks]

/-- The timing is left out, and of the restrictions everything but the rules. -/
def rulesOnly : Kept := ⟨fun key => key ≠ "timing", fun _ => true, fun key => key = "rules"⟩

theorem config_read_back_whole_and_in_part :
    (∃ text, config.toToml = .ok text ∧ ofToml text = .ok config) ∧
      ∃ text, Toml.print (config.document rulesOnly) = .ok text ∧
        ofToml text = .ok { config with
          timing := {}
          restrictions := { rules := [⟨10, .configWifi⟩] } } := by
  obtain ⟨hprint, hread, hparts⟩ := read_back_whole_or_in_part config
  obtain ⟨hprintPart, hreadPart, -⟩ := hparts rulesOnly
  obtain ⟨text, htext⟩ := hprint.2 (by decide)
  obtain ⟨part, hpart⟩ := hprintPart.2 fun h => absurd h (by decide)
  exact ⟨⟨text, htext, hread text htext⟩, part, hpart, hreadPart part hpart⟩

end Lodge

end Config

end WifiAdvisor
