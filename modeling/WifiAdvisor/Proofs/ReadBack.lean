import Mathlib.Data.List.Nodup
import Mathlib.Data.List.Perm.Basic
import WifiAdvisor.Document.Json.Tree
import WifiAdvisor.Forms.Event

/-!
# What was written is read back

Decoders that get a value back from its written form, whatever source it comes from, as it was
written or kept as a whole. Records come from their members, tagged records from the members beside
the tag, maps from one member for each entry.
-/
namespace WifiAdvisor

/-! ### Maps from lists of entries -/

namespace SortedMap

variable {κ α : Type} [Ord κ] [Std.TransOrd κ] [Std.LawfulEqOrd κ]

omit [Std.TransOrd κ] in
theorem place_perm {k : κ} {l : List (κ × α)} (h : k ∉ l.map Prod.fst) (a : α) :
    (place k a l).Perm ((k, a) :: l) := by
  induction l with
  | nil => rfl
  | cons e rest ih =>
    obtain ⟨x, b⟩ := e
    rw [List.map_cons, List.mem_cons, not_or] at h
    obtain ⟨hx, hrest⟩ := h
    simp only [place]
    split
    · rfl
    · rename_i hk
      exact (hx (Std.LawfulEqOrd.eq_of_compare hk)).elim
    · exact ((ih hrest).cons _).trans (.swap _ _ _)

theorem foldl_insert_perm (m : SortedMap κ α) {l : List (κ × α)}
    (h : ((m.entries ++ l).map Prod.fst).Nodup) :
    (l.foldl (fun m e => m.insert e.1 e.2) m).entries.Perm (m.entries ++ l) := by
  induction l generalizing m with
  | nil => simp
  | cons e rest ih =>
    have hfresh : e.1 ∉ m.entries.map Prod.fst := by
      rw [List.map_append, List.nodup_append'] at h
      intro hmem
      exact h.2.2 hmem List.mem_cons_self
    have hplace : (m.insert e.1 e.2).entries.Perm (e :: m.entries) := place_perm hfresh e.2
    have hmove : (m.entries ++ e :: rest).Perm ((m.insert e.1 e.2).entries ++ rest) :=
      List.perm_middle.trans (hplace.symm.append_right rest)
    exact (ih _ ((hmove.map _).nodup_iff.1 h)).trans hmove.symm

theorem ofList_perm {l : List (κ × α)} (h : (l.map Prod.fst).Nodup) :
    (ofList l).entries.Perm l :=
  foldl_insert_perm ∅ h

omit [Std.LawfulEqOrd κ] in
theorem keys_nodup (m : SortedMap κ α) : (m.entries.map Prod.fst).Nodup := by
  refine List.pairwise_map.2 (m.ascending.imp fun {a b} hlt heq => ?_)
  rw [heq, Std.ReflOrd.compare_self] at hlt
  cases hlt

theorem ofList_eq {m : SortedMap κ α} {l : List (κ × α)} (h : l.Perm m.entries) :
    ofList l = m := by
  have hkeys : (l.map Prod.fst).Nodup := (h.map _).nodup_iff.2 m.keys_nodup
  refine ext (((ofList_perm hkeys).trans h).eq_of_pairwise (fun a b _ _ hab hba => ?_)
    (ofList l).ascending m.ascending)
  rw [Std.OrientedOrd.eq_swap, hba] at hab
  cases hab

end SortedMap

namespace Document

variable {α β κ : Type}

/-! ### How a written value is kept -/

/-- Members whose names are written as they read. -/
def plain (ms : List (String × Value)) : List (Name × Value) := ms.map fun m => (.plain m.1, m.2)

theorem plain_cons (m : String × Value) (ms : List (String × Value)) :
    plain (m :: ms) = (.plain m.1, m.2) :: plain ms := rfl

inductive Keeping where
  /-- As it was written. -/
  | written
  /-- As a whole, with the members of objects by name. -/
  | whole

namespace Keeping

variable (k : Keeping)

def keep : Keeping → Value → Value
  | .written => id
  | .whole => Json.settle

@[simp] theorem keep_null : k.keep .null = .null := by cases k <;> simp [keep, Json.settle]

@[simp] theorem keep_bool (b : Bool) : k.keep (.bool b) = .bool b := by
  cases k <;> simp [keep, Json.settle]

@[simp] theorem keep_number (n : Number) : k.keep (.number n) = .number n := by
  cases k <;> simp [keep, Json.settle]

@[simp] theorem keep_string (s : String) : k.keep (.string s) = .string s := by
  cases k <;> simp [keep, Json.settle]

theorem settleItems_eq (l : List Value) : Json.settleItems l = l.map Json.settle := by
  induction l with
  | nil => simp [Json.settleItems]
  | cons v rest ih => simp [Json.settleItems, ih]

theorem settleMembers_plain (ms : List (String × Value)) :
    Json.settleMembers (plain ms) = ms.map fun m => (m.1, Json.settle m.2) := by
  induction ms with
  | nil => simp [plain, Json.settleMembers]
  | cons m rest ih =>
    rw [plain_cons, Json.settleMembers, ih]
    rfl

@[simp] theorem keep_array (l : List Value) (ending : Ending) :
    k.keep (.array l ending) = .array (l.map k.keep) ending := by
  cases k <;> simp [keep, Json.settle, settleItems_eq]

/-- The members of an object as they are kept; only their order may change. -/
theorem keep_object {ms : List (String × Value)} (h : (ms.map Prod.fst).Nodup) :
    ∃ kept, k.keep (.object (plain ms)) = .object (plain kept) ∧
      kept.Perm (ms.map fun m => (m.1, k.keep m.2)) := by
  cases k with
  | written => exact ⟨ms, rfl, by simp [keep]⟩
  | whole =>
    refine ⟨(SortedMap.ofList (ms.map fun m => (m.1, Json.settle m.2))).entries, ?_, ?_⟩
    · simp only [keep, Json.settle, settleMembers_plain]
      rfl
    · refine SortedMap.ofList_perm ?_
      rw [List.map_map]
      exact h

end Keeping

theorem map_fst_keep {ms kept : List (String × Value)} {k : Keeping}
    (h : kept.Perm (ms.map fun m => (m.1, k.keep m.2))) :
    (kept.map Prod.fst).Perm (ms.map Prod.fst) := by
  have hnames := h.map Prod.fst
  rwa [List.map_map] at hnames

/-! ### What a decoder gets -/

/-- The decoder gets `a` from `v`, whatever that comes from and however it is kept. -/
def Decoder.Gets (d : Decoder α) (v : Value) (a : α) : Prop :=
  ∀ (source : Source) (k : Keeping), d source (k.keep v) = .ok a

namespace Decoder

theorem bool_gets (b : Bool) : Decoder.bool.Gets (.bool b) b := by
  intro source k
  rw [Keeping.keep_bool]
  rfl

theorem string_gets (s : String) : Decoder.string.Gets (.string s) s := by
  intro source k
  rw [Keeping.keep_string]
  rfl

theorem wholeNumber_int {low high i : Int} (hlow : low ≤ i) (hhigh : i ≤ high) (expected : String)
    (source : Source) (k : Keeping) :
    wholeNumber low high expected source (k.keep (.int i)) = .ok i := by
  rw [Value.int, Keeping.keep_number]
  exact if_pos ⟨hlow, hhigh⟩

theorem named_gets [Named α] (a : α) : Decoder.named.Gets (.string (Named.name a)) a := by
  intro source k
  rw [Keeping.keep_string]
  cases source <;> simp [named, ofName]

theorem optional_gets {d : Decoder α} {v : Value} {a : α} (h : d.Gets v a)
    (hv : ∃ s, v = .string s) : d.optional.Gets v (some a) := by
  obtain ⟨s, rfl⟩ := hv
  intro source k
  have hd := h source k
  rw [Keeping.keep_string] at hd ⊢
  simp [optional, hd, Except.map]

theorem option_gets {d : Decoder α} {write : α → String}
    (h : ∀ a, d.Gets (.string (write a)) a) (o : Option α) :
    d.optional.Gets (.option (fun a => .string (write a)) o) o := by
  cases o with
  | none =>
    intro source k
    rw [Value.option, Keeping.keep_null]
    rfl
  | some a => exact optional_gets (h a) ⟨write a, rfl⟩

theorem list_gets {d : Decoder α} {write : α → Value} (h : ∀ a, d.Gets (write a) a)
    (l : List α) : (list d).Gets (.list write l) l := by
  intro source k
  have hitems : items d source ((l.map write).map k.keep) = .ok l := by
    induction l with
    | nil => rfl
    | cons a rest ih =>
      rw [List.map_cons, List.map_cons, items, h a source k, ih]
      rfl
  rw [Value.list, Keeping.keep_array, list, hitems]
  rfl

end Decoder

/-! ### Records -/

theorem lookup_plain {ms : List (String × Value)} (h : (ms.map Prod.fst).Nodup)
    {m : String × Value} (hm : m ∈ ms) : lookup m.1 (plain ms) = some m.2 := by
  induction ms with
  | nil => cases hm
  | cons first rest ih =>
    obtain ⟨hfirst, hrest⟩ := List.nodup_cons.1 h
    rw [plain_cons, lookup]
    rcases List.mem_cons.1 hm with rfl | hm
    · simp [Name.reads]
    · have hne : first.1 ≠ m.1 := by
        intro heq
        exact hfirst (heq ▸ List.mem_map_of_mem hm)
      simpa [Name.reads, hne] using ih hrest hm

namespace Schema

/-- The schema puts `a` together from members that say what its fields hold, in their order. -/
structure Reads (s : Schema α) (ms : List (String × Value)) (a : α) : Prop where
  names : s.names = ms.map Prod.fst
  distinct : (ms.map Prod.fst).Nodup
  check : ∀ source (k : Keeping), ∀ m ∈ ms, s.check source m.1 (k.keep m.2) = .ok ()
  build : ∀ source (k : Keeping) members, (∀ m ∈ ms, lookup m.1 members = some (k.keep m.2)) →
    s.build source members = .ok a
  take : ∀ source (k : Keeping) what position rest,
    s.take source what position ((ms.map fun m => k.keep m.2) ++ rest) = .ok (a, rest)

namespace Reads

theorem pure (a : α) : (Schema.pure a).Reads [] a where
  names := rfl
  distinct := List.nodup_nil
  check _ _ _ hm := by cases hm
  build _ _ _ _ := rfl
  take _ _ _ _ _ := rfl

theorem field {s : Schema (β → α)} {ms : List (String × Value)} {g : β → α} (h : s.Reads ms g)
    {f : RecordField β} {v : Value} {b : β} (hfresh : f.name ∉ s.names) (hv : f.decode.Gets v b) :
    (s.field f).Reads (ms ++ [(f.name, v)]) (g b) where
  names := by simp [Schema.field, h.names]
  distinct := by
    rw [List.map_append, List.nodup_append']
    refine ⟨h.distinct, List.nodup_singleton _, ?_⟩
    rw [h.names] at hfresh
    simpa using hfresh
  check source k m hm := by
    rcases List.mem_append.1 hm with hm | hm
    · have hne : m.1 ≠ f.name := by
        intro heq
        rw [← heq, h.names] at hfresh
        exact hfresh (List.mem_map_of_mem hm)
      simp only [Schema.field, if_neg hne, h.check source k m hm]
    · cases List.mem_singleton.1 hm
      simp [Schema.field, hv source k, Except.map]
  build source k members hm := by
    have hg := h.build source k members fun m hms => hm m (List.mem_append_left _ hms)
    have hlast := hm (f.name, v) (by simp)
    simp [Schema.field, hg, hlast, hv source k, bind, Except.bind, Pure.pure, Except.pure]
  take source k what position rest := by
    have hg := h.take source k what position (k.keep v :: rest)
    simp [Schema.field, hg, hv source k, bind, Except.bind, Pure.pure, Except.pure]

theorem map {s : Schema α} {ms : List (String × Value)} {a : α} (h : s.Reads ms a) (f : α → β) :
    (s.map f).Reads ms (f a) where
  names := h.names
  distinct := h.distinct
  check := h.check
  build source k members hm := by simp [Schema.map, h.build source k members hm, Except.map]
  take source k what position rest := by
    simp [Schema.map, h.take source k what position rest, Except.map]

variable {s : Schema α} {ms : List (String × Value)} {a : α}

theorem scan {seen : List String} {source : Source} {l : List (String × Value)}
    (hnames : ∀ m ∈ l, m.1 ∈ s.names) (hcheck : ∀ m ∈ l, s.check source m.1 m.2 = .ok ())
    (hfresh : ∀ m ∈ l, m.1 ∉ seen) (hdistinct : (l.map Prod.fst).Nodup) :
    s.scan source seen (plain l) = .ok () := by
  induction l generalizing seen with
  | nil => rfl
  | cons m rest ih =>
    obtain ⟨hname, hnames⟩ := List.forall_mem_cons.1 hnames
    obtain ⟨hm, hcheck⟩ := List.forall_mem_cons.1 hcheck
    obtain ⟨hseen, hfresh⟩ := List.forall_mem_cons.1 hfresh
    obtain ⟨hne, hdistinct⟩ := List.nodup_cons.1 hdistinct
    have hrest : s.scan source (m.1 :: seen) (plain rest) = .ok () := by
      refine ih hnames hcheck (fun x hx => ?_) hdistinct
      rw [List.mem_cons, not_or]
      exact ⟨fun heq => hne (heq ▸ List.mem_map_of_mem hx), hfresh x hx⟩
    simp [plain_cons, Schema.scan, Name.text, orUnreadable, hname, hseen, hm, hrest, bind,
      Except.bind]

theorem ofMembers (h : s.Reads ms a) {k : Keeping} {kept : List (String × Value)}
    (hkept : kept.Perm (ms.map fun m => (m.1, k.keep m.2))) (source : Source) :
    s.ofMembers source (plain kept) .closed = .ok a := by
  have hnames := map_fst_keep hkept
  have hdistinct : (kept.map Prod.fst).Nodup := hnames.nodup_iff.2 h.distinct
  have hscan : s.scan source [] (plain kept) = .ok () := by
    refine scan (fun m hm => ?_) (fun m hm => ?_) (by simp) hdistinct
    · rw [h.names]
      exact hnames.mem_iff.1 (List.mem_map_of_mem hm)
    · obtain ⟨x, hx, rfl⟩ := List.mem_map.1 (hkept.mem_iff.1 hm)
      exact h.check source k x hx
  have hbuild : s.build source (plain kept) = .ok a := by
    refine h.build source k _ fun m hm => ?_
    exact lookup_plain hdistinct (hkept.mem_iff.2 (List.mem_map_of_mem hm))
  simp [Schema.ofMembers, hscan, hbuild, Ending.check, orUnreadable, bind, Except.bind]

theorem ofItems (h : s.Reads ms a) (k : Keeping) (what : String) (source : Source) :
    s.ofItems what source (ms.map fun m => k.keep m.2) .closed = .ok a := by
  have htake := h.take source k (what ++ " with " ++ elements s.names.length) 0 []
  rw [List.append_nil] at htake
  cases source <;>
    simp [Schema.ofItems, Schema.ofItems.takeAll, htake, surplus, Ending.check, orUnreadable, bind,
      Except.bind, Pure.pure, Except.pure]

theorem record (h : s.Reads ms a) (what : String) :
    (s.record what).Gets (.object (plain ms)) a := by
  intro source k
  obtain ⟨kept, hkeep, hkept⟩ := k.keep_object h.distinct
  rw [hkeep]
  exact h.ofMembers hkept source

end Reads

end Schema

/-! ### Values that are set aside -/

/-- However it is kept, the value can be set aside with that much room. -/
def Value.Aside (room : Nat) (v : Value) : Prop := ∀ k : Keeping, (k.keep v).setAside room = .ok ()

namespace Value

variable {room : Nat}

theorem aside_null : Value.null.Aside room := by
  intro k
  rw [Keeping.keep_null]
  rfl

theorem aside_bool (b : Bool) : (Value.bool b).Aside room := by
  intro k
  rw [Keeping.keep_bool]
  rfl

theorem aside_string (s : String) : (Value.string s).Aside room := by
  intro k
  rw [Keeping.keep_string]
  rfl

theorem aside_int (i : Int) : (Value.int i).Aside room := by
  intro k
  rw [Value.int, Keeping.keep_number]
  rfl

theorem aside_option {f : α → Value} (h : ∀ a, (f a).Aside room) (o : Option α) :
    (Value.option f o).Aside room := by
  cases o with
  | none => exact aside_null
  | some a => exact h a

theorem setAsideItems_ok {l : List Value} (h : ∀ v ∈ l, v.setAside room = .ok ()) :
    setAsideItems room l = .ok () := by
  induction l with
  | nil => rfl
  | cons v rest ih =>
    obtain ⟨hv, hrest⟩ := List.forall_mem_cons.1 h
    rw [setAsideItems, hv]
    exact ih hrest

theorem setAsideMembers_ok {l : List (String × Value)}
    (h : ∀ m ∈ l, m.2.setAside room = .ok ()) : setAsideMembers room (plain l) = .ok () := by
  induction l with
  | nil => rfl
  | cons m rest ih =>
    obtain ⟨hm, hrest⟩ := List.forall_mem_cons.1 h
    rw [plain_cons, setAsideMembers, hm]
    exact ih hrest

theorem aside_list {f : α → Value} (h : ∀ a, (f a).Aside (room + 1)) (l : List α) :
    (Value.list f l).Aside (room + 2) := by
  intro k
  have hitems : setAsideItems (room + 1) ((l.map f).map k.keep) = .ok () := by
    refine setAsideItems_ok fun v hv => ?_
    rw [List.map_map] at hv
    obtain ⟨a, -, rfl⟩ := List.mem_map.1 hv
    exact h a k
  rw [Value.list, Keeping.keep_array, Value.setAside]
  have hroom : ¬room + 2 ≤ 1 := by omega
  have hless : room + 2 - 1 = room + 1 := rfl
  rw [if_neg hroom, hless, hitems]
  rfl

theorem aside_object {ms : List (String × Value)} (hdistinct : (ms.map Prod.fst).Nodup)
    (h : ∀ m ∈ ms, m.2.Aside (room + 1)) : (Value.object (plain ms)).Aside (room + 2) := by
  intro k
  obtain ⟨kept, hkeep, hkept⟩ := k.keep_object hdistinct
  have hmembers : setAsideMembers (room + 1) (plain kept) = .ok () := by
    refine setAsideMembers_ok fun m hm => ?_
    obtain ⟨x, hx, rfl⟩ := List.mem_map.1 (hkept.mem_iff.1 hm)
    exact h x hx k
  rw [hkeep, Value.setAside]
  simp [hmembers, Ending.check, bind, Except.bind]

end Value

/-! ### Tagged records -/

namespace Tagged

/-- Members that stand beside a tag of which a tagged record is put together. -/
structure Reads (t : Tagged α) (tag : String) (ms : List (String × Value)) (a : α) : Prop where
  variant : ∃ v, t.variants.find? (fun v => v.tag = tag) = some v ∧ v.schema.Reads ms a
  untagged : "type" ∉ ms.map Prod.fst
  aside : ∀ m ∈ ms, m.2.Aside (bracketRoom - 1)

variable {t : Tagged α} {tag : String} {ms : List (String × Value)} {a : α}

theorem Reads.unit {what : String}
    (hfind : t.variants.find? (fun v => v.tag = tag) = some ⟨tag, what, Schema.pure a⟩) :
    t.Reads tag [] a :=
  ⟨⟨_, hfind, .pure a⟩, List.not_mem_nil, List.forall_mem_nil _⟩

theorem Reads.field {what : String} {make : β → α} {f : RecordField β} {v : Value} {b : β}
    (hfind : t.variants.find? (fun v => v.tag = tag) =
      some ⟨tag, what, (Schema.pure make).field f⟩) (hname : "type" ≠ f.name)
    (hv : f.decode.Gets v b) (haside : v.Aside (bracketRoom - 1)) :
    t.Reads tag [(f.name, v)] (make b) where
  variant := ⟨_, hfind, (Schema.Reads.pure make).field List.not_mem_nil hv⟩
  untagged := by simpa using hname
  aside := by simpa using haside

theorem split_untagged {l : List (String × Value)} (htype : "type" ∉ l.map Prod.fst)
    (haside : ∀ m ∈ l, m.2.setAside (bracketRoom - 1) = .ok ()) (source : Source)
    (found : Option (Variant α)) : t.split source found (plain l) = .ok (found, plain l) := by
  induction l with
  | nil => rfl
  | cons m rest ih =>
    rw [List.map_cons, List.mem_cons, not_or] at htype
    obtain ⟨hm, haside⟩ := List.forall_mem_cons.1 haside
    simp [plain_cons, split, Name.text, orUnreadable, Ne.symm htype.1, hm, ih htype.2 haside, bind,
      Except.bind, Pure.pure, Except.pure]

/-- The tag may stand anywhere among the members. -/
theorem split_tagged {front back : List (String × Value)} {v : Variant α} {w : Value}
    {source : Source} (hw : t.variant source w = .ok v)
    (htype : "type" ∉ (front ++ back).map Prod.fst)
    (haside : ∀ m ∈ front ++ back, m.2.setAside (bracketRoom - 1) = .ok ()) :
    t.split source none (plain (front ++ ("type", w) :: back)) =
      .ok (some v, plain (front ++ back)) := by
  induction front with
  | nil =>
    have hback := split_untagged (t := t) htype haside source (some v)
    rw [List.nil_append] at hback
    simp [plain_cons, split, Name.text, orUnreadable, hw, hback, bind, Except.bind]
  | cons m rest ih =>
    rw [List.cons_append, List.map_cons, List.mem_cons, not_or] at htype
    obtain ⟨hm, haside⟩ := List.forall_mem_cons.1 haside
    simp [plain_cons, split, Name.text, orUnreadable, Ne.symm htype.1, hm, ih htype.2 haside, bind,
      Except.bind, Pure.pure, Except.pure]

theorem Reads.variant_eq {v : Variant α}
    (hfind : t.variants.find? (fun v => v.tag = tag) = some v) (source : Source) :
    t.variant source (.string tag) = .ok v := by
  simp [Tagged.variant, hfind]

theorem Reads.object (h : t.Reads tag ms a) :
    Decoder.Gets t.decode (.object (plain (("type", .string tag) :: ms))) a := by
  obtain ⟨v, hfind, hreads⟩ := h.variant
  intro source k
  have hdistinct : ((("type", Value.string tag) :: ms).map Prod.fst).Nodup :=
    List.nodup_cons.2 ⟨h.untagged, hreads.distinct⟩
  obtain ⟨kept, hkeep, hkept⟩ := k.keep_object hdistinct
  rw [List.map_cons, Keeping.keep_string] at hkept
  obtain ⟨front, back, rfl⟩ := List.append_of_mem (hkept.symm.mem_iff.1 List.mem_cons_self)
  have hothers : (front ++ back).Perm (ms.map fun m => (m.1, k.keep m.2)) :=
    (List.perm_middle.symm.trans hkept).cons_inv
  have hsplit := split_tagged (Reads.variant_eq hfind source)
    (fun htype => h.untagged ((map_fst_keep hothers).mem_iff.1 htype)) (by
      intro m hm
      obtain ⟨x, hx, rfl⟩ := List.mem_map.1 (hothers.mem_iff.1 hm)
      exact h.aside x hx k)
  rw [hkeep]
  simp [decode, hsplit, hreads.ofMembers hothers, Ending.check, orUnreadable, bind, Except.bind]

theorem Reads.array (h : t.Reads tag ms a) :
    Decoder.Gets t.decode (.array (.string tag :: ms.map Prod.snd)) a := by
  obtain ⟨v, hfind, hreads⟩ := h.variant
  intro source k
  have haside : setAsideItems (bracketRoom - 1) (ms.map fun m => k.keep m.2) = .ok () := by
    refine Value.setAsideItems_ok fun w hw => ?_
    obtain ⟨m, hm, rfl⟩ := List.mem_map.1 hw
    exact h.aside m hm k
  have hitems : (ms.map Prod.snd).map k.keep = ms.map fun m => k.keep m.2 := List.map_map
  rw [Keeping.keep_array, List.map_cons, Keeping.keep_string, hitems, decode,
    Reads.variant_eq hfind source, haside]
  exact hreads.ofItems k v.what .buffer

end Tagged

/-! ### Maps -/

namespace Decoder

theorem exists_map_of_perm {α β : Type} {f : α → β} {l : List β} {m : List α}
    (h : l.Perm (m.map f)) : ∃ n : List α, l = n.map f ∧ n.Perm m := by
  have hmap : List.Forall₂ (fun b a => b = f a) (m.map f) m := by
    rw [List.forall₂_map_left_iff]
    exact List.forall₂_same.2 fun _ _ => rfl
  obtain ⟨n, hn, hperm⟩ := List.perm_comp_forall₂ h hmap
  refine ⟨n, ?_, hperm⟩
  rwa [← List.forall₂_eq_eq_eq, List.forall₂_map_right_iff]

variable [Ord κ] [Std.TransOrd κ] [Std.LawfulEqOrd κ]

theorem members_plain {key : Source → Name → Except DecodeError κ} {d : Decoder α} {source : Source}
    {name : κ → String} {write : α → Value} (hkey : ∀ x, key source (.plain (name x)) = .ok x)
    (hd : ∀ a, d source (write a) = .ok a) (m : SortedMap κ α) (l : List (κ × α)) :
    members key d source m (plain (l.map fun e => (name e.1, write e.2))) =
      .ok (l.foldl (fun m e => m.insert e.1 e.2) m) := by
  induction l generalizing m with
  | nil => rfl
  | cons e rest ih =>
    rw [List.map_cons, plain_cons, members, hkey, List.foldl_cons]
    simp only [hd, bind, Except.bind]
    exact ih _

theorem map_gets {key : Source → Name → Except DecodeError κ} {d : Decoder α}
    {name : κ → String} {write : α → Value}
    (hkey : ∀ source x, key source (.plain (name x)) = .ok x)
    (hd : ∀ a, d.Gets (write a) a) (m : SortedMap κ α) :
    (map key d).Gets (.object (m.entries.map fun e => (.plain (name e.1), write e.2))) m := by
  intro source k
  have hinjective : Function.Injective name := by
    intro x y heq
    have hx := hkey source x
    rw [heq, hkey source y] at hx
    exact (Except.ok.inj hx).symm
  have hdistinct : ((m.entries.map fun e => (name e.1, write e.2)).map Prod.fst).Nodup := by
    have hnames := m.keys_nodup.map hinjective
    rw [List.map_map] at hnames ⊢
    exact hnames
  have hwritten : (m.entries.map fun e => (Name.plain (name e.1), write e.2)) =
      plain (m.entries.map fun e => (name e.1, write e.2)) := by
    rw [plain, List.map_map]
    rfl
  obtain ⟨kept, hkeep, hkept⟩ := k.keep_object hdistinct
  rw [List.map_map] at hkept
  obtain ⟨l, rfl, hl⟩ := exists_map_of_perm hkept
  have hmembers : members key d source ∅ (plain (l.map fun e => (name e.1, k.keep (write e.2)))) =
      .ok (SortedMap.ofList l) :=
    members_plain (hkey source) (fun a => hd a source k) ∅ l
  have hcomp : ((fun m => (m.1, k.keep m.2)) ∘ fun e : κ × α => (name e.1, write e.2)) =
      fun e => (name e.1, k.keep (write e.2)) := rfl
  rw [hwritten, hkeep, map, hcomp, hmembers, SortedMap.ofList_eq hl]
  rfl

end Decoder

end Document

end WifiAdvisor
