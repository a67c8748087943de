import Mathlib.Data.List.Nodup
import Mathlib.Data.List.Perm.Basic
import WifiAdvisor.Document.Schema

/-!
# What a record is read from

Of an object with distinct names a record takes in just what stands under the names of its fields;
of everything else it asks only that it can be passed over. So `ofMembers_eq_ok_iff` describes what
is read without regard to the order of the members, and `decode_object_eq_ok_iff` does the same for
tagged records, where the tag may stand anywhere.
-/
namespace WifiAdvisor.Document

variable {α β : Type}

theorem bind_eq_ok_iff {ε : Type} {x : Except ε α} {f : α → Except ε β} {b : β} :
    (x >>= f) = .ok b ↔ ∃ a, x = .ok a ∧ f a = .ok b := by
  cases x with
  | error e => simp [bind, Except.bind]
  | ok a => simp [bind, Except.bind]

theorem bind_unit_eq_ok_iff {ε : Type} {x : Except ε Unit} {y : Except ε β} {b : β} :
    (x >>= fun _ => y) = .ok b ↔ x = .ok () ∧ y = .ok b := by
  rw [bind_eq_ok_iff]
  exact ⟨fun ⟨_, hx, hy⟩ => ⟨hx, hy⟩, fun ⟨hx, hy⟩ => ⟨(), hx, hy⟩⟩

theorem orUnreadable_eq_ok_iff {x : Except Fault α} {a : α} :
    orUnreadable x = .ok a ↔ x = .ok a := by
  cases x with
  | error why => simp [orUnreadable, unreadable]
  | ok b => simp [orUnreadable]

/-! ### Looking up -/

/-- No two members have one name. -/
def Distinct (ms : List (Name × Value)) : Prop := (ms.map fun m => m.1.text).Nodup

/-- No member has that name. -/
def Lacks (ms : List (Name × Value)) (name : String) : Prop := ∀ m ∈ ms, m.1.text ≠ .ok name

variable {ms ms' : List (Name × Value)} {name : String} {v : Value}

theorem distinct_cons_iff {m : Name × Value} :
    Distinct (m :: ms) ↔ (∀ x ∈ ms, x.1.text ≠ m.1.text) ∧ Distinct ms := by
  rw [Distinct, List.map_cons, List.nodup_cons]
  refine and_congr_left fun _ => ?_
  simp only [List.mem_map, not_exists, not_and]

theorem Name.reads_eq_true_iff (k : Name) (name : String) :
    k.reads name = true ↔ k.text = .ok name := by
  cases k with
  | plain s => simp [reads, text]
  | escaped head s => cases s <;> simp [reads, text]
  | stopped head garbled why => simp [reads, text]
  | unquoted v => simp [reads, text]

theorem Name.reads_eq_false {k : Name} (h : k.text ≠ .ok name) : k.reads name = false := by
  rw [Bool.eq_false_iff]
  intro hk
  exact h ((reads_eq_true_iff k name).1 hk)

theorem lookup_eq_none_iff : lookup name ms = none ↔ Lacks ms name := by
  induction ms with
  | nil => simp [lookup, Lacks]
  | cons m rest ih =>
    rw [Lacks, List.forall_mem_cons, lookup]
    by_cases hm : m.1.text = .ok name
    · rw [if_pos ((m.1.reads_eq_true_iff name).2 hm)]
      simp [hm]
    · have hreads : ¬ m.1.reads name = true := fun h => hm ((m.1.reads_eq_true_iff name).1 h)
      rw [if_neg hreads, ih]
      exact ⟨fun h => ⟨hm, h⟩, fun h => h.2⟩

theorem mem_of_lookup (h : lookup name ms = some v) : ∃ k, (k, v) ∈ ms ∧ k.text = .ok name := by
  induction ms with
  | nil => cases h
  | cons m rest ih =>
    rw [lookup] at h
    split at h
    · rename_i hm
      cases h
      exact ⟨m.1, List.mem_cons_self, (m.1.reads_eq_true_iff name).1 hm⟩
    · obtain ⟨k, hk, htext⟩ := ih h
      exact ⟨k, List.mem_cons_of_mem _ hk, htext⟩

theorem lookup_of_mem (hd : Distinct ms) {k : Name} (hk : (k, v) ∈ ms)
    (htext : k.text = .ok name) : lookup name ms = some v := by
  induction ms with
  | nil => cases hk
  | cons m rest ih =>
    obtain ⟨hfirst, hrest⟩ := distinct_cons_iff.1 hd
    rw [lookup]
    rcases List.mem_cons.1 hk with rfl | hk
    · rw [if_pos ((k.reads_eq_true_iff name).2 htext)]
    · have hne : m.1.text ≠ .ok name := fun hm => hfirst _ hk (htext.trans hm.symm)
      rw [Name.reads_eq_false hne]
      exact ih hrest hk

theorem lookup_eq_some_iff (hd : Distinct ms) :
    lookup name ms = some v ↔ ∃ k, (k, v) ∈ ms ∧ k.text = .ok name := by
  refine ⟨mem_of_lookup, ?_⟩
  rintro ⟨k, hk, htext⟩
  exact lookup_of_mem hd hk htext

theorem Distinct.perm (hd : Distinct ms) (h : ms.Perm ms') : Distinct ms' :=
  (h.map _).nodup_iff.1 hd

theorem lookup_perm (hd : Distinct ms) (h : ms.Perm ms') (name : String) :
    lookup name ms = lookup name ms' := by
  ext v
  rw [lookup_eq_some_iff hd, lookup_eq_some_iff (hd.perm h)]
  simp only [h.mem_iff]

theorem Distinct.cons {k : Name} (hd : Distinct ms) (hk : k.text = .ok name)
    (hfresh : Lacks ms name) : Distinct ((k, v) :: ms) :=
  distinct_cons_iff.2 ⟨fun m hm heq => hfresh m hm (heq.trans hk), hd⟩

theorem lookup_cons_self {k : Name} (hk : k.text = .ok name) :
    lookup name ((k, v) :: ms) = some v := by
  rw [lookup, if_pos ((k.reads_eq_true_iff name).2 hk)]

theorem lookup_cons_of_ne {k : Name} (hk : k.text ≠ .ok name) :
    lookup name ((k, v) :: ms) = lookup name ms := by
  rw [lookup, Name.reads_eq_false hk]
  rfl

/-! ### Values that can be passed over -/

theorem Name.passOver_of_text {k : Name} (h : k.text = .ok name) : k.passOver = .ok () := by
  cases k with
  | stopped head garbled why => cases h
  | unquoted v => cases h
  | _ => rfl

theorem setAsideMembers_eq_ok_iff {room : Nat} :
    setAsideMembers room ms = .ok () ↔
      ∀ m ∈ ms, (∃ n, m.1.text = .ok n) ∧ m.2.setAside room = .ok () := by
  induction ms with
  | nil => simp [setAsideMembers]
  | cons m rest ih =>
    obtain ⟨k, v⟩ := m
    rw [setAsideMembers, bind_eq_ok_iff, List.forall_mem_cons, ← ih]
    simp only [bind_unit_eq_ok_iff, exists_and_right, and_assoc]

theorem Ending.eq_closed_of_check {ending : Ending} (h : ending.check = .ok ()) :
    ending = .closed := by
  cases ending with
  | closed => rfl
  | stopped why => cases h

mutual

/-- Whatever can be set aside can be passed over. -/
theorem Value.passOver_of_setAside {room : Nat} : (v : Value) → v.setAside room = .ok () →
    v.passOver = .ok ()
  | .null, _ | .bool _, _ | .number _, _ | .string _, _ | .datetime _, _ => by simp [Value.passOver]
  | .garbled _, h | .stopped _, h => by simp [Value.setAside] at h
  | .array items ending, h => by
    rw [Value.setAside] at h
    split at h
    · cases h
    · obtain ⟨_, hitems, hending⟩ := bind_eq_ok_iff.1 h
      cases Ending.eq_closed_of_check hending
      rw [Value.passOver, passOverItems_of_setAside items hitems]
      rfl
  | .object members ending, h => by
    rw [Value.setAside] at h
    split at h
    · cases h
    · obtain ⟨_, hmembers, hending⟩ := bind_eq_ok_iff.1 h
      cases Ending.eq_closed_of_check hending
      rw [Value.passOver, passOverMembers_of_setAside members hmembers]
      rfl

theorem passOverItems_of_setAside {room : Nat} : (items : List Value) →
    setAsideItems room items = .ok () → passOverItems items = .ok ()
  | [], _ => rfl
  | v :: rest, h => by
    rw [setAsideItems] at h
    obtain ⟨_, hv, hrest⟩ := bind_eq_ok_iff.1 h
    rw [passOverItems, v.passOver_of_setAside hv]
    exact passOverItems_of_setAside rest hrest

theorem passOverMembers_of_setAside {room : Nat} : (members : List (Name × Value)) →
    setAsideMembers room members = .ok () → passOverMembers members = .ok ()
  | [], _ => rfl
  | (k, v) :: rest, h => by
    rw [setAsideMembers] at h
    obtain ⟨_, hk, h⟩ := bind_eq_ok_iff.1 h
    obtain ⟨_, hv, hrest⟩ := bind_eq_ok_iff.1 h
    rw [passOverMembers, Name.passOver_of_text hk, v.passOver_of_setAside hv]
    exact passOverMembers_of_setAside rest hrest

end

/-! ### Records -/

/-- What a field gets from the member of its name, or from the lack of one. -/
def RecordField.get (f : RecordField β) (source : Source) : Option Value → Except DecodeError β
  | some v => f.decode source v
  | none =>
    match f.absent with
    | some b => .ok b
    | none => .error (.missingField f.name)

namespace Schema

theorem build_field (s : Schema (β → α)) (f : RecordField β) (source : Source)
    (ms : List (Name × Value)) :
    (s.field f).build source ms =
      (s.build source ms >>= fun g => (f.get source (lookup f.name ms)).map g) := by
  simp only [field]
  congr 1
  funext g
  cases lookup f.name ms with
  | some v => cases h : f.decode source v <;> simp [RecordField.get, h, Except.map, bind,
      Except.bind, Pure.pure, Except.pure]
  | none => cases h : f.absent <;> simp [RecordField.get, h, Except.map, Pure.pure, Except.pure,
      throw, throwThe, MonadExceptOf.throw]

/-- The record is put together from what stands under its names alone, and whatever it can be put
together from passes the checks. -/
structure Regular (s : Schema α) : Prop where
  congr : ∀ {source ms ms'}, (∀ n ∈ s.names, lookup n ms = lookup n ms') →
    s.build source ms = s.build source ms'
  check : ∀ {source ms a}, s.build source ms = .ok a →
    ∀ n ∈ s.names, ∀ {v}, lookup n ms = some v → s.check source n v = .ok ()

namespace Regular

theorem pure (a : α) : (Schema.pure a).Regular where
  congr _ := rfl
  check _ _ hn := by cases hn

theorem field {s : Schema (β → α)} (hs : s.Regular) (f : RecordField β) :
    (s.field f).Regular where
  congr {source ms ms'} h := by
    have hbefore : s.build source ms = s.build source ms' :=
      hs.congr fun n hn => h n (List.mem_append_left _ hn)
    have hlast := h f.name (by simp [Schema.field])
    rw [build_field, build_field, hbefore, hlast]
  check {source ms a} h n hn {v} hv := by
    rw [build_field] at h
    obtain ⟨g, hg, h⟩ := bind_eq_ok_iff.1 h
    by_cases hlast : n = f.name
    · rw [← hlast, hv, RecordField.get] at h
      simp only [Schema.field, if_pos hlast]
      cases hd : f.decode source v with
      | ok b => rfl
      | error e => rw [hd] at h; cases h
    · have hbefore : n ∈ s.names := by
        rcases List.mem_append.1 hn with hn | hn
        · exact hn
        · exact (hlast (List.mem_singleton.1 hn)).elim
      simpa only [Schema.field, if_neg hlast] using hs.check hg n hbefore hv

end Regular

/-- A value written first under the name of the last field reaches that field alone. -/
theorem build_last {s : Schema (β → α)} (hs : s.Regular) {f : RecordField β} {k : Name}
    (hk : k.text = .ok f.name) (hfresh : f.name ∉ s.names) {source : Source} {a : α} :
    (s.field f).build source ((k, v) :: ms) = .ok a ↔
      ∃ g, s.build source ms = .ok g ∧ ∃ b, f.decode source v = .ok b ∧ g b = a := by
  have hbefore : s.build source ((k, v) :: ms) = s.build source ms := by
    refine hs.congr fun n hn => lookup_cons_of_ne ?_
    rw [hk]
    rintro ⟨rfl⟩
    exact hfresh hn
  rw [build_field, hbefore, lookup_cons_self hk, RecordField.get, bind_eq_ok_iff]
  refine exists_congr fun g => and_congr_right fun _ => ?_
  cases f.decode source v with
  | error e => simp [Except.map]
  | ok b => simp [Except.map]

/-- Every member has a readable name, and those the record does not know can be passed over. -/
def Admits (s : Schema α) (ms : List (Name × Value)) : Prop :=
  ∀ m ∈ ms, ∃ n, m.1.text = .ok n ∧ (n ∉ s.names → m.2.passOver = .ok ())

variable {s : Schema α} {source : Source}

/-- The scan gets past a member once the given names were seen. -/
def Passes (s : Schema α) (source : Source) (seen : List String) (m : Name × Value) : Prop :=
  ∃ n, m.1.text = .ok n ∧ (n ∈ s.names → n ∉ seen ∧ s.check source n m.2 = .ok ()) ∧
    (n ∉ s.names → m.2.passOver = .ok ())

theorem passes_seen_iff {seen : List String} {m : Name × Value} (h : m.1.text ≠ .ok name) :
    s.Passes source (name :: seen) m ↔ s.Passes source seen m := by
  refine exists_congr fun n => and_congr_right fun htext => ?_
  have hne : n ≠ name := by
    rintro rfl
    exact h htext
  rw [List.mem_cons, not_or, and_iff_right hne]

theorem scan_eq_ok_iff (hd : Distinct ms) (seen : List String) :
    s.scan source seen ms = .ok () ↔ ∀ m ∈ ms, s.Passes source seen m := by
  induction ms generalizing seen with
  | nil => simp [scan]
  | cons m rest ih =>
    obtain ⟨hfirst, hrest⟩ := distinct_cons_iff.1 hd
    obtain ⟨k, v⟩ := m
    rw [List.forall_mem_cons]
    cases hk : k.text with
    | error why => simp [scan, Passes, hk, orUnreadable, unreadable, bind, Except.bind]
    | ok name =>
      by_cases hknown : name ∈ s.names
      · by_cases hseen : name ∈ seen
        · simp [scan, Passes, hk, orUnreadable, hknown, hseen, throw, throwThe,
            MonadExceptOf.throw, bind, Except.bind]
        -- The name is now seen, but among distinct names it does not come again.
        · have hscan : s.scan source seen ((k, v) :: rest) =
              (s.check source name v >>= fun _ => s.scan source (name :: seen) rest) := by
            simp [scan, hk, orUnreadable, hknown, hseen, bind, Except.bind]
          have hpasses : s.Passes source seen (k, v) ↔ s.check source name v = .ok () := by
            simp [Passes, hk, hknown, hseen]
          have hagain : (∀ m ∈ rest, s.Passes source (name :: seen) m) ↔
              ∀ m ∈ rest, s.Passes source seen m :=
            forall₂_congr fun m hm => passes_seen_iff fun h => hfirst m hm (h.trans hk.symm)
          rw [hscan, bind_unit_eq_ok_iff, ih hrest, hagain, hpasses]
      · have hscan : s.scan source seen ((k, v) :: rest) =
            (orUnreadable v.passOver >>= fun _ => s.scan source seen rest) := by
          simp [scan, hk, orUnreadable, hknown, bind, Except.bind]
        have hpasses : s.Passes source seen (k, v) ↔ v.passOver = .ok () := by
          simp [Passes, hk, hknown]
        rw [hscan, bind_unit_eq_ok_iff, orUnreadable_eq_ok_iff, ih hrest, hpasses]

theorem ofMembers_eq_ok_iff (hs : s.Regular) (hd : Distinct ms) {a : α} :
    s.ofMembers source ms .closed = .ok a ↔ s.Admits ms ∧ s.build source ms = .ok a := by
  rw [ofMembers, bind_eq_ok_iff]
  constructor
  · rintro ⟨_, hscan, h⟩
    refine ⟨fun m hm => ?_, h⟩
    obtain ⟨n, hn, -, hpass⟩ := (scan_eq_ok_iff hd []).1 hscan m hm
    exact ⟨n, hn, hpass⟩
  · rintro ⟨hadmits, hbuild⟩
    refine ⟨(), (scan_eq_ok_iff hd []).2 fun m hm => ?_, hbuild⟩
    obtain ⟨n, hn, hpass⟩ := hadmits m hm
    refine ⟨n, hn, fun hknown => ⟨List.not_mem_nil, ?_⟩, hpass⟩
    exact hs.check hbuild n hknown (lookup_of_mem hd hm hn)

end Schema

/-! ### Tagged records -/

namespace Tagged

variable {t : Tagged α} {source : Source}

/-- The member has a readable name and, unless it is the tag, can be set aside. -/
def Spared (m : Name × Value) : Prop :=
  ∃ n, m.1.text = .ok n ∧ (n ≠ "type" → m.2.setAside (bracketRoom - 1) = .ok ())

/-- The members beside the tag. -/
def beside (ms : List (Name × Value)) : List (Name × Value) :=
  ms.filter fun m => !m.1.reads "type"

theorem beside_of_lacks (h : Lacks ms "type") : beside ms = ms := by
  refine List.filter_eq_self.2 fun m hm => ?_
  rw [Name.reads_eq_false (h m hm)]
  rfl

theorem lookup_beside (h : name ≠ "type") : lookup name (beside ms) = lookup name ms := by
  induction ms with
  | nil => rfl
  | cons m rest ih =>
    by_cases hm : m.1.text = .ok "type"
    · have hname : m.1.text ≠ .ok name := by
        rw [hm]
        exact fun heq => h (Except.ok.inj heq).symm
      rw [beside, List.filter_cons_of_neg (by simp [(m.1.reads_eq_true_iff "type").2 hm])]
      exact ih.trans (lookup_cons_of_ne hname).symm
    · rw [beside, List.filter_cons_of_pos (by simp [Name.reads_eq_false hm]), lookup, lookup]
      exact ite_congr rfl (fun _ => rfl) fun _ => ih

theorem exists_string_of_variant {w : Variant α} (h : t.variant source v = .ok w) :
    ∃ s, v = .string s ∧ t.variants.find? (fun w => w.tag = s) = some w := by
  cases v with
  | string s =>
    rw [variant] at h
    cases hfind : t.variants.find? fun w => w.tag = s with
    | none => rw [hfind] at h; cases h
    | some w' =>
      rw [hfind] at h
      exact ⟨s, rfl, hfind.trans (congrArg some (Except.ok.inj h))⟩
  | number n => cases n <;> cases h
  | _ => cases h

theorem mem_of_variant {w : Variant α} (h : t.variant source v = .ok w) : w ∈ t.variants := by
  obtain ⟨s, -, hfind⟩ := exists_string_of_variant h
  exact List.mem_of_find?_eq_some hfind

theorem split_cons_of_ne {k : Name} (hk : k.text ≠ .ok "type") {tag : Option (Variant α)}
    {r : Option (Variant α) × List (Name × Value)} :
    t.split source tag ((k, v) :: ms) = .ok r ↔
      Spared (k, v) ∧ ∃ others, t.split source tag ms = .ok (r.1, others) ∧
        r.2 = (k, v) :: others := by
  cases htext : k.text with
  | error why => simp [split, Spared, htext, orUnreadable, unreadable, bind, Except.bind]
  | ok name =>
    have hne : name ≠ "type" := fun heq => hk (heq ▸ htext)
    have hspared : Spared (k, v) ↔ v.setAside (bracketRoom - 1) = .ok () := by
      simp [Spared, htext, hne]
    have hsplit : t.split source tag ((k, v) :: ms) =
        (orUnreadable (v.setAside (bracketRoom - 1)) >>= fun _ =>
          t.split source tag ms >>= fun r => .ok (r.1, (k, v) :: r.2)) := by
      simp [split, htext, hne, orUnreadable, bind, Except.bind, Pure.pure, Except.pure]
    rw [hsplit, bind_unit_eq_ok_iff, orUnreadable_eq_ok_iff, hspared, bind_eq_ok_iff]
    refine and_congr_right fun _ => ?_
    constructor
    · rintro ⟨⟨tag', others⟩, hrest, h⟩
      cases h
      exact ⟨others, hrest, rfl⟩
    · rintro ⟨others, hrest, h⟩
      exact ⟨(r.1, others), hrest, by rw [← h]⟩

theorem split_of_lacks (h : Lacks ms "type") {tag : Option (Variant α)}
    {r : Option (Variant α) × List (Name × Value)} :
    t.split source tag ms = .ok r ↔ (∀ m ∈ ms, Spared m) ∧ r = (tag, ms) := by
  induction ms generalizing r with
  | nil => simp [split, eq_comm]
  | cons m rest ih =>
    obtain ⟨hm, hrest⟩ := List.forall_mem_cons.1 h
    obtain ⟨k, v⟩ := m
    rw [split_cons_of_ne hm, List.forall_mem_cons, and_assoc]
    simp only [ih hrest, Prod.mk.injEq]
    refine and_congr_right fun _ => ?_
    constructor
    · rintro ⟨others, ⟨hspared, htag, rfl⟩, hothers⟩
      exact ⟨hspared, Prod.ext htag hothers⟩
    · rintro ⟨hspared, rfl⟩
      exact ⟨rest, ⟨hspared, rfl, rfl⟩, rfl⟩

theorem split_eq_ok_iff (hd : Distinct ms) {w : Variant α} {others : List (Name × Value)} :
    t.split source none ms = .ok (some w, others) ↔
      (∀ m ∈ ms, Spared m) ∧ (∃ v, lookup "type" ms = some v ∧ t.variant source v = .ok w) ∧
        others = beside ms := by
  induction ms generalizing others with
  | nil => simp [split, lookup]
  | cons m rest ih =>
    obtain ⟨hfirst, hrest⟩ := distinct_cons_iff.1 hd
    obtain ⟨k, v⟩ := m
    rw [List.forall_mem_cons]
    by_cases hm : k.text = .ok "type"
    · have hlacks : Lacks rest "type" := fun m hmem htext => hfirst m hmem (htext.trans hm.symm)
      have hspared : Spared (k, v) := ⟨"type", hm, fun h => (h rfl).elim⟩
      have hsplit : t.split source none ((k, v) :: rest) =
          (t.variant source v >>= fun tag => t.split source (some tag) rest) := by
        simp [split, hm, orUnreadable, bind, Except.bind]
      have hbeside : beside ((k, v) :: rest) = rest := by
        rw [beside, List.filter_cons_of_neg (by simp [(k.reads_eq_true_iff "type").2 hm])]
        exact beside_of_lacks hlacks
      rw [hsplit, bind_eq_ok_iff, lookup_cons_self hm, hbeside]
      simp only [split_of_lacks hlacks, Prod.mk.injEq, Option.some.injEq, exists_eq_left']
      constructor
      · rintro ⟨_, hv, ha, rfl, ho⟩
        exact ⟨⟨hspared, ha⟩, hv, ho⟩
      · rintro ⟨⟨-, ha⟩, hv, ho⟩
        exact ⟨w, hv, ha, rfl, ho⟩
    · have hbeside : beside ((k, v) :: rest) = (k, v) :: beside rest := by
        rw [beside, List.filter_cons_of_pos (by simp [Name.reads_eq_false hm])]
        rfl
      rw [split_cons_of_ne hm, lookup_cons_of_ne hm, hbeside, and_assoc]
      simp only [ih hrest]
      refine and_congr_right fun _ => ?_
      constructor
      · rintro ⟨others', ⟨ha, hv, rfl⟩, ho⟩
        exact ⟨ha, hv, ho⟩
      · rintro ⟨ha, hv, ho⟩
        exact ⟨beside rest, ⟨ha, hv, rfl⟩, ho⟩

theorem admits_beside {s : Schema α} (h : ∀ m ∈ ms, Spared m) : s.Admits (beside ms) := by
  intro m hm
  obtain ⟨hmem, hreads⟩ := List.mem_filter.1 hm
  obtain ⟨n, htext, hroom⟩ := h m hmem
  refine ⟨n, htext, fun _ => Value.passOver_of_setAside _ (hroom ?_)⟩
  rintro rfl
  simp [(m.1.reads_eq_true_iff "type").2 htext] at hreads

/-- A tag is a string, so with it all members can be set aside. -/
theorem spared_iff_of_variant (hd : Distinct ms) {w : Variant α}
    (hlookup : lookup "type" ms = some v) (hv : t.variant source v = .ok w) :
    (∀ m ∈ ms, Spared m) ↔ setAsideMembers (bracketRoom - 1) ms = .ok () := by
  rw [setAsideMembers_eq_ok_iff]
  refine forall₂_congr fun m hm => ?_
  constructor
  · rintro ⟨n, htext, hroom⟩
    refine ⟨⟨n, htext⟩, ?_⟩
    by_cases hn : n = "type"
    · obtain ⟨s, rfl, -⟩ := exists_string_of_variant hv
      have hm' := lookup_of_mem hd hm (hn ▸ htext)
      rw [Option.some.inj (hm'.symm.trans hlookup)]
      rfl
    · exact hroom hn
  · rintro ⟨⟨n, htext⟩, hroom⟩
    exact ⟨n, htext, fun _ => hroom⟩

/-- A tagged record is read from whatever stands under the tag and under the names of its kind. -/
theorem decode_object_eq_ok_iff (ht : ∀ w ∈ t.variants, w.schema.Regular ∧ "type" ∉ w.schema.names)
    (hd : Distinct ms) {a : α} :
    t.decode source (.object ms) = .ok a ↔ setAsideMembers (bracketRoom - 1) ms = .ok () ∧
      ∃ v w, lookup "type" ms = some v ∧ t.variant source v = .ok w ∧
        w.schema.build .buffer ms = .ok a := by
  have hbeside : Distinct (beside ms) := hd.sublist (List.filter_sublist.map _)
  have hbuild {v : Value} {w : Variant α} (hv : t.variant source v = .ok w) :
      w.schema.build .buffer (beside ms) = w.schema.build .buffer ms := by
    obtain ⟨hregular, htype⟩ := ht w (mem_of_variant hv)
    refine hregular.congr fun n hn => lookup_beside ?_
    rintro rfl
    exact htype hn
  constructor
  · intro h
    obtain ⟨⟨tag, others⟩, hsplit, h⟩ := bind_eq_ok_iff.1 h
    cases tag with
    | none => cases h
    | some w =>
      obtain ⟨hspared, ⟨v, hlookup, hv⟩, rfl⟩ := (split_eq_ok_iff hd).1 hsplit
      have hread := (Schema.ofMembers_eq_ok_iff (ht w (mem_of_variant hv)).1 hbeside).1 h
      refine ⟨(spared_iff_of_variant hd hlookup hv).1 hspared, v, w, hlookup, hv, ?_⟩
      exact (hbuild hv).symm.trans hread.2
  · rintro ⟨haside, v, w, hlookup, hv, h⟩
    have hspared := (spared_iff_of_variant hd hlookup hv).2 haside
    have hsplit := (split_eq_ok_iff hd).2 ⟨hspared, ⟨v, hlookup, hv⟩, rfl⟩
    refine bind_eq_ok_iff.2 ⟨_, hsplit, ?_⟩
    refine (Schema.ofMembers_eq_ok_iff (ht w (mem_of_variant hv)).1 hbeside).2 ?_
    exact ⟨admits_beside hspared, (hbuild hv).trans h⟩

end Tagged

end WifiAdvisor.Document
