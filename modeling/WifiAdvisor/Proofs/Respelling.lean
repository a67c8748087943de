import Mathlib.Logic.Relation
import WifiAdvisor.Feed.Line
import WifiAdvisor.Proofs.Members

/-!
# However an event is spelled

The members of an event and of its candidates may stand in any order, members with other names may
stand among them, and a field that may be left out may as well be written with its default. Each
such change keeps what is read, step by step, and so does any run of them. Of a foreign member it is
asked that its value is sound and not nested too deep for a text; more cannot be dropped.
-/
namespace WifiAdvisor

open Document

/-! ### Foreign values -/

namespace Document

variable {α β : Type}

mutual

/-- Levels of brackets, one inside the other. -/
def Value.depth : Value → Nat
  | .array items _ => depthOfItems items + 1
  | .object members _ => depthOfMembers members + 1
  | _ => 0

def depthOfItems : List Value → Nat
  | [] => 0
  | v :: rest => max v.depth (depthOfItems rest)

def depthOfMembers : List (Name × Value) → Nat
  | [] => 0
  | (_, v) :: rest => max v.depth (depthOfMembers rest)

end

mutual

/-- Read to its end, with all escapes standing for characters and all numbers in range. -/
def Value.Sound : Value → Prop
  | .stopped _ | .garbled _ | .number .tooLarge => False
  | .array items ending => SoundItems items ∧ ending = .closed
  | .object members ending => SoundMembers members ∧ ending = .closed
  | _ => True

def SoundItems : List Value → Prop
  | [] => True
  | v :: rest => v.Sound ∧ SoundItems rest

def SoundMembers : List (Name × Value) → Prop
  | [] => True
  | (k, v) :: rest => (∃ n, k.text = .ok n) ∧ v.Sound ∧ SoundMembers rest

end

theorem Ending.check_eq_ok_iff {ending : Ending} : ending.check = .ok () ↔ ending = .closed := by
  cases ending with
  | closed => exact iff_of_true rfl rfl
  | stopped why => exact iff_of_false nofun nofun

mutual

theorem Value.setAside_eq_ok_iff {room : Nat} (hroom : 0 < room) : (v : Value) →
    (v.setAside room = .ok () ↔ v.Sound ∧ v.depth < room)
  | .null | .bool _ | .string _ | .datetime _ => by
    simp [Value.setAside, Value.Sound, Value.depth, hroom]
  | .number n => by cases n <;> simp [Value.setAside, Value.Sound, Value.depth, hroom]
  | .garbled _ | .stopped _ => by simp [Value.setAside, Value.Sound]
  | .array items ending => by
    rw [Value.setAside, Value.Sound, Value.depth]
    split
    · simp; omega
    · have hroom : 0 < room - 1 := by omega
      have hitems := setAsideItems_iff_sound hroom items
      rw [bind_unit_eq_ok_iff, hitems, Ending.check_eq_ok_iff]
      have hdepth : depthOfItems items + 1 < room ↔ depthOfItems items < room - 1 := by omega
      tauto
  | .object members ending => by
    rw [Value.setAside, Value.Sound, Value.depth]
    split
    · simp; omega
    · have hroom : 0 < room - 1 := by omega
      have hmembers := setAsideMembers_iff_sound hroom members
      rw [bind_unit_eq_ok_iff, hmembers, Ending.check_eq_ok_iff]
      have hdepth : depthOfMembers members + 1 < room ↔ depthOfMembers members < room - 1 := by
        omega
      tauto

theorem setAsideItems_iff_sound {room : Nat} (hroom : 0 < room) : (items : List Value) →
    (setAsideItems room items = .ok () ↔ SoundItems items ∧ depthOfItems items < room)
  | [] => by simp [setAsideItems, SoundItems, depthOfItems, hroom]
  | v :: rest => by
    rw [setAsideItems, bind_unit_eq_ok_iff, v.setAside_eq_ok_iff hroom,
      setAsideItems_iff_sound hroom rest, SoundItems, depthOfItems, Nat.max_lt]
    tauto

theorem setAsideMembers_iff_sound {room : Nat} (hroom : 0 < room) :
    (members : List (Name × Value)) →
    (setAsideMembers room members = .ok () ↔ SoundMembers members ∧ depthOfMembers members < room)
  | [] => by simp [setAsideMembers, SoundMembers, depthOfMembers, hroom]
  | (k, v) :: rest => by
    rw [setAsideMembers, SoundMembers, depthOfMembers, Nat.max_lt, bind_eq_ok_iff]
    simp only [bind_unit_eq_ok_iff, exists_and_right, v.setAside_eq_ok_iff hroom,
      setAsideMembers_iff_sound hroom rest]
    tauto

end

/-! ### Changes to the members of a record -/

/-- What can be said otherwise in a record. -/
structure Spelling where
  /-- The names that mean something in it. -/
  names : List String
  /-- What may be left out: the names of its fields with their defaults. -/
  omissible : List (String × Value)
  /-- Its foreign members nest less deep than this. -/
  room : Nat
  roomy : 0 < room
  aside : ∀ m ∈ omissible, m.2.setAside room = .ok ()

/-- One change to how the members of a record are written. -/
inductive Spelling.Step (s : Spelling) : List (Name × Value) → List (Name × Value) → Prop
  | permuted {ms ms'} (h : ms.Perm ms') : Step s ms ms'
  | extended {ms k name v} (hk : k.text = .ok name) (hfresh : Lacks ms name)
      (hforeign : name ∉ s.names) (hsound : v.Sound) (hdepth : v.depth < s.room) :
      Step s ms ((k, v) :: ms)
  | spelled {ms k name v} (hk : k.text = .ok name) (hfresh : Lacks ms name)
      (hv : (name, v) ∈ s.omissible) : Step s ms ((k, v) :: ms)

namespace Schema

/-- A record reads the value as it reads the lack of the name. -/
def Fills (s : Schema α) (source : Source) (name : String) (v : Value) : Prop :=
  ∀ k ms, k.text = .ok name → Lacks ms name → s.build source ((k, v) :: ms) = s.build source ms

namespace Fills

variable {source : Source} {name : String} {v : Value}

theorem pure (a : α) : (Schema.pure a).Fills source name v := fun _ _ _ _ => rfl

variable {s : Schema (β → α)} {f : RecordField β}

theorem other (hs : s.Fills source name v) (hf : f.name ≠ name) :
    (s.field f).Fills source name v := by
  intro k ms hk hfresh
  have hlookup : lookup f.name ((k, v) :: ms) = lookup f.name ms :=
    lookup_cons_of_ne fun h => hf (Except.ok.inj (h.symm.trans hk))
  rw [build_field, build_field, hs k ms hk hfresh, hlookup]

theorem default (hs : s.Fills source f.name v) (hf : f.get source (some v) = f.get source none) :
    (s.field f).Fills source f.name v := by
  intro k ms hk hfresh
  rw [build_field, build_field, hs k ms hk hfresh, lookup_cons_self hk,
    lookup_eq_none_iff.2 hfresh, hf]

end Fills

/-- Whatever the record is put together from, it has that property. -/
def Makes (s : Schema α) (P : α → Prop) : Prop :=
  ∀ source ms a, s.build source ms = .ok a → P a

theorem Makes.pure {a : α} {P : α → Prop} (h : P a) : (Schema.pure a).Makes P := by
  intro source ms b hb
  exact Except.ok.inj hb ▸ h

theorem Makes.field {s : Schema (β → α)} {P : α → Prop} (h : s.Makes fun g => ∀ b, P (g b))
    {f : RecordField β} : (s.field f).Makes P := by
  intro source ms a ha
  rw [build_field] at ha
  obtain ⟨g, hg, ha⟩ := bind_eq_ok_iff.1 ha
  cases hb : f.get source (lookup f.name ms) with
  | error e => rw [hb] at ha; cases ha
  | ok b =>
    rw [hb] at ha
    exact Except.ok.inj ha ▸ h _ _ g hg b

end Schema

namespace Spelling

variable {s : Spelling} {ms ms' : List (Name × Value)}

theorem Step.distinct_iff (h : s.Step ms ms') : Distinct ms ↔ Distinct ms' := by
  cases h with
  | permuted h => exact ⟨fun hd => hd.perm h, fun hd => hd.perm h.symm⟩
  | extended hk hfresh => exact ⟨fun hd => hd.cons hk hfresh, fun hd => (distinct_cons_iff.1 hd).2⟩
  | spelled hk hfresh => exact ⟨fun hd => hd.cons hk hfresh, fun hd => (distinct_cons_iff.1 hd).2⟩

theorem Step.setAside_iff (h : s.Step ms ms') :
    setAsideMembers s.room ms = .ok () ↔ setAsideMembers s.room ms' = .ok () := by
  rw [setAsideMembers_eq_ok_iff, setAsideMembers_eq_ok_iff]
  cases h with
  | permuted h => simp only [h.mem_iff]
  | extended hk _ _ hsound hdepth =>
    have hv := (Value.setAside_eq_ok_iff s.roomy _).2 ⟨hsound, hdepth⟩
    rw [List.forall_mem_cons]
    exact (and_iff_right ⟨⟨_, hk⟩, hv⟩).symm
  | spelled hk _ hv =>
    rw [List.forall_mem_cons]
    exact (and_iff_right ⟨⟨_, hk⟩, s.aside _ hv⟩).symm

/-- The spelling says what the record is read from. -/
structure Suits (s : Spelling) (schema : Schema α) : Prop where
  regular : schema.Regular
  names : ∀ n ∈ schema.names, n ∈ s.names
  fills : ∀ m ∈ s.omissible, schema.Fills .buffer m.1 m.2

theorem Suits.build_eq {schema : Schema α} (hs : s.Suits schema) (hd : Distinct ms)
    (h : s.Step ms ms') : schema.build .buffer ms = schema.build .buffer ms' := by
  cases h with
  | permuted h => exact hs.regular.congr fun n _ => lookup_perm hd h n
  | extended hk _ hforeign =>
    refine hs.regular.congr fun n hn => (lookup_cons_of_ne fun h => ?_).symm
    cases Except.ok.inj (hk.symm.trans h)
    exact hforeign (hs.names _ hn)
  | spelled hk hfresh hv => exact (hs.fills _ hv _ _ hk hfresh).symm

end Spelling

end Document

/-! ### Candidates -/

namespace Candidate

def spelling : Spelling where
  names := ["ssid", "rssi", "bssid", "capabilities", "frequency_mhz"]
  omissible := [("bssid", .string ""), ("capabilities", .string ""), ("frequency_mhz", .int 0)]
  room := 125
  roomy := by decide
  aside := by simp [Value.setAside, Value.int]

/-- A candidate as it is, or with one change to its members. -/
inductive Respelt : Value → Value → Prop
  | same (v : Value) : Respelt v v
  | changed {ms ms'} (hd : Distinct ms) (h : spelling.Step ms ms') :
      Respelt (.object ms) (.object ms')

theorem spelling_suits : spelling.Suits schema where
  regular := (((((Schema.Regular.pure _).field _).field _).field _).field _).field _
  names _ hn := hn
  fills := by
    refine List.forall_mem_cons.2 ⟨?_, List.forall_mem_cons.2 ⟨?_, List.forall_mem_singleton.2 ?_⟩⟩
    · exact (((((Schema.Fills.pure _).other (by decide)).other (by decide)).default rfl).other
        (by decide)).other (by decide)
    · exact (((((Schema.Fills.pure _).other (by decide)).other (by decide)).other
        (by decide)).default rfl).other (by decide)
    · exact (((((Schema.Fills.pure _).other (by decide)).other (by decide)).other
        (by decide)).other (by decide)).default rfl

theorem setAside_object (ms : List (Name × Value)) :
    (Value.object ms).setAside 126 = .ok () ↔ setAsideMembers spelling.room ms = .ok () := by
  rw [Value.setAside, if_neg (by decide), bind_unit_eq_ok_iff]
  exact and_iff_left rfl

theorem decode_object {ms : List (Name × Value)} (hd : Distinct ms)
    (ha : setAsideMembers spelling.room ms = .ok ()) {c : Candidate} :
    decode .buffer (.object ms) = .ok c ↔ schema.build .buffer ms = .ok c := by
  refine (Schema.ofMembers_eq_ok_iff spelling_suits.regular hd).trans (and_iff_right ?_)
  intro m hm
  obtain ⟨⟨n, hn⟩, hv⟩ := setAsideMembers_eq_ok_iff.1 ha m hm
  exact ⟨n, hn, fun _ => Value.passOver_of_setAside _ hv⟩

variable {v v' : Value} {items items' : List Value}

theorem Respelt.setAside_iff (h : Respelt v v') :
    v.setAside 126 = .ok () ↔ v'.setAside 126 = .ok () := by
  cases h with
  | same v => rfl
  | changed hd h => rw [setAside_object, setAside_object, h.setAside_iff]

theorem Respelt.decode_iff (h : Respelt v v') (ha : v.setAside 126 = .ok ()) {c : Candidate} :
    decode .buffer v = .ok c ↔ decode .buffer v' = .ok c := by
  cases h with
  | same v => rfl
  | changed hd h =>
    have ha := (setAside_object _).1 ha
    rw [decode_object hd ha, decode_object (h.distinct_iff.1 hd) (h.setAside_iff.1 ha),
      spelling_suits.build_eq hd h]

theorem setAside_items_iff (h : List.Forall₂ Respelt items items') :
    setAsideItems 126 items = .ok () ↔ setAsideItems 126 items' = .ok () := by
  induction h with
  | nil => rfl
  | cons hv _ ih =>
    rw [setAsideItems, setAsideItems, bind_unit_eq_ok_iff, bind_unit_eq_ok_iff, hv.setAside_iff, ih]

theorem decode_items_iff (h : List.Forall₂ Respelt items items')
    (ha : setAsideItems 126 items = .ok ()) {cs : List Candidate} :
    Decoder.items decode .buffer items = .ok cs ↔ Decoder.items decode .buffer items' = .ok cs := by
  induction h generalizing cs with
  | nil => rfl
  | cons hv _ ih =>
    rw [setAsideItems, bind_unit_eq_ok_iff] at ha
    simp only [Decoder.items, bind_eq_ok_iff, hv.decode_iff ha.1, ih ha.2]

theorem decode_list_iff (h : List.Forall₂ Respelt items items')
    (ha : setAsideItems 126 items = .ok ()) {cs : List Candidate} :
    decode.list .buffer (.array items) = .ok cs ↔ decode.list .buffer (.array items') = .ok cs := by
  simp only [Decoder.list, bind_eq_ok_iff, decode_items_iff h ha]

end Candidate

/-! ### Events -/

namespace Feed

namespace Event

/-- The names of the fields of its kind. -/
def fields : Event → List String
  | .scan _ _ => ["tag", "candidates"]
  | .screen _ => ["on"]
  | .wifiConnected _ => ["ssid"]
  | .connectionFailure => []
  | .sendFailed _ _ => ["tag", "reason"]
  | .action _ _ => ["tag", "action"]
  | .setting _ _ => ["key", "enabled"]
  | .clear _ => ["reset_repeat_time"]
  | .sleep _ => ["ms"]
  | .dump => []

/-- What may be left out where its kind is written. -/
def omissible : Event → List (String × Value)
  | .scan _ _ | .action _ _ => [("tag", .null)]
  | .wifiConnected _ => [("ssid", .null)]
  | .sendFailed _ _ => [("tag", .null), ("reason", .int 0)]
  | .clear _ => [("reset_repeat_time", .bool false)]
  | _ => []

theorem aside_of_omissible (e : Event) : ∀ m ∈ e.omissible, m.2.setAside 127 = .ok () := by
  cases e <;> simp [omissible, Value.setAside, Value.int]

def spelling (e : Event) : Spelling where
  names := "type" :: e.fields
  omissible := e.omissible
  room := 127
  roomy := by decide
  aside := e.aside_of_omissible

/-- One change to how an event is written: to its own members, or to those of candidates. -/
inductive Change (e : Event) : List (Name × Value) → List (Name × Value) → Prop
  | members {ms ms'} (h : e.spelling.Step ms ms') : Change e ms ms'
  | candidates {k items items' ms} (hk : k.text = .ok "candidates")
      (h : List.Forall₂ Candidate.Respelt items items') :
      Change e ((k, .array items) :: ms) ((k, .array items') :: ms)

/-- Another spelling of the event, reached by any number of changes made or taken back. -/
def Respelt (e : Event) : List (Name × Value) → List (Name × Value) → Prop :=
  Relation.EqvGen e.Change

theorem variants_regular : ∀ w ∈ tagged.variants, w.schema.Regular := by
  have regular {α β : Type} (make : β → α) (f : RecordField β) :
      ((Schema.pure make).field f).Regular := (Schema.Regular.pure _).field _
  have regular₂ {α β γ : Type} (make : β → γ → α) (f : RecordField β) (g : RecordField γ) :
      (((Schema.pure make).field f).field g).Regular := (regular _ _).field _
  simp only [tagged, List.forall_mem_cons, regular, regular₂, Schema.Regular.pure, true_and]
  exact List.forall_mem_nil _

theorem variants_untagged : ∀ w ∈ tagged.variants, "type" ∉ w.schema.names := by
  decide

/-- What is left out of an event is read as its default, and its names are those of its kind. -/
theorem variants_make : ∀ w ∈ tagged.variants, w.schema.Makes fun e =>
    w.schema.names = e.fields ∧ ∀ m ∈ e.omissible, w.schema.Fills .buffer m.1 m.2 := by
  simp only [tagged, List.forall_mem_cons]
  refine ⟨?scan, ?screen, ?wifiConnected, ?connectionFailure, ?sendFailed, ?action, ?setting,
    ?clear, ?sleep, ?dump, List.forall_mem_nil _⟩
  case scan =>
    refine .field (.field (.pure fun _ _ => ⟨rfl, List.forall_mem_singleton.2 ?_⟩))
    exact ((Schema.Fills.pure _).default rfl).other (by decide)
  case screen => exact .field (.pure fun _ => ⟨rfl, List.forall_mem_nil _⟩)
  case wifiConnected =>
    refine .field (.pure fun _ => ⟨rfl, List.forall_mem_singleton.2 ?_⟩)
    exact (Schema.Fills.pure _).default rfl
  case connectionFailure => exact .pure ⟨rfl, List.forall_mem_nil _⟩
  case sendFailed =>
    refine .field (.field (.pure fun _ _ => ⟨rfl, List.forall_mem_cons.2 ⟨?_,
      List.forall_mem_singleton.2 ?_⟩⟩))
    · exact ((Schema.Fills.pure _).default rfl).other (by decide)
    · exact ((Schema.Fills.pure _).other (by decide)).default rfl
  case action =>
    refine .field (.field (.pure fun _ _ => ⟨rfl, List.forall_mem_singleton.2 ?_⟩))
    exact ((Schema.Fills.pure _).default rfl).other (by decide)
  case setting => exact .field (.field (.pure fun _ _ => ⟨rfl, List.forall_mem_nil _⟩))
  case clear =>
    refine .field (.pure fun _ => ⟨rfl, List.forall_mem_singleton.2 ?_⟩)
    exact (Schema.Fills.pure _).default rfl
  case sleep => exact .field (.pure fun _ => ⟨rfl, List.forall_mem_nil _⟩)
  case dump => exact .pure ⟨rfl, List.forall_mem_nil _⟩

theorem spelling_suits {w : Variant Event} (hw : w ∈ tagged.variants) {e : Event}
    {ms : List (Name × Value)} (h : w.schema.build .buffer ms = .ok e) :
    e.spelling.Suits w.schema where
  regular := variants_regular w hw
  names _ hn := List.mem_cons_of_mem _ ((variants_make w hw _ _ _ h).1 ▸ hn)
  fills := (variants_make w hw _ _ _ h).2

theorem decode_eq_ok_iff {ms : List (Name × Value)} (hd : Distinct ms) {e : Event} :
    decode .stream (.object ms) = .ok e ↔ setAsideMembers 127 ms = .ok () ∧
      ∃ v w, lookup "type" ms = some v ∧ tagged.variant .stream v = .ok w ∧
        w.schema.build .buffer ms = .ok e :=
  Tagged.decode_object_eq_ok_iff (fun w hw => ⟨variants_regular w hw, variants_untagged w hw⟩) hd

variable {e : Event} {ms ms' : List (Name × Value)}

theorem type_not_omissible (e : Event) : ∀ m ∈ e.omissible, m.1 ≠ "type" := by
  cases e <;> simp [omissible]

theorem lookup_type_of_step (hd : Distinct ms) (h : e.spelling.Step ms ms') :
    lookup "type" ms = lookup "type" ms' := by
  have cons {k : Name} {name : String} {v : Value} (hk : k.text = .ok name)
      (hname : name ≠ "type") : lookup "type" ms = lookup "type" ((k, v) :: ms) :=
    (lookup_cons_of_ne fun h => hname (Except.ok.inj (hk.symm.trans h))).symm
  cases h with
  | permuted h => exact lookup_perm hd h "type"
  | extended hk _ hforeign => exact cons hk fun h => hforeign (h ▸ List.mem_cons_self)
  | spelled hk _ hv => exact cons hk (type_not_omissible e _ hv)

theorem lookup_type_of_candidates {k : Name} (hk : k.text = .ok "candidates") (v : Value) :
    lookup "type" ((k, v) :: ms) = lookup "type" ms := by
  refine lookup_cons_of_ne ?_
  rw [hk]
  decide

/-- Only scans know candidates. -/
theorem variant_of_candidates : ∀ w ∈ tagged.variants, "candidates" ∈ w.schema.names →
    ∃ s : Schema (List Candidate → Event), s.Regular ∧ "candidates" ∉ s.names ∧
      w.schema = s.field (.required "candidates" Candidate.decode.list) := by
  simp only [tagged, List.forall_mem_cons]
  refine ⟨fun _ => ?scan, ?_⟩
  case scan => exact ⟨_, (Schema.Regular.pure _).field _, by decide, rfl⟩
  simp [Schema.field, Schema.pure, RecordField.required, RecordField.defaulting, tagged.tag]

theorem setAside_candidates_iff {k : Name} (hk : k.text = .ok "candidates") {items : List Value} :
    setAsideMembers 127 ((k, .array items) :: ms) = .ok () ↔
      setAsideItems 126 items = .ok () ∧ setAsideMembers 127 ms = .ok () := by
  have harray : (Value.array items).setAside 127 = .ok () ↔ setAsideItems 126 items = .ok () := by
    rw [Value.setAside, if_neg (by decide), bind_unit_eq_ok_iff]
    exact and_iff_left rfl
  rw [setAsideMembers, hk, bind_eq_ok_iff]
  simp only [bind_unit_eq_ok_iff, Except.ok.injEq, exists_eq_left', harray]

theorem build_candidates_iff {w : Variant Event} (hw : w ∈ tagged.variants) {k : Name}
    (hk : k.text = .ok "candidates") {items items' : List Value}
    (h : List.Forall₂ Candidate.Respelt items items') (ha : setAsideItems 126 items = .ok ()) :
    w.schema.build .buffer ((k, .array items) :: ms) = .ok e ↔
      w.schema.build .buffer ((k, .array items') :: ms) = .ok e := by
  by_cases hknown : "candidates" ∈ w.schema.names
  · obtain ⟨s, hs, hfresh, hschema⟩ := variant_of_candidates w hw hknown
    rw [hschema, Schema.build_last hs hk hfresh, Schema.build_last hs hk hfresh]
    have hlist (cs : List Candidate) : Candidate.decode.list .buffer (.array items) = .ok cs ↔
        Candidate.decode.list .buffer (.array items') = .ok cs := Candidate.decode_list_iff h ha
    simp only [RecordField.required, hlist]
  · rw [(variants_regular w hw).congr fun n hn => ?_]
    have hne : k.text ≠ .ok n := by
      rw [hk]
      rintro ⟨rfl⟩
      exact hknown hn
    rw [lookup_cons_of_ne hne, lookup_cons_of_ne hne]

theorem Change.distinct_iff (h : e.Change ms ms') : Distinct ms ↔ Distinct ms' := by
  cases h with
  | members h => exact h.distinct_iff
  | candidates hk h => exact Iff.rfl

theorem Change.decode_iff (h : e.Change ms ms') (hd : Distinct ms) :
    decode .stream (.object ms) = .ok e ↔ decode .stream (.object ms') = .ok e := by
  rw [decode_eq_ok_iff hd, decode_eq_ok_iff (h.distinct_iff.1 hd)]
  cases h with
  | members h =>
    have haside : setAsideMembers 127 ms = .ok () ↔ setAsideMembers 127 ms' = .ok () :=
      h.setAside_iff
    rw [haside, lookup_type_of_step hd h]
    refine and_congr_right fun _ => exists₂_congr fun v w => and_congr_right fun _ =>
      and_congr_right fun hv => ?_
    have hw := Tagged.mem_of_variant hv
    constructor
    · intro hbuild
      rw [← (spelling_suits hw hbuild).build_eq hd h, hbuild]
    · intro hbuild
      rw [(spelling_suits hw hbuild).build_eq hd h, hbuild]
  | candidates hk h =>
    rw [setAside_candidates_iff hk, setAside_candidates_iff hk, lookup_type_of_candidates hk,
      lookup_type_of_candidates hk, ← Candidate.setAside_items_iff h]
    refine and_congr_right fun ha => exists₂_congr fun v w => and_congr_right fun _ =>
      and_congr_right fun hv => ?_
    exact build_candidates_iff (Tagged.mem_of_variant hv) hk h ha.1

theorem Respelt.distinct_iff (h : e.Respelt ms ms') : Distinct ms ↔ Distinct ms' := by
  induction h with
  | rel ms ms' h => exact h.distinct_iff
  | refl ms => exact Iff.rfl
  | symm ms ms' _ ih => exact ih.symm
  | trans ms mid ms' _ _ ih ih' => exact ih.trans ih'

/-- An event is read from every spelling of it, or from none. -/
theorem Respelt.decode_iff (h : e.Respelt ms ms') (hd : Distinct ms) :
    decode .stream (.object ms) = .ok e ↔ decode .stream (.object ms') = .ok e := by
  induction h with
  | rel ms ms' h => exact h.decode_iff hd
  | refl ms => exact Iff.rfl
  | symm ms ms' h ih => exact (ih ((Respelt.distinct_iff h).2 hd)).symm
  | trans ms mid ms' h _ ih ih' => exact (ih hd).trans (ih' ((Respelt.distinct_iff h).1 hd))

end Event

/-! ### Lines -/

/-- The line holds an object with these members and nothing else. -/
def Spells (line : String) (ms : List (Name × Value)) : Prop :=
  ∃ rest, Json.readPrefix (Text.trim line.toList) = (.object ms, some rest) ∧
    Json.skipSpace rest = []

theorem Spells.parseLine_iff {line : String} {ms : List (Name × Value)} (h : Spells line ms)
    {e : Event} : parseLine line = .ok (some e) ↔ Event.decode .stream (.object ms) = .ok e := by
  obtain ⟨rest, hread, hrest⟩ := h
  have hdecode : Json.decode Event.decode (String.ofList (Text.trim line.toList)) =
      Event.decode .stream (.object ms) := by
    rw [Json.decode, String.toList_ofList, hread]
    simp only [Option.map_some, hrest]
    cases Event.decode .stream (.object ms) <;> rfl
  rw [parseLine]
  split
  · rename_i hline
    rw [hline] at hread
    cases hread
  · rename_i hline
    rw [hline] at hread
    cases hread
  · rw [hdecode]
    cases Event.decode .stream (.object ms) <;> simp [Except.map]

/-- However an event is spelled, its object and the lines that hold it read as the same event. -/
theorem event_read_however_spelled {e : Event} {ms ms' : List (Name × Value)} (hd : Distinct ms)
    (h : e.Respelt ms ms') :
    (Event.decode .stream (.object ms) = .ok e ↔ Event.decode .stream (.object ms') = .ok e) ∧
      ∀ line line', Spells line ms → Spells line' ms' →
        (parseLine line = .ok (some e) ↔ parseLine line' = .ok (some e)) := by
  have hdecode := h.decode_iff hd
  refine ⟨hdecode, fun line line' hline hline' => ?_⟩
  rw [hline.parseLine_iff, hline'.parseLine_iff, hdecode]

/-- Beside what an event is read from stand sound values alone, nested less deep than 127. -/
theorem sound_of_decode {e : Event} {ms : List (Name × Value)} (hd : Distinct ms)
    (h : Event.decode .stream (.object ms) = .ok e) : ∀ m ∈ ms, m.2.Sound ∧ m.2.depth < 127 := by
  intro m hm
  have haside := setAsideMembers_eq_ok_iff.1 ((Event.decode_eq_ok_iff hd).1 h).1 m hm
  exact (Value.setAside_eq_ok_iff (by decide) _).1 haside.2

namespace Tower

/-- Arrays, one inside the other. -/
def nested : Nat → Value
  | 0 => .array []
  | n + 1 => .array [nested n]

/-- A number beyond doubles or too many brackets, and the member is not merely ignored. -/
theorem foreign_member_spoils_event :
    parseLine "\x7b\"type\":\"dump\"\x7d" = .ok (some .dump) ∧
      parseLine "\x7b\"type\":\"dump\",\"note\":1e400\x7d" = .error (.unreadable .malformed) ∧
      Event.decode .stream (.object [("type", .string "dump")]) = .ok .dump ∧
      Event.decode .stream (.object [("type", .string "dump"), ("note", nested 126)]) =
        .error (.unreadable .malformed) := by
  decide +kernel

end Tower

namespace Kiosk

def scan : Event := .scan none [⟨"kiosk", -40, "", "", 0⟩]

def kind : Name × Value := ("type", .string "scan_results")

def note : Name × Value := ("note", .array [.int 1])

def untagged : Name × Value := ("tag", .null)

def ssid : Name × Value := ("ssid", .string "kiosk")

def rssi : Name × Value := ("rssi", .int (-40))

def bssid : Name × Value := ("bssid", .string "")

def candidates (members : List (Name × Value)) : Name × Value :=
  ("candidates", .array [.object members])

def short : List (Name × Value) := [kind, candidates [ssid, rssi]]

def long : List (Name × Value) := [note, untagged, candidates [rssi, bssid, ssid], kind]

def shortLine : String :=
  "\x7b\"type\":\"scan_results\",\"candidates\":[\x7b\"ssid\":\"kiosk\",\"rssi\":-40\x7d]\x7d"

def longLine : String :=
  "\x7b\"note\":[1],\"tag\":null,\"candidates\":[\x7b\"rssi\":-40,\"bssid\":\"\"," ++
    "\"ssid\":\"kiosk\"\x7d],\"type\":\"scan_results\"\x7d"

theorem short_distinct : Distinct short := by
  simp [Distinct, short, kind, candidates, Name.text]

theorem long_respelt : scan.Respelt short long := by
  have tagged : scan.Change short (untagged :: short) :=
    .members (.spelled rfl (by simp [Lacks, short, kind, candidates, Name.text])
      List.mem_cons_self)
  have noted : scan.Change (untagged :: short) (note :: untagged :: short) :=
    .members (.extended rfl (by simp [Lacks, untagged, short, kind, candidates, Name.text])
      (by decide) (by simp [Value.Sound, SoundItems, Value.int]) (by decide))
  have raised : scan.Change (note :: untagged :: short)
      (candidates [ssid, rssi] :: [note, untagged, kind]) :=
    .members (.permuted (List.perm_append_singleton _ [note, untagged, kind]))
  have spelled : scan.Change (candidates [ssid, rssi] :: [note, untagged, kind])
      (candidates [bssid, ssid, rssi] :: [note, untagged, kind]) := by
    refine .candidates rfl (.cons (.changed ?_ (.spelled rfl ?_ List.mem_cons_self)) .nil)
    · simp [Distinct, ssid, rssi, Name.text]
    · simp [Lacks, ssid, rssi, Name.text]
  have shuffled : scan.Change (candidates [bssid, ssid, rssi] :: [note, untagged, kind])
      (candidates [rssi, bssid, ssid] :: [note, untagged, kind]) := by
    refine .candidates rfl (.cons (.changed ?_ (.permuted ?_)) .nil)
    · simp [Distinct, bssid, ssid, rssi, Name.text]
    · exact List.perm_append_singleton _ [bssid, ssid]
  have lowered : scan.Change (candidates [rssi, bssid, ssid] :: [note, untagged, kind]) long :=
    .members (.permuted ((List.Perm.swap _ _ _).trans ((List.Perm.swap _ _ _).cons _)))
  exact (((((Relation.EqvGen.rel _ _ tagged).trans _ _ _ (.rel _ _ noted)).trans _ _ _
    (.rel _ _ raised)).trans _ _ _ (.rel _ _ spelled)).trans _ _ _ (.rel _ _ shuffled)).trans _ _ _
    (.rel _ _ lowered)

theorem scan_read_however_spelled :
    parseLine shortLine = .ok (some scan) ∧ parseLine longLine = .ok (some scan) := by
  have hshort : Spells shortLine short := ⟨[], by cbv, by cbv⟩
  have hlong : Spells longLine long := ⟨[], by cbv, by cbv⟩
  have hread : Event.decode .stream (.object short) = .ok scan := by decide +kernel
  have hagree := event_read_however_spelled short_distinct long_respelt
  have hline := hshort.parseLine_iff.2 hread
  exact ⟨hline, (hagree.2 _ _ hshort hlong).1 hline⟩

end Kiosk

end Feed

end WifiAdvisor
