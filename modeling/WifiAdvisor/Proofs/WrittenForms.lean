import WifiAdvisor.Forms.Event
import WifiAdvisor.Forms.Metrics
import WifiAdvisor.Forms.Notice
import WifiAdvisor.Proofs.Numerals
import WifiAdvisor.Proofs.ReadBack

/-!
# Decoding undoes encoding

Each type is read back from the form it is written in: its schema names the members that it writes,
and the decoder of every member undoes how that member is written.
-/
namespace WifiAdvisor

open Document
open Document.Decoder
  (bool_gets string_gets named_gets option_gets list_gets map_gets wholeNumber_int)
open Document.Schema (Reads)

/-! ### Words -/

namespace Forms

theorem int32_gets (i : Int32) : Decoder.int32.Gets (int32 i) i := by
  intro source k
  have hlow := i.le_toInt
  have hhigh := i.toInt_lt
  rw [int32, Decoder.int32, wholeNumber_int (by omega) (by omega)]
  simp [Except.map]

theorem uint32_gets (n : UInt32) : Decoder.uint32.Gets (uint32 n) n := by
  intro source k
  have hhigh := n.toNat_lt
  rw [uint32, Value.nat, Decoder.uint32, wholeNumber_int (by omega) (by omega)]
  simp [Except.map]

theorem word_gets (expected : String) (n : UInt64) : (Decoder.word expected).Gets (uint64 n) n := by
  intro source k
  have hhigh := n.toNat_lt
  rw [uint64, Value.nat, Decoder.word, wholeNumber_int (by omega) (by omega)]
  simp [Except.map]

end Forms

open Forms (int32_gets uint32_gets word_gets)

/-! ### Records -/

theorem Candidate.schema_reads (c : Candidate) :
    Candidate.schema.Reads [("ssid", .string c.ssid), ("rssi", Forms.int32 c.rssi),
      ("bssid", .string c.bssid), ("capabilities", .string c.capabilities),
      ("frequency_mhz", Forms.uint32 c.frequencyMhz)] c :=
  (((((Reads.pure _).field (by decide) (string_gets _)).field (by decide) (int32_gets _)).field
    (by decide) (string_gets _)).field (by decide) (string_gets _)).field
    (by decide) (uint32_gets _)

theorem Candidate.decode_gets (c : Candidate) : Candidate.decode.Gets c.toValue c :=
  c.schema_reads.record _

theorem Identity.decode_gets (i : Identity) : Identity.decode.Gets i.toValue i := by
  have hreads : Identity.schema.Reads [("tag", .string i.tag), ("store_key", .string i.storeKey),
      ("settings_key", .string i.settingsKey), ("notification_id", Forms.int32 i.slot),
      ("nominator_id", Forms.int32 i.nominator)] i :=
    (((((Reads.pure _).field (by decide) (string_gets _)).field (by decide) (string_gets _)).field
      (by decide) (string_gets _)).field (by decide) (int32_gets _)).field
      (by decide) (int32_gets _)
  exact hreads.record _

theorem Timing.decode_gets (t : Timing) : Timing.decode.Gets t.toValue t := by
  have hreads : Timing.schema.Reads [("repeat_delay_secs", Forms.uint64 t.repeatDelaySecs),
      ("connecting_timeout_ms", Forms.uint64 t.connectingTimeout),
      ("connected_display_ms", Forms.uint64 t.connectedDisplay),
      ("failed_display_ms", Forms.uint64 t.failedDisplay)] t :=
    ((((Reads.pure _).field (by decide) (word_gets _ _)).field (by decide) (word_gets _ _)).field
      (by decide) (word_gets _ _)).field (by decide) (word_gets _ _)
  exact hreads.record _

theorem NetworkConfig.decode_gets (c : NetworkConfig) : NetworkConfig.decode.Gets c.toValue c := by
  have hreads : NetworkConfig.schema.Reads [("ssid", .string c.ssid),
      ("security", Forms.name c.security)] c :=
    ((Reads.pure _).field (by decide) (string_gets _)).field (by decide) (named_gets _)
  exact hreads.record _

theorem Notice.decode_gets (n : Notice) : Notice.decode.Gets n.toValue n := by
  have hactions : (Decoder.list Decoder.named).Gets (.list Forms.name n.actions) n.actions :=
    list_gets named_gets n.actions
  have hreads : Notice.schema.Reads [("kind", Forms.name n.kind), ("tag", .string n.tag),
      ("title", .string n.title), ("ssid", .option .string n.ssid),
      ("actions", .list Forms.name n.actions),
      ("delete_action", .option Forms.name n.deleteAction)] n :=
    ((((((Reads.pure _).field (by decide) (named_gets _)).field (by decide) (string_gets _)).field
      (by decide) (string_gets _)).field (by decide) (option_gets string_gets _)).field
      (by decide) hactions).field (by decide) (option_gets named_gets _)
  exact hreads.record _

/-! ### Metrics -/

namespace Metrics

theorem byName_gets {κ α : Type} [Ord κ] [Std.TransOrd κ] [Std.LawfulEqOrd κ] [Named κ]
    {d : Decoder α} {write : α → Value} (h : ∀ a, d.Gets (write a) a) (m : SortedMap κ α) :
    (byName d).Gets (Forms.map Named.name write m) m := by
  refine map_gets (fun source x => ?_) h m
  simp [Decoder.nameText, Name.text, orUnreadable, Decoder.ofName, bind, Except.bind]

end Metrics

namespace Forms

theorem numeric_toString (id : Int32) (source : Source) {rest : List Char}
    (hrest : Json.Numeral.Ends rest) :
    numeric Decoder.int32 source rest ((toString id.toInt).toList ++ rest) = .ok id := by
  have hlow := id.le_toInt
  have hhigh := id.toInt_lt
  have hread := Json.Numeral.read_toString (i := id.toInt) ⟨by omega, by omega⟩ hrest
  have hid : Decoder.int32 source (.number (.integer id.toInt)) = .ok id :=
    int32_gets id source .written
  obtain ⟨c, cs, hcs, hc⟩ := Json.Numeral.toString_eq_cons id.toInt
  rw [hcs, List.cons_append] at hread ⊢
  rw [numeric, if_pos hc, hread]
  simp [orUnreadable, hid, bind, Except.bind, pure, Except.pure]

theorem numericName_toString (id : Int32) (source : Source) :
    numericName Decoder.int32 source (.plain (toString id.toInt)) = .ok id := by
  have hwhole := numeric_toString id source Json.Numeral.ends_nil
  rw [List.append_nil] at hwhole
  cases source with
  | stream => exact numeric_toString id .stream Json.Numeral.ends_quote
  | buffer => exact hwhole
  | tree => exact hwhole
  | toml => exact hwhole

end Forms

theorem Metrics.decode_gets (m : Metrics) : Metrics.decode.Gets m.toValue m := by
  have hnotifications : (byName Decoder.uint64).Gets
      (Forms.map Named.name Forms.uint64 m.notifications) m.notifications :=
    byName_gets (word_gets _) _
  have hactions : (byName (byName Decoder.uint64)).Gets
      (Forms.map Named.name (Forms.map Named.name Forms.uint64) m.actions) m.actions :=
    byName_gets (byName_gets (word_gets _)) _
  have hnominators : (Decoder.map (Forms.numericName Decoder.int32) Decoder.int32).Gets
      (Forms.map (fun id => toString id.toInt) Forms.int32 m.nominators) m.nominators :=
    map_gets (fun source id => Forms.numericName_toString id source) int32_gets _
  have hreads : Metrics.schema.Reads [
      ("notifications", Forms.map Named.name Forms.uint64 m.notifications),
      ("actions", Forms.map Named.name (Forms.map Named.name Forms.uint64) m.actions),
      ("recommendation_updates", Forms.uint64 m.recommendationUpdates),
      ("blocklist_size", Forms.uint64 m.blocklistSize),
      ("connect_send_failures", Forms.uint64 m.connectSendFailures),
      ("setting_enabled", .bool m.settingEnabled),
      ("nominators", Forms.map (fun id => toString id.toInt) Forms.int32 m.nominators)] m :=
    (((((((Reads.pure _).field (by decide) hnotifications).field (by decide) hactions).field
      (by decide) (word_gets _ _)).field (by decide) (word_gets _ _)).field
      (by decide) (word_gets _ _)).field (by decide) (bool_gets _)).field (by decide) hnominators
  exact hreads.record _

/-! ### Events -/

theorem Timer.schema_reads (t : Timer) :
    Timer.schema.Reads [("timer", Forms.name t.kind),
      ("generation", Forms.uint64 t.generation)] t :=
  ((Reads.pure _).field (by decide) (named_gets _)).field (by decide) (word_gets _ _)

theorem ActionEvent.schema_reads (e : ActionEvent) :
    ActionEvent.schema.Reads [("tag", .string e.tag), ("action", Forms.name e.action)] e :=
  ((Reads.pure _).field (by decide) (string_gets _)).field (by decide) (named_gets _)

namespace Event

theorem aside_candidates (candidates : List Candidate) :
    (Value.list Candidate.toValue candidates).Aside (Tagged.bracketRoom - 1) := by
  refine Value.aside_list (fun c => ?_) candidates
  refine Value.aside_object c.schema_reads.distinct ?_
  simp only [List.forall_mem_cons]
  exact ⟨Value.aside_string _, Value.aside_int _, Value.aside_string _, Value.aside_string _,
    Value.aside_int _, List.forall_mem_nil _⟩

/-- What stands beside the tag of an event, or behind it in an array. -/
theorem reads (e : Event) : ∃ ms, e.members = plain ms ∧ tagged.Reads e.tag ms e := by
  cases e with
  | scan candidates =>
    have hcandidates := list_gets Candidate.decode_gets candidates
    exact ⟨_, rfl, .field rfl (by decide) hcandidates (aside_candidates candidates)⟩
  | screen on => exact ⟨_, rfl, .field rfl (by decide) (bool_gets on) (Value.aside_bool on)⟩
  | wifiConnected ssid =>
    exact ⟨_, rfl, .field rfl (by decide) (option_gets string_gets ssid)
      (Value.aside_option Value.aside_string ssid)⟩
  | connectionFailure => exact ⟨[], rfl, .unit rfl⟩
  | sendFailed reason =>
    exact ⟨_, rfl, .field rfl (by decide) (int32_gets reason) (Value.aside_int _)⟩
  | action e =>
    refine ⟨_, rfl, ⟨⟨_, rfl, e.schema_reads.map Event.action⟩, by simp, ?_⟩⟩
    simp only [List.forall_mem_cons]
    exact ⟨Value.aside_string _, Value.aside_string _, List.forall_mem_nil _⟩
  | settingChanged => exact ⟨[], rfl, .unit rfl⟩
  | clear resetRepeat =>
    exact ⟨_, rfl, .field rfl (by decide) (bool_gets resetRepeat) (Value.aside_bool _)⟩
  | timer t =>
    refine ⟨_, rfl, ⟨⟨_, rfl, t.schema_reads.map Event.timer⟩, by simp, ?_⟩⟩
    simp only [List.forall_mem_cons]
    exact ⟨Value.aside_string _, Value.aside_int _, List.forall_mem_nil _⟩
  | restored ssids =>
    exact ⟨_, rfl, .field rfl (by decide) (list_gets string_gets ssids)
      (Value.aside_list Value.aside_string ssids)⟩

end Event

/-- Whatever source it comes from, as it was written or kept as a whole: a written value is read
back as what it was written for, an event also from the array of its tag and its fields. -/
theorem decoding_undoes_encoding :
    (∀ e : Event, Event.decode.Gets e.toValue e ∧ Event.decode.Gets e.toArray e) ∧
      (∀ c : Candidate, Candidate.decode.Gets c.toValue c) ∧
      (∀ i : Identity, Identity.decode.Gets i.toValue i) ∧
      (∀ t : Timing, Timing.decode.Gets t.toValue t) ∧
      (∀ m : Metrics, Metrics.decode.Gets m.toValue m) ∧
      (∀ n : Notice, Notice.decode.Gets n.toValue n) ∧
      (∀ c : NetworkConfig, NetworkConfig.decode.Gets c.toValue c) ∧
      (∀ e : ActionEvent, ActionEvent.decode.Gets e.toValue e) ∧
      ∀ t : Timer, Timer.decode.Gets t.toValue t := by
  refine ⟨fun e => ?_, Candidate.decode_gets, Identity.decode_gets, Timing.decode_gets,
    Metrics.decode_gets, Notice.decode_gets, NetworkConfig.decode_gets,
    fun e => e.schema_reads.record _, fun t => t.schema_reads.record _⟩
  obtain ⟨ms, hmembers, hreads⟩ := e.reads
  constructor
  · rw [Event.toValue, hmembers]
    exact hreads.object
  · have hvalues : (plain ms).map Prod.snd = ms.map Prod.snd := List.map_map
    rw [Event.toArray, hmembers, hvalues]
    exact hreads.array

end WifiAdvisor
