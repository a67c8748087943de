import WifiAdvisor.Proofs.Installation
import WifiAdvisor.Proofs.PhaseStep

/-!
# Rejected networks are not recommended again

Only a scan recommends, and never a blocked network. A rejection blocks, and nothing but a
connection to the very network lifts the block, so within a session the store does not matter.
A restart loads what the last save wrote: there the block survives while the store works.
-/
namespace WifiAdvisor

open Effect

namespace Advisor

variable {s : Surroundings} {a : Advisor} {e : Event} {n : Notice} {ssid : String}

/-- A recommendation on display names a network that was not blocked. -/
theorem step_recommends (h : n ∈ notices (a.step s e).2) (hk : n.kind = .recommend) :
    ∃ ssid, n.ssid = some ssid ∧ ssid ∉ a.blocklist := by
  obtain ⟨cs, c, -, -, -, hc, hn⟩ := scan_of_recommendation h hk
  exact ⟨c.ssid, hn, Selection.not_mem_of_recommend? hc⟩

end Advisor

/-- The very network is connected to. -/
def Turn.Connects (ssid : String) : Turn → Prop
  | .event d => d.event = .wifiConnected (some ssid)
  | _ => False

namespace Installation

variable {w : Installation} {t : Turn} {key ssid : String}

/-- The block is in memory and in the store. -/
structure Remembers (key ssid : String) (w : Installation) : Prop where
  own : w.advisor.identity.storeKey = key
  blocked : ssid ∈ w.advisor.blocklist
  stored : ssid ∈ w.store.load key

theorem mem_blocklist_next (h : ssid ∈ w.advisor.blocklist) (hb : ¬ t.Begins)
    (hc : ¬ t.Connects ssid) : ssid ∈ (w.next t).advisor.blocklist := by
  cases t with
  | session o => exact (hb trivial).elim
  | event d => exact Advisor.mem_blocklist_step h hc
  | foreign other set => exact h

theorem remembers_next (h : Remembers key ssid w) (hr : t.Respects key) (hw : t.Works)
    (hc : ¬ t.Connects ssid) : Remembers key ssid (w.next t) := by
  refine ⟨next_key h.own hr, ?_, ?_⟩
  · cases t with
    | session o =>
      have ho : o.identity.storeKey = key := hr
      rw [next, opened_blocklist w.store hw, ho]
      exact h.stored
    | event d => exact Advisor.mem_blocklist_step h.blocked hc
    | foreign other set => exact h.blocked
  · cases t with
    | session o => exact h.stored
    | event d =>
      have hf : d.fault = none := hw
      rcases Advisor.step_saves d.surroundings w.advisor d.event with ⟨-, hs⟩ | ⟨-, hs⟩
      · rw [next, deliver, callsOn, hf, Store.Memory.keep_of_saves hs, h.own,
          Store.Memory.load_save_self]
        exact Advisor.mem_blocklist_step h.blocked hc
      · rw [next, deliver, callsOn, Store.Memory.keep_of_quiet _ hs]
        exact h.stored
    | foreign other set =>
      have ho : key ≠ other := Ne.symm hr
      rw [next, Store.Memory.load_save_of_ne _ ho]
      exact h.stored

theorem remembers_rejection {d : Delivery} (h : w.advisor.identity.storeKey = key)
    (hd : Advisor.Rejects d.surroundings w.advisor d.event ssid) (hf : d.fault = none) :
    Remembers key ssid (w.deliver d) := by
  have hs := hd.saves
  have hm : ssid ∈ w.advisor.blocklist.insert ssid := Blocklist.mem_insert.mpr (.inl rfl)
  refine ⟨next_key (t := .event d) h trivial, ?_, ?_⟩
  · rw [deliver, hs.blocklist]
    exact hm
  · rw [deliver, callsOn, hf, Store.Memory.keep_of_saves hs.saved, h,
      Store.Memory.load_save_self]
    exact hm

theorem mem_blocklist_through (h : ssid ∈ w.advisor.blocklist) {later : List Turn}
    (hb : ∀ t ∈ later, ¬ t.Begins) (hc : ∀ t ∈ later, ¬ t.Connects ssid) :
    ssid ∈ (w.through later).advisor.blocklist := by
  induction later with
  | nil => exact h
  | cons t later ih =>
    obtain ⟨hbt, hbl⟩ := List.forall_mem_cons.mp hb
    obtain ⟨hct, hcl⟩ := List.forall_mem_cons.mp hc
    exact mem_blocklist_next (ih hbl hcl) hbt hct

theorem remembers_through (h : Remembers key ssid w) {later : List Turn}
    (hr : ∀ t ∈ later, t.Respects key) (hw : ∀ t ∈ later, t.Works)
    (hc : ∀ t ∈ later, ¬ t.Connects ssid) : Remembers key ssid (w.through later) := by
  induction later with
  | nil => exact h
  | cons t later ih =>
    obtain ⟨hrt, hrl⟩ := List.forall_mem_cons.mp hr
    obtain ⟨hwt, hwl⟩ := List.forall_mem_cons.mp hw
    obtain ⟨hct, hcl⟩ := List.forall_mem_cons.mp hc
    exact remembers_next (ih hrl hwl hcl) hrt hwt hct

theorem calls_recommend {n : Notice} (h : n ∈ notices (w.calls t)) (hk : n.kind = .recommend) :
    ∃ ssid, n.ssid = some ssid ∧ ssid ∉ w.advisor.blocklist := by
  cases t with
  | session o => cases h
  | event d => exact Advisor.step_recommends h hk
  | foreign other set => cases h

/-- From a rejection on, up to and including whatever happens last, no recommendation names the
network unless it was connected to in between. While no session begins the store may fail at
will; across sessions it has to work from the rejection on. -/
theorem rejected_not_recommended {store : Store.Memory} {o : Opening} {key ssid : String}
    {earlier later : List Turn} {d : Delivery} {last : Turn}
    (hkey : ∀ t ∈ later ++ .event d :: earlier ++ [.session o], t.Respects key)
    (hd : Advisor.Rejects d.surroundings ((opened store o).through earlier).advisor d.event ssid)
    (hc : ∀ t ∈ later, ¬ t.Connects ssid)
    (hstore : (∀ t ∈ later, ¬ t.Begins) ∨ d.fault = none ∧ ∀ t ∈ later, t.Works) :
    ∀ n ∈ notices (((opened store o).through (later ++ .event d :: earlier)).calls last),
      n.kind = .recommend → n.ssid ≠ some ssid := by
  have hown : (opened store o).advisor.identity.storeKey = key := by
    rw [opened_identity]
    exact hkey (.session o) (by simp)
  have hkeyed : ((opened store o).through earlier).advisor.identity.storeKey = key :=
    through_key hown fun t ht => hkey t (by simp [ht])
  have hblocked : ssid ∈
      ((opened store o).through (later ++ .event d :: earlier)).advisor.blocklist := by
    rw [through_append]
    rcases hstore with hb | ⟨hf, hw⟩
    · refine mem_blocklist_through ?_ hb hc
      rw [through, next, deliver, hd.saves.blocklist]
      exact Blocklist.mem_insert.mpr (.inl rfl)
    · exact (remembers_through (remembers_rejection hkeyed hd hf)
        (fun t ht => hkey t (by simp [ht])) hw hc).blocked
  intro n hn hk hs
  obtain ⟨other, ho, hfree⟩ := calls_recommend hn hk
  cases hs.symm.trans ho
  exact hfree hblocked

namespace Cafe

def networks : List Candidate := [.ofSignal "cafe" (-40), .ofSignal "plaza" (-60)]

def recommended : List Turn :=
  [.event (.smooth 20 (.scan networks)), .event (.smooth 10 (.screen true))]

def dismissal : Delivery := .smooth 30 (.action ⟨Identity.openNetworks.tag, .dismiss⟩)

def restarted : List Turn :=
  [.event (.smooth 50 (.screen true)), .session (.smooth .openNetworks)]

/-- The other network has become the stronger one. -/
def lastScan : Turn := .event (.smooth 60 (.scan (.ofSignal "plaza" (-30) :: networks)))

def beforeDismissal : Installation := (opened {} (.smooth .openNetworks)).through recommended

def beforeLastScan : Installation :=
  (opened {} (.smooth .openNetworks)).through (restarted ++ .event dismissal :: recommended)

end Cafe

open Cafe in
theorem rejected_not_recommended_after_restart :
    Advisor.Rejects dismissal.surroundings beforeDismissal.advisor dismissal.event "cafe" ∧
      (notices (beforeLastScan.calls lastScan)).map Notice.ssid = [some "plaza"] ∧
      ∀ n ∈ notices (beforeLastScan.calls lastScan),
        n.kind = .recommend → n.ssid ≠ some "cafe" := by
  have hd : Advisor.Rejects dismissal.surroundings beforeDismissal.advisor dismissal.event
      "cafe" :=
    ⟨.ofSignal "cafe" (-40), by decide +kernel, rfl, .inl (by decide +kernel)⟩
  have hkey : ∀ t ∈ restarted ++ .event dismissal :: recommended ++
      [.session (.smooth .openNetworks)], t.Respects Identity.openNetworks.storeKey := by
    simp [restarted, recommended, Turn.Respects, Opening.smooth]
  have hc : ∀ t ∈ restarted, ¬ t.Connects "cafe" := by
    simp [restarted, Turn.Connects, Delivery.smooth]
  have hw : ∀ t ∈ restarted, t.Works := by
    simp [restarted, Turn.Works, Delivery.smooth, Opening.smooth]
  exact ⟨hd, by decide +kernel, rejected_not_recommended hkey hd hc (.inr ⟨rfl, hw⟩)⟩

end Installation

end WifiAdvisor
