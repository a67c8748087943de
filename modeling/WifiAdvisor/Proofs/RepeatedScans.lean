import WifiAdvisor.Proofs.Persistence
import WifiAdvisor.Proofs.PhaseStep
import WifiAdvisor.Proofs.Strongest

/-!
# Scans that come in again

A scan brings the advisor into a state in which the same scan changes nothing and makes no call:
what it cleared stays cleared, what it recommended is held by then, and what it left alone it leaves
alone once more. So it does not matter how often a scan is delivered.
-/
namespace WifiAdvisor

/-! ### The second time -/

namespace Advisor

variable {s : Surroundings} {a : Advisor} {cs : List Candidate} {c held : Candidate}

@[simp] theorem clear_admission (a : Advisor) (r : Bool) :
    (a.clear r).1.admission = a.admission := by
  cases r <;> cases hp : a.phase <;> simp [clear, hp]

theorem clear_again (a : Advisor) (r : Bool) : (a.clear r).1.clear r = ((a.clear r).1, []) := by
  cases r <;> cases hp : a.phase <;> simp [clear, hp]

theorem onScan_of_refused (hen : a.admission.isEnabled s.restrictions = false)
    (cs : List Candidate) : a.onScan s cs = a.clear true := by
  simp [onScan, hen]

/-- In idle a scan that recommends nothing is not acted on, whether or not it is due. -/
theorem onScan_of_unrecommended (hen : a.admission.isEnabled s.restrictions = true)
    (hp : a.phase = .idle) (hc : Selection.recommend? cs a.blocklist = none) :
    a.onScan s cs = (a, []) := by
  by_cases hw : s.now < a.repeatAt ∨ a.admission.screenOn = false
  · simp [onScan, hen, hp, hw]
  · simp [onScan, hen, hp, hw, hc, clear]

/-- Nor is one that recommends the network already held, by whatever record. -/
theorem onScan_of_held (hen : a.admission.isEnabled s.restrictions = true)
    (hp : a.phase = .recommending held) (hc : Selection.recommend? cs a.blocklist = some c)
    (hs : held.ssid = c.ssid) : a.onScan s cs = (a, []) := by
  have hscan : a.onScan s cs = a.propose s c := by simp [onScan, hen, hp, hc]
  rw [hscan]
  exact propose_same s hp hs

/-- A proposal that is made at all leaves the advisor holding what was proposed. -/
theorem propose_holds (s : Surroundings) (a : Advisor) (c : Candidate) :
    a.propose s c = (a, []) ∨
      (a.propose s c).1.phase = .recommending c ∧
        (a.propose s c).1.admission = a.admission ∧
        (a.propose s c).1.blocklist = a.blocklist := by
  cases hp : a.phase with
  | idle => exact .inr (by simp [propose, hp, deferRepeat, count])
  | recommending held =>
    by_cases hs : held.ssid = c.ssid
    · exact .inl (propose_same s hp hs)
    · exact .inr (by simp [propose, hp, hs, deferRepeat])
  | _ => exact .inl (by simp [propose, hp])

theorem onScan_again (s : Surroundings) (a : Advisor) (cs : List Candidate) :
    (a.onScan s cs).1.onScan s cs = ((a.onScan s cs).1, []) := by
  cases onScan_cases s a cs with
  | refused hen h =>
    have hagain : (a.clear true).1.admission.isEnabled s.restrictions = false := by
      rw [clear_admission]
      exact hen
    rw [h, onScan_of_refused hagain]
    exact clear_again a true
  | ignored hen h => rw [h, h]
  | lost hen hc h =>
    rw [h]
    refine onScan_of_unrecommended ?_ (clear_leaves a false).phase ?_
    · rw [clear_admission]
      exact hen
    · rw [(clear_keeps_blocklist a false).blocklist]
      exact hc
  | proposed c hen _ hc h =>
    rcases propose_holds s a c with hsame | ⟨hp, ha, hb⟩
    · rw [h, hsame, h, hsame]
    · rw [h]
      exact onScan_of_held (ha ▸ hen) hp (hb ▸ hc) rfl

end Advisor

/-! ### Runs -/

namespace Installation

/-- The first run is the second with scans that come in again, any number of times each, under the
same surroundings as before. -/
inductive Echoes : List Turn → List Turn → Prop where
  | nil : Echoes [] []
  | turn {past once : List Turn} (t : Turn) : Echoes past once → Echoes (t :: past) (t :: once)
  | scan {past once : List Turn} {d again : Delivery} {cs : List Candidate} :
      d.event = .scan cs → again.toInput = d.toInput → Echoes (.event d :: past) once →
      Echoes (.event again :: .event d :: past) once

variable {w : Installation} {d again : Delivery} {cs : List Candidate}

theorem deliver_of_unchanged (h : w.advisor.step d.surroundings d.event = (w.advisor, [])) :
    w.deliver d = w ∧ w.callsOn d = [] := by
  have hcalls : w.callsOn d = [] := congrArg Prod.snd h
  have hadvisor : (w.advisor.step d.surroundings d.event).1 = w.advisor := congrArg Prod.fst h
  refine ⟨?_, hcalls⟩
  rw [deliver, hcalls, hadvisor, Store.Memory.keep_of_quiet d.fault rfl]

theorem deliver_again (w : Installation) (he : d.event = .scan cs)
    (hi : again.toInput = d.toInput) :
    (w.deliver d).deliver again = w.deliver d ∧ (w.deliver d).callsOn again = [] := by
  have hs : again.surroundings = d.surroundings := congrArg Input.surroundings hi
  have hae : again.event = .scan cs := (congrArg Input.event hi).trans he
  have hd : (w.deliver d).advisor = (w.advisor.onScan d.surroundings cs).1 := by
    rw [deliver, he]
    rfl
  refine deliver_of_unchanged ?_
  rw [hs, hae, hd]
  exact Advisor.onScan_again d.surroundings w.advisor cs

theorem through_echoes (w : Installation) {run once : List Turn} (h : Echoes run once) :
    w.through run = w.through once ∧ (w.log run).flatten = (w.log once).flatten := by
  induction h with
  | nil => exact ⟨rfl, rfl⟩
  | turn t _ ih =>
    obtain ⟨hthrough, hlog⟩ := ih
    simp only [through, log, List.flatten_cons, hthrough, hlog, and_self]
  | @scan past once d again cs he hi _ ih =>
    obtain ⟨hsame, hquiet⟩ := (w.through past).deliver_again he hi
    obtain ⟨hthrough, hlog⟩ := ih
    constructor
    · exact hsame.trans hthrough
    · rw [log, List.flatten_cons, ← hlog]
      exact (congrArg (· ++ _) hquiet).trans (List.nil_append _)

/-- A scan delivered a second time under the same surroundings changes neither advisor nor store
and makes no call, and so whole runs come to the same however often their scans come in. While an
admitted advisor recommends a network, a scan whose first strongest candidate has that name, and
may be recommended, does nothing at all. -/
theorem repeated_scans_absorbed (w : Installation) :
    (∀ (d again : Delivery) (cs : List Candidate), d.event = .scan cs →
      again.toInput = d.toInput →
      (w.deliver d).deliver again = w.deliver d ∧ (w.deliver d).callsOn again = []) ∧
    (∀ run once : List Turn, Echoes run once →
      w.through run = w.through once ∧ (w.log run).flatten = (w.log once).flatten) ∧
    ∀ (d : Delivery) (cs : List Candidate) (held c : Candidate), d.event = .scan cs →
      w.advisor.phase = .recommending held →
      w.advisor.admission.isEnabled d.surroundings.restrictions = true →
      Selection.FirstStrongest c cs → c.ssid ∉ w.advisor.blocklist → c.ssid = held.ssid →
      w.deliver d = w ∧ w.callsOn d = [] := by
  refine ⟨fun d again cs => w.deliver_again, fun run once => w.through_echoes, ?_⟩
  intro d cs held c he hp hen hc hb hs
  refine deliver_of_unchanged ?_
  rw [he]
  exact Advisor.onScan_of_held hen hp (Selection.recommend?_eq hc hb) hs.symm

namespace Pier

/-- A network is recommended. -/
def recommended : List Turn :=
  [.event (.smooth 20 (.scan [.ofSignal "pier" (-60)])), .event (.smooth 10 (.screen true))]

/-- The network comes in stronger and from another address, after a weaker one and before one that
is just as strong. -/
def nearer : List Candidate :=
  [.ofSignal "quay" (-50), { Candidate.ofSignal "pier" (-40) with bssid := "0a:1b" },
    .ofSignal "kiosk" (-40)]

/-- Two hours later, the screen off. -/
def later : Delivery := .smooth 7200000 (.scan nearer)

def darkened : Installation :=
  (opened {} (.smooth .openNetworks)).through (.event (.smooth 30 (.screen false)) :: recommended)

end Pier

open Pier in
theorem repeated_scans_absorbed_of_stronger_record :
    darkened.advisor.phase = .recommending (.ofSignal "pier" (-60)) ∧
      darkened.advisor.admission.isEnabled later.surroundings.restrictions = true ∧
      darkened.deliver later = darkened ∧ darkened.callsOn later = [] ∧
      darkened.through [.event later, .event later, .event later] = darkened := by
  have hphase : darkened.advisor.phase = .recommending (.ofSignal "pier" (-60)) := by
    decide +kernel
  have hadmitted : darkened.advisor.admission.isEnabled later.surroundings.restrictions = true := by
    decide +kernel
  have hfirst : Selection.FirstStrongest { Candidate.ofSignal "pier" (-40) with bssid := "0a:1b" }
      nearer := by
    refine ⟨[.ofSignal "quay" (-50)], [.ofSignal "kiosk" (-40)], rfl, ?_, ?_⟩
    · decide
    · decide
  obtain ⟨-, hruns, hheld⟩ := repeated_scans_absorbed darkened
  obtain ⟨hsame, hquiet⟩ :=
    hheld later nearer _ _ rfl hphase hadmitted hfirst (by decide +kernel) rfl
  have hechoes : Echoes [.event later, .event later, .event later] [.event later] :=
    .scan rfl rfl (.scan rfl rfl (.turn _ .nil))
  exact ⟨hphase, hadmitted, hsame, hquiet, (hruns _ _ hechoes).1.trans hsame⟩

end Installation

end WifiAdvisor
