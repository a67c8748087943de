import WifiAdvisor.Proofs.Completion
import WifiAdvisor.Proofs.Punctuality
import WifiAdvisor.Proofs.Tidying

/-!
# What a feed comes to

However the reader, the alarms and the dispatcher take turns: what is handled is what the lines
hold, in their order, and between it timers that were armed before.
-/
namespace WifiAdvisor

namespace Dispatcher

/-- A timer is asked for by the advisor that it is for. -/
theorem arm_mem_demands {d : Dispatcher} {e : Entry} {advisor : Nat} {delay : Millis}
    {timer : Timer} :
    Demand.arm advisor delay timer ∈ (d.dispatch e.now e.queued).2.2 ↔
      Effect.arm delay timer ∈ d.callsOf advisor e := by
  have hdumped : Demand.arm advisor delay timer ∉ dumped d.advisors e := by
    rw [dumped]
    split <;> simp
  have hasked (r : Advisor × List Effect) (index : Nat) :
      Demand.arm advisor delay timer ∈ asked r index ↔
        index = advisor ∧ Effect.arm delay timer ∈ r.2 := by
    rw [asked, List.mem_filterMap]
    constructor
    · rintro ⟨c, hc, hdemand⟩
      cases c with
      | arm other kind =>
        cases hdemand
        exact ⟨rfl, hc⟩
      | add config owner answer => cases answer <;> cases hdemand
      | _ => cases hdemand
    · rintro ⟨rfl, hc⟩
      exact ⟨_, hc, rfl⟩
  rw [dispatch_eq, List.mem_append, List.mem_flatMap, callsOf]
  constructor
  · rintro (hnone | ⟨⟨r, index⟩, hr, hmem⟩)
    · exact (hdumped hnone).elim
    · obtain ⟨rfl, heffect⟩ := (hasked r index).mp hmem
      rw [List.mem_zipIdx_iff_getElem?.mp hr]
      exact heffect
  · intro hmem
    cases hturn : (d.turns e)[advisor]? with
    | none =>
      rw [hturn] at hmem
      cases hmem
    | some r =>
      rw [hturn] at hmem
      exact .inr ⟨(r, advisor), List.mem_zipIdx_iff_getElem?.mpr hturn,
        (hasked r advisor).mpr ⟨rfl, hmem⟩⟩

end Dispatcher

namespace Feed

variable {origin : Millis} {d : Dispatcher}

/-- Where an alarm comes from: an advisor asked for it when something was handled. -/
theorem mem_armings {x : Alarm} {past : List Handled} :
    x ∈ armings origin d past ↔ ∃ later h earlier delay, past = later ++ h :: earlier ∧
      Effect.arm delay x.timer ∈
        (d.after (entries origin earlier)).callsOf x.advisor (h.entry origin) ∧
      x.due = h.time + Timeline.wait delay.toNat := by
  induction past with
  | nil =>
    constructor
    · intro hx
      cases hx
    · rintro ⟨later, h, earlier, delay, hsplit, -⟩
      simp at hsplit
  | cons g past ih =>
    rw [armings, List.mem_append, Timeline.mem_alarms]
    constructor
    · rintro (hx | ⟨delay, hmem, hdue⟩)
      · obtain ⟨later, h, earlier, delay, rfl, hmem, hdue⟩ := ih.mp hx
        exact ⟨g :: later, h, earlier, delay, rfl, hmem, hdue⟩
      · exact ⟨[], g, past, delay, rfl, Dispatcher.arm_mem_demands.mp hmem, hdue⟩
    · rintro ⟨later, h, earlier, delay, hsplit, hmem, hdue⟩
      rcases List.cons_eq_append_iff.mp hsplit with ⟨rfl, hcons⟩ | ⟨others, rfl, hothers⟩
      · obtain ⟨rfl, rfl⟩ := List.cons.inj hcons
        exact .inr ⟨delay, Dispatcher.arm_mem_demands.mpr hmem, hdue⟩
      · exact .inl (ih.mpr ⟨others, h, earlier, delay, hothers, hmem, hdue⟩)

/-- Whoever goes next, a loop hands its dispatcher the events of its lines, all of them by its end,
which comes once and behind them all, and timers that an advisor armed before, to that advisor and
no more often. On time, a timer is handled behind all that is posted before it is due and in front
of all that is posted later. -/
theorem nothing_lost_doubled_or_reordered (origin : Millis) (d : Dispatcher) (linger : Nat)
    (lines : List String) :
    (∀ pace l, Reaches pace linger (Loop.start origin d lines) l →
      l.timeline.dispatcher = d.after (entries origin l.handled) ∧
      l.timeline.records = emitted (d.demands (entries origin l.handled)) ∧
      feeds (inOrder l.handled) <+: sendable lines ∧
      (l.running = false → feeds (inOrder l.handled) = sendable lines ∧
        (l.posted.filter fun p => p.queued = .shutdown).length = 1) ∧
      (∀ front p back, l.posted = front ++ p :: back → p.queued = .shutdown →
        feeds front = sendable lines) ∧
      (∀ later h earlier, l.handled = later ++ h :: earlier →
        (h.queued = .shutdown → later = []) ∧
        (rung (inOrder (h :: earlier))).Subperm (armings origin d earlier) ∧
        (pace = .virtual →
          (∀ x ∈ rung (inOrder earlier), x.due ≤ h.sent) ∧
          (dueBefore h.sent (armings origin d l.handled)).Perm
            (dueBefore h.sent (rung (inOrder earlier))))) ∧
      ∃ m, Reaches pace linger l m ∧ m.running = false) ∧
    (∀ past x, x ∈ armings origin d past ↔ ∃ later h earlier delay, past = later ++ h :: earlier ∧
      Effect.arm delay x.timer ∈
        (d.after (entries origin earlier)).callsOf x.advisor (h.entry origin) ∧
      x.due = h.time + Timeline.wait delay.toNat) ∧
    (∀ (u : Dispatcher) now advisor timer, u.dispatch now (.timer advisor timer) =
      (true, { u with advisors := u.advisors.modify advisor fun a => (a.onTimer timer).1 },
        u.advisors[advisor]?.elim [] fun a =>
          (a.onTimer timer).2.filterMap (Dispatcher.demand? advisor a.identity.tag))) ∧
    (∃ l, Reaches .virtual linger (Loop.start origin d lines) l ∧ l.running = false ∧
      l.timeline = run none linger { origin, dispatcher := d } lines) ∧
    ∀ tidied, Tidied lines tidied →
      (∀ pace records, Outcome pace linger origin d tidied records ↔
        Outcome pace linger origin d lines records) ∧
      ∀ interrupt t, (run interrupt linger t tidied).records =
        (run interrupt linger t lines).records := by
  refine ⟨?_, fun _ _ => mem_armings, fun u now advisor timer => u.dispatch_timer now timer advisor,
    run_reached origin d lines, ?_⟩
  · intro pace l hreaches
    have hfaithful := Faithful.of_reaches hreaches
    refine ⟨hfaithful.dispatcher, hfaithful.records, hfaithful.heard, hfaithful.complete,
      fun _ _ _ => hfaithful.before_end, ?_, hreaches.stops⟩
    intro later h earlier hsplit
    refine ⟨fun hend => (hfaithful.stops later h earlier hsplit hend).1,
      hfaithful.timers later h earlier hsplit, ?_⟩
    rintro rfl
    have hpunctual := Punctual.of_reaches hreaches
    exact ⟨hpunctual.early later h earlier hsplit, hpunctual.late later h earlier hsplit⟩
  · intro tidied htidied
    have hevents := htidied.events_eq
    constructor
    · intro pace records
      exact ⟨fun h => h.rereads hevents.symm, fun h => h.rereads hevents⟩
    · intro interrupt t
      rw [run_congr hevents]

namespace Decades

/-- A host whose advisor gives a connection as long as a word can say. -/
def patient : Dispatcher where
  advisors :=
    let timing : Timing := { connectingTimeout := Millis.clamp Millis.largest }
    [(Advisor.start (.permissive 0) .openNetworks timing true (.ok ∅)).1]
  settings := ∅
  restrictions := Restrictions.none
  nextNetwork := 1

def harbour : Candidate :=
  { ssid := "harbour", rssi := -40, bssid := "", capabilities := "", frequencyMhz := 0 }

/-- A connection is asked for; thirty years and a millisecond later comes a dump. -/
def vigil : List String :=
  ["[\"screen\",true]",
    "[\"scan_results\",null,[[\"harbour\",-40]]]",
    "[\"action\",null,\"connect_to_network\"]",
    "[\"sleep\",946079999999]",
    "[\"sleep\",2]",
    "[\"dump\"]"]

/-- What comes before the request for a connection. -/
def prelude : List Entry := [⟨0, .feed (.scan none [harbour])⟩, ⟨0, .feed (.screen true)⟩]

end Decades

open Decades in
/-- A timer of more than thirty years goes off after thirty, in front of a dump that is posted
before the timer is over. -/
theorem long_wait_cut_short :
    ∃ l dump timeout connect earlier, Reaches .virtual 0 (Loop.start 0 patient vigil) l ∧
      l.handled = dump :: timeout :: connect :: earlier ∧ dump.queued = .feed .dump ∧
      timeout.queued = .timer 0 ⟨.connectingTimeout, 1⟩ ∧
      ∃ delay, Effect.arm delay ⟨.connectingTimeout, 1⟩ ∈
        (patient.after (entries 0 earlier)).callsOf 0 (connect.entry 0) ∧
      dump.sent < connect.time + delay.toNat := by
  have hscreen : event? vigil[0] = some (.screen true) := by decide +kernel
  have hscan : event? vigil[1] = some (.scan none [harbour]) := by decide +kernel
  have hconnect : event? vigil[2] = some (.action none .connect) := by decide +kernel
  have hlong : event? vigil[3] = some (.sleep 946079999999) := by decide +kernel
  have hshort : event? vigil[4] = some (.sleep 2) := by decide +kernel
  have hdump : event? vigil[5] = some .dump := by decide +kernel
  -- The connection is asked for at the very start.
  have hlit := (Relation.ReflTransGen.refl (r := Step .virtual 0)
    (a := Loop.start 0 patient vigil)).tail (.send _ _ _ rfl rfl hscreen rfl)
  have hfound := (hlit.tail (.handle _ _ rfl rfl)).tail (.send _ _ _ rfl rfl hscan rfl)
  have hasked := (hfound.tail (.handle _ _ rfl rfl)).tail (.send _ _ _ rfl rfl hconnect rfl)
  have hpaused := (hasked.tail (.handle _ _ rfl rfl)).tail (.pause _ _ _ rfl rfl hlong)
  have hslept := hpaused.tail (.pass 946079999999 fun _ =>
    ⟨rfl, by decide +kernel, by decide +kernel⟩)
  have hwoken := (hslept.tail (.wake _ rfl fun _ => by decide +kernel)).tail
    (.pause _ _ _ rfl rfl hshort)
  -- The timer cannot sleep any longer.
  have hdue := hwoken.tail (.pass 1 fun _ => ⟨rfl, by decide +kernel, by decide +kernel⟩)
  have hrung := hdue.tail (.ring [] ⟨946080000000, 0, ⟨.connectingTimeout, 1⟩⟩ []
    (by decide +kernel) fun _ => by decide +kernel)
  have hlater := (hrung.tail (.handle _ _ rfl rfl)).tail (.pass 1 fun _ =>
    ⟨rfl, by decide +kernel, by decide +kernel⟩)
  have hsent := (hlater.tail (.wake _ rfl fun _ => by decide +kernel)).tail
    (.send _ _ _ rfl rfl hdump rfl)
  have hcalls : ((patient.after prelude).callsOf 0 ⟨0, .feed (.action none .connect)⟩)[4]? =
      some (.arm (Millis.clamp Millis.largest) ⟨.connectingTimeout, 1⟩) := rfl
  exact ⟨_, _, _, _, _, hsent.tail (.handle _ _ rfl rfl), rfl, rfl, rfl,
    Millis.clamp Millis.largest, List.mem_of_getElem? hcalls, by decide +kernel⟩

end Feed

end WifiAdvisor
