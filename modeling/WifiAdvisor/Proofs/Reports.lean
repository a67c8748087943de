import WifiAdvisor.Proofs.Display
import WifiAdvisor.Proofs.Independence

/-!
# Reports of a connection

While an advisor is connecting, whatever is connected to counts as its success: nobody compares the
network that a report names with the one that is held. The notice that goes up then names the held
network, and one report does for every advisor behind a dispatcher that is connecting.
-/
namespace WifiAdvisor

open Effect

namespace Advisor

variable {s : Surroundings} {a : Advisor} {e : Event} {held : Candidate} {past : List Input}

/-- The event that brought the advisor into the state it is in, if it ever left the first one. -/
def arrival (a : Advisor) : List Input → Option Event
  | [] => none
  | i :: past =>
    if (a.after (i :: past)).status = (a.after past).status then a.arrival past else some i.event

theorem step_connected (hp : (a.step s e).1.phase = .connected held) :
    a.phase = .connected held ∨
      a.phase = .connecting held ∧ ∃ ssid, e = .wifiConnected ssid := by
  cases step_phase s a e with
  | kept _ _ _ h => exact .inl (h.phase.symm.trans hp)
  | cleared _ h => cases h.phase.symm.trans hp
  | dismissed _ h => cases h.phase.symm.trans hp
  | recommended cs c _ _ _ _ h => cases h.phase.symm.trans hp
  | requested network config _ _ _ h => cases h.phase.symm.trans hp
  | unconfigured network _ _ _ h => exact .inl (h.phase.symm.trans hp)
  | connected network ssid he hc h =>
    cases h.phase.symm.trans hp
    exact .inr ⟨hc, ssid, he⟩
  | failed network _ _ _ h => cases h.phase.symm.trans hp

theorem arrival_of_connected (h : a.phase = .idle) (hp : (a.after past).phase = .connected held) :
    ∃ ssid, a.arrival past = some (.wifiConnected ssid) := by
  induction past with
  | nil => cases h.symm.trans hp
  | cons i past ih =>
    have hnow : (a.after (i :: past)).status = .connected := congrArg Phase.status hp
    rw [arrival, hnow]
    rcases step_connected hp with hbefore | ⟨hbefore, ssid, he⟩
    · have hs : (a.after past).status = .connected := congrArg Phase.status hbefore
      rw [if_pos hs.symm]
      exact ih hbefore
    · have hs : (a.after past).status = .connecting := congrArg Phase.status hbefore
      rw [hs, if_neg (by decide), he]
      exact ⟨ssid, rfl⟩

/-- Any report will do. -/
theorem step_report (s : Surroundings) (hp : a.phase = .connecting held) (ssid : Option String) :
    (a.step s (.wifiConnected ssid)).1.phase = .connected held ∧
      notices (a.step s (.wifiConnected ssid)).2 =
        [Notice.compose .connected a.identity.tag (some held)] := by
  have h := onConnected_leaves_connecting ssid hp
  refine ⟨h.phase, ?_⟩
  have hnotices := h.notices_eq
  rwa [showing_notices] at hnotices

end Advisor

namespace Dispatcher

variable {d : Dispatcher} {index : Nat} {a : Advisor} {held : Candidate}

theorem dispatch_report (h : d.advisors[index]? = some a) (hp : a.phase = .connecting held)
    (now : Millis) (ssid : Option String) :
    let report : Entry := ⟨now, .feed (.wifiConnected ssid)⟩
    (∃ b, (d.dispatch report.now report.queued).2.1.advisors[index]? = some b ∧
      b.phase = .connected held) ∧
    notices (d.callsOf index report) =
      [Notice.compose .connected a.identity.tag (some held)] := by
  intro report
  obtain ⟨number, hadvisor, hcalls⟩ := turnOn_eq d report h
  obtain ⟨hphase, hnotices⟩ :=
    Advisor.step_report ({ d with nextNetwork := number }.surroundings now) hp ssid
  rw [hcalls]
  exact ⟨⟨_, hadvisor, hphase⟩, hnotices⟩

end Dispatcher

/-- An advisor is connected because some connection was reported while it was connecting; the
notice that is up names the network it holds. Any report brings that about, whichever network it
names, and for every connecting advisor behind a dispatcher at once. -/
theorem connected_by_any_report (opening : Surroundings) (identity : Identity) (timing : Timing)
    (supports : Bool) (loaded : Except StoreFailure Blocklist) (past : List Input) :
    let a := (Advisor.start opening identity timing supports loaded).1
    let now := a.after past
    (∀ held, now.phase = .connected held →
      (∃ ssid, a.arrival past = some (.wifiConnected ssid)) ∧
        a.displayed past = some (Notice.compose .connected identity.tag (some held))) ∧
    (∀ held, now.phase = .connecting held → ∀ s ssid,
      (now.step s (.wifiConnected ssid)).1.phase = .connected held ∧
        notices (now.step s (.wifiConnected ssid)).2 =
          [Notice.compose .connected identity.tag (some held)]) ∧
    ∀ (d : Dispatcher) (index : Nat) (b : Advisor) (held : Candidate) (t : Millis)
      (ssid : Option String), d.advisors[index]? = some b → b.phase = .connecting held →
      let report : Entry := ⟨t, .feed (.wifiConnected ssid)⟩
      (∃ c, (d.dispatch report.now report.queued).2.1.advisors[index]? = some c ∧
        c.phase = .connected held) ∧
      notices (d.callsOf index report) =
        [Notice.compose .connected b.identity.tag (some held)] := by
  intro a now
  have hidle : a.phase = .idle := Advisor.start_phase opening identity timing supports loaded
  have hidentity : now.identity = identity :=
    (Advisor.after_identity a past).trans
      (Advisor.start_identity opening identity timing supports loaded)
  refine ⟨?_, ?_, ?_⟩
  · intro held hp
    refine ⟨Advisor.arrival_of_connected hidle hp, ?_⟩
    rw [Advisor.displayed_eq hidle past, Advisor.caption, hp, ← hidentity]
  · intro held hp s ssid
    rw [← hidentity]
    exact Advisor.step_report s hp ssid
  · intro d index b held t ssid hb hp
    exact Dispatcher.dispatch_report hb hp t ssid

namespace Ferry

/-- The user asks for the ferry's network; meanwhile the device joins the one at home. -/
def joined : List Input :=
  [⟨.permissive 40, .wifiConnected (some "home")⟩,
    ⟨.permissive 30, .action ⟨Identity.openNetworks.tag, .connect⟩⟩,
    ⟨.permissive 20, .scan [.ofSignal "ferry" (-40)]⟩,
    ⟨.permissive 10, .screen true⟩]

/-- Two advisors, each connecting to a network of its own. -/
def host : Dispatcher where
  advisors := [Identity.openNetworks, Identity.carrierNetworks].map fun identity =>
    (Advisor.start (.permissive 0) identity {} true (.ok ∅)).1
  settings := ∅
  restrictions := Restrictions.none
  nextNetwork := 1

def reported : List Entry :=
  [⟨60, .feed (.wifiConnected (some "ferry"))⟩,
    ⟨50, .feed (.action (some Identity.carrierNetworks.tag) .connect)⟩,
    ⟨40, .feed (.action none .connect)⟩,
    ⟨30, .feed (.scan (some Identity.carrierNetworks.tag) [.ofSignal "pier" (-50)])⟩,
    ⟨20, .feed (.scan (some Identity.openNetworks.tag) [.ofSignal "ferry" (-40)])⟩,
    ⟨10, .feed (.screen true)⟩]

end Ferry

open Ferry in
/-- A connection to another network passes for one to the held network. -/
theorem connected_to_another_network :
    let a := (Advisor.start (.permissive 0) .openNetworks {} true (.ok ∅)).1
    (a.after joined).phase = .connected (.ofSignal "ferry" (-40)) ∧
      a.arrival joined = some (.wifiConnected (some "home")) ∧
      (a.displayed joined).map Notice.title = some "Connected to ferry" ∧
      (host.after reported).advisors.map Advisor.phase =
        [.connected (.ofSignal "ferry" (-40)), .connected (.ofSignal "pier" (-50))] := by
  decide +kernel

end WifiAdvisor
