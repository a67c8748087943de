import WifiAdvisor.Proofs.PhaseStep
import WifiAdvisor.Proofs.Turns

/-!
# Soloists

A soloist is an advisor with a host of its own: it keeps its own copy of the toggles, takes from
the queue what is meant for it, and is given the numbers of its networks from a list. A step needs
to be told no other numbers than those it uses.
-/
namespace WifiAdvisor

open Effect

/-- The same surroundings on a host that adds every network and gives the next one number `n`. -/
def Surroundings.numbering (s : Surroundings) (n : NetworkId) : Surroundings :=
  { s with addNetwork := fun _ => .ok n }

/-! ### What the numbering can change -/

namespace Advisor

variable {a : Advisor} {e : Event}

theorem step_numbers_of_asks {s : Surroundings} (h : Asks s a e) (n : NetworkId) :
    numbers (a.step (s.numbering n) e).2 = [n] := by
  obtain ⟨held, config, rfl, hp, hc⟩ := h
  have hl := onConnect_leaves_connecting (s := s.numbering n) hp hc
  rw [step_own_connect, hl.given]
  rfl

theorem onConnect_numbering {s : Surroundings}
    (h : ∀ held, a.phase = .recommending held → s.configure held = none) (n m : NetworkId) :
    a.onConnect (s.numbering n) = a.onConnect (s.numbering m) := by
  cases hp : a.phase with
  | recommending held =>
    have hn : (s.numbering n).configure held = none := h held hp
    have hm : (s.numbering m).configure held = none := h held hp
    simp [onConnect, tally, hp, hn, hm]
  | _ => simp [onConnect, tally, hp]

theorem step_numbering_of_not_asks {s : Surroundings} (h : ¬ Asks s a e) (n m : NetworkId) :
    a.step (s.numbering n) e = a.step (s.numbering m) e := by
  cases e with
  | action event =>
    obtain ⟨tag, action⟩ := event
    by_cases ht : tag = a.identity.tag
    · subst tag
      cases action with
      | connect =>
        have hc : ∀ held, a.phase = .recommending held → s.configure held = none := by
          intro held hp
          rw [Option.eq_none_iff_forall_ne_some]
          intro config hc
          exact h ⟨held, config, rfl, hp, hc⟩
        simpa [step, onAction] using onConnect_numbering hc n m
      | _ => rfl
    · simp [step, onAction, ht]
  | _ => rfl

/-- The numbers that a step uses are all it needs to be told. -/
theorem step_numbering_headD (s : Surroundings) (a : Advisor) (e : Event) (n m : NetworkId)
    (rest : List NetworkId) :
    a.step (s.numbering ((numbers (a.step (s.numbering n) e).2 ++ rest).headD m)) e =
      a.step (s.numbering n) e := by
  by_cases h : Asks s a e
  · rw [step_numbers_of_asks h]
    rfl
  · exact step_numbering_of_not_asks h _ _

end Advisor

/-! ### Soloists -/

/-- A host that adds every network, the next one under `number`. -/
def Surroundings.ofHost (settings : SortedMap String Bool) (restrictions : Restrictions)
    (number : NetworkId) (now : Millis) : Surroundings where
  now
  setting key := settings.findD key true
  restrictions
  addNetwork _ := .ok number

structure Soloist where
  advisor : Advisor
  settings : SortedMap String Bool
  restrictions : Restrictions
  /-- What its additions will be answered with, in order. -/
  given : List NetworkId

namespace Soloist

/-- What an entry is to the advisor `a` at `index` of the roster. A tag means the first advisor
that has it; a failure without one, whoever is connecting; an action without one, the first
advisor of all. -/
def heard (roster : List Identity) (index : Nat) (a : Advisor) : Queued → Option Event
  | .feed (.scan none candidates) => some (.scan candidates)
  | .feed (.scan (some tag) candidates) =>
    if roster.findIdx? (fun identity => identity.tag = tag) = some index then
      some (.scan candidates)
    else none
  | .feed (.screen on) => some (.screen on)
  | .feed (.wifiConnected ssid) => some (.wifiConnected ssid)
  | .feed .connectionFailure => some .connectionFailure
  | .feed (.sendFailed none reason) =>
    if a.status = .connecting then some (.sendFailed reason) else none
  | .feed (.sendFailed (some tag) reason) =>
    if roster.findIdx? (fun identity => identity.tag = tag) = some index then
      some (.sendFailed reason)
    else none
  | .feed (.action (some tag) action) => some (.action ⟨tag, action⟩)
  | .feed (.action none action) => roster.head?.map fun first => .action ⟨first.tag, action⟩
  | .feed (.setting key _) => if a.identity.settingsKey = key then some .settingChanged else none
  | .feed (.clear resetRepeat) => some (.clear resetRepeat)
  | .feed (.sleep _) => none
  | .feed .dump => none
  | .timer i fired => if index = i then some (.timer fired) else none
  | .shutdown => none

/-- What an entry is to a soloist. It hears of a changed toggle after the change. -/
def input? (roster : List Identity) (index : Nat) (o : Soloist) (e : Entry) : Option Input :=
  (heard roster index o.advisor e.queued).map fun event =>
    { surroundings :=
        .ofHost (e.queued.toggled o.settings) o.restrictions (o.given.headD 0) e.now
      event }

def turn (roster : List Identity) (index : Nat) (o : Soloist) (e : Entry) :
    Soloist × List Effect :=
  let r := match o.input? roster index e with
    | none => (o.advisor, [])
    | some i => o.advisor.step i.surroundings i.event
  ({ o with
      advisor := r.1
      settings := e.queued.toggled o.settings
      given := o.given.drop (numbers r.2).length }, r.2)

def after (roster : List Identity) (index : Nat) (o : Soloist) : List Entry → Soloist
  | [] => o
  | e :: past => ((o.after roster index past).turn roster index e).1

/-- The calls on an entry that comes after those of `past`. -/
def callsOn (roster : List Identity) (index : Nat) (o : Soloist) (past : List Entry) (e : Entry) :
    List Effect :=
  ((o.after roster index past).turn roster index e).2

def callLog (roster : List Identity) (index : Nat) (o : Soloist) : List Entry → List (List Effect)
  | [] => []
  | e :: past => o.callsOn roster index past e :: o.callLog roster index past

/-- What the entries of a run are to a soloist. -/
def inputs (roster : List Identity) (index : Nat) (o : Soloist) : List Entry → List Input
  | [] => []
  | e :: past =>
    ((o.after roster index past).input? roster index e).toList ++ o.inputs roster index past

/-- A soloist at its start, which has loaded `set`. -/
def start (config : Config) (opening : Millis) (identity : Identity) (set : Blocklist)
    (given : List NetworkId) : Soloist where
  advisor := (Advisor.start
    (.ofHost config.settings config.restrictions.toRestrictions (given.headD 0) opening)
    identity config.timing config.restrictions.supportsAddRestriction (.ok set)).1
  settings := config.settings
  restrictions := config.restrictions.toRestrictions
  given

/-- All that soloists ask of the outside in a run: on each entry first what it asks by itself, then
what the soloists ask, in the order of the roster. -/
def woven (roster : List Identity) (solo : Identity × Nat → Soloist) : List Entry → List Demand
  | [] => []
  | e :: past =>
    woven roster solo past ++
      (Dispatcher.dumped (roster.zipIdx.map fun p => ((solo p).after roster p.2 past).advisor) e ++
        roster.zipIdx.flatMap fun p =>
          ((solo p).callsOn roster p.2 past e).filterMap (Dispatcher.demand? p.2 p.1.tag))

/-- A soloist is an advisor on its own that runs on what it hears. -/
theorem after_advisor (roster : List Identity) (index : Nat) (o : Soloist) (past : List Entry) :
    (o.after roster index past).advisor = o.advisor.after (o.inputs roster index past) := by
  induction past with
  | nil => rfl
  | cons e past ih =>
    rw [after, inputs, turn]
    cases (o.after roster index past).input? roster index e with
    | none => exact ih
    | some i =>
      rw [Option.toList_some, List.singleton_append, Advisor.after_cons, ← ih]

theorem callLog_flatten (roster : List Identity) (index : Nat) (o : Soloist)
    (past : List Entry) :
    (o.callLog roster index past).flatten =
      (o.advisor.log (o.inputs roster index past)).flatten := by
  induction past with
  | nil => rfl
  | cons e past ih =>
    rw [callLog, inputs, List.flatten_cons, ih, callsOn, turn]
    cases (o.after roster index past).input? roster index e with
    | none => rfl
    | some i =>
      rw [Option.toList_some, List.singleton_append, Advisor.log, List.flatten_cons,
        Advisor.callsOn, ← after_advisor]

end Soloist

end WifiAdvisor
