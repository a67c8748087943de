import WifiAdvisor.Dispatcher
import WifiAdvisor.Proofs.BlocklistStep
import WifiAdvisor.Proofs.History

/-!
# An entry of the queue, advisor by advisor

Handling an entry gives every advisor a turn. In its turn an advisor sees the shared toggles and
restrictions, and of the advisors before it only how many networks they added. `dispatch_eq` puts
the dispatcher together from these turns.
-/
namespace WifiAdvisor

open Effect

/-- An entry of the queue, and the clock when it is handled. -/
structure Entry where
  now : Millis
  queued : Queued

def Queued.toggled (settings : SortedMap String Bool) : Queued → SortedMap String Bool
  | .feed (.setting key enabled) => settings.insert key enabled
  | _ => settings

namespace Dispatcher

/-- The event that an entry is to the advisor `a` at `index`. -/
def chosen (d : Dispatcher) : Queued → Nat → Advisor → Option Event
  | .feed e => d.view e
  | .timer index fired => fun i _ => if i = index then some (.timer fired) else none
  | .shutdown => fun _ _ => none

/-- One advisor's turn, the next network to be added having number `next`. -/
def turn (d : Dispatcher) (now : Millis) (event? : Option Event) (a : Advisor)
    (next : NetworkId) : Advisor × List Effect :=
  match event? with
  | none => (a, [])
  | some event => a.step ({ d with nextNetwork := next }.surroundings now) event

def turnsFrom (d : Dispatcher) (now : Millis) (choose : Nat → Advisor → Option Event) :
    Nat → List Advisor → NetworkId → List (Advisor × List Effect)
  | _, [], _ => []
  | index, a :: rest, next =>
    let r := d.turn now (choose index a) a next
    r :: turnsFrom d now choose (index + 1) rest (next + Int32.ofNat (additions r.2))

def turns (d : Dispatcher) (e : Entry) : List (Advisor × List Effect) :=
  { d with settings := e.queued.toggled d.settings }.turnsFrom e.now (d.chosen e.queued) 0
    d.advisors d.nextNetwork

/-- What an advisor's turn asks of the outside. -/
def asked (r : Advisor × List Effect) (index : Nat) : List Demand :=
  r.2.filterMap (demand? index r.1.identity.tag)

/-- What an entry asks of the outside by itself, next to the turns. -/
def dumped (advisors : List Advisor) (e : Entry) : List Demand :=
  match e.queued with
  | .feed .dump => [.emit (.dump (advisors.map (·.dump e.now)))]
  | _ => []

/-- The number of the next network after some turns. -/
def numbered (next : NetworkId) (turns : List (Advisor × List Effect)) : NetworkId :=
  turns.foldl (fun next r => next + Int32.ofNat (additions r.2)) next

theorem turn_identity (d : Dispatcher) (now : Millis) (event? : Option Event) (a : Advisor)
    (next : NetworkId) : (d.turn now event? a next).1.identity = a.identity := by
  cases event? with
  | none => rfl
  | some event => exact Advisor.step_identity _ a event

theorem deliverFrom_eq (d : Dispatcher) (now : Millis) (choose : Nat → Advisor → Option Event)
    (index : Nat) (as : List Advisor) (next : NetworkId) :
    d.deliverFrom now choose index as next =
      ((d.turnsFrom now choose index as next).map Prod.fst,
        numbered next (d.turnsFrom now choose index as next),
        ((d.turnsFrom now choose index as next).zipIdx index).flatMap fun r => asked r.1 r.2) := by
  induction as generalizing index next with
  | nil => rfl
  | cons a rest ih =>
    cases hc : choose index a with
    | none =>
      have hnext : next + Int32.ofNat (additions []) = next := Int32.add_zero next
      simp [deliverFrom, turnsFrom, turn, hc, ih, numbered, asked, hnext]
    | some event =>
      have htag := congrArg Identity.tag (Advisor.step_identity
        ({ d with nextNetwork := next }.surroundings now) a event)
      simp [deliverFrom, turnsFrom, turn, hc, ih, numbered, asked, htag]

theorem deliver_nothing (d : Dispatcher) (now : Millis) :
    d.deliver now (fun _ _ => none) = (d, []) := by
  have hfrom (index : Nat) (as : List Advisor) (next : NetworkId) :
      d.deliverFrom now (fun _ _ => none) index as next = (as, next, []) := by
    induction as generalizing index next with
    | nil => rfl
    | cons a rest ih => simp [deliverFrom, ih]
  rw [deliver, hfrom]

theorem dispatch_eq_deliver (d : Dispatcher) (e : Entry) :
    (d.dispatch e.now e.queued).2 =
      let r := { d with settings := e.queued.toggled d.settings }.deliver e.now
        (d.chosen e.queued)
      (r.1, dumped d.advisors e ++ r.2) := by
  obtain ⟨now, queued⟩ := e
  cases queued with
  | feed event =>
    cases event with
    | dump =>
      have hview : d.view .dump = fun _ _ => none := rfl
      simp [dispatch, onFeed, chosen, hview, deliver_nothing, Queued.toggled, dumped, dumps]
    | _ => rfl
  | timer index fired => rfl
  | shutdown => simp [dispatch, chosen, deliver_nothing, Queued.toggled, dumped]

theorem dispatch_eq (d : Dispatcher) (e : Entry) :
    (d.dispatch e.now e.queued).2 =
      ({ d with
          advisors := (d.turns e).map Prod.fst
          settings := e.queued.toggled d.settings
          nextNetwork := numbered d.nextNetwork (d.turns e) },
        dumped d.advisors e ++ (d.turns e).zipIdx.flatMap fun r => asked r.1 r.2) := by
  rw [dispatch_eq_deliver, deliver, deliverFrom_eq]
  rfl

theorem getElem?_turnsFrom (d : Dispatcher) (now : Millis)
    (choose : Nat → Advisor → Option Event) (index : Nat) (as : List Advisor) (next : NetworkId)
    (i : Nat) :
    ∃ number, (d.turnsFrom now choose index as next)[i]? =
      as[i]?.map fun a => d.turn now (choose (index + i) a) a number := by
  induction as generalizing index next i with
  | nil => exact ⟨0, rfl⟩
  | cons a rest ih =>
    cases i with
    | zero => exact ⟨next, rfl⟩
    | succ i =>
      obtain ⟨number, hn⟩ := ih (index + 1)
        (next + Int32.ofNat (additions (d.turn now (choose index a) a next).2)) i
      refine ⟨number, ?_⟩
      have hi : index + (i + 1) = index + 1 + i := by omega
      rw [hi]
      exact hn

/-- The turn on an entry of the advisor `a` at `index`. -/
def turnOn (d : Dispatcher) (e : Entry) (index : Nat) (a : Advisor) (number : NetworkId) :
    Advisor × List Effect :=
  { d with settings := e.queued.toggled d.settings }.turn e.now (d.chosen e.queued index a) a
    number

theorem getElem?_turns (d : Dispatcher) (e : Entry) (i : Nat) :
    ∃ number, (d.turns e)[i]? = d.advisors[i]?.map fun a => d.turnOn e i a number := by
  obtain ⟨number, hn⟩ := getElem?_turnsFrom { d with settings := e.queued.toggled d.settings }
    e.now (d.chosen e.queued) 0 d.advisors d.nextNetwork i
  rw [Nat.zero_add] at hn
  exact ⟨number, hn⟩

/-! ### Runs -/

/-- The dispatcher after the entries of `past`, the latest of which stands first. -/
def after (d : Dispatcher) : List Entry → Dispatcher
  | [] => d
  | e :: past => ((d.after past).dispatch e.now e.queued).2.1

/-- The calls that the advisor at `index` makes on an entry. -/
def callsOf (d : Dispatcher) (index : Nat) (e : Entry) : List Effect :=
  (d.turns e)[index]?.elim [] Prod.snd

def callLog (d : Dispatcher) (index : Nat) : List Entry → List (List Effect)
  | [] => []
  | e :: past => (d.after past).callsOf index e :: d.callLog index past

/-- The numbers that the advisor at `index` was given in a run, the first one first. -/
def numbersOf (d : Dispatcher) (index : Nat) : List Entry → List NetworkId
  | [] => []
  | e :: past => d.numbersOf index past ++ numbers ((d.after past).callsOf index e)

/-- All that a run asks of the outside, in order. -/
def demands (d : Dispatcher) : List Entry → List Demand
  | [] => []
  | e :: past => d.demands past ++ ((d.after past).dispatch e.now e.queued).2.2

theorem after_cons (d : Dispatcher) (e : Entry) (past : List Entry) :
    d.after (e :: past) = ((d.after past).dispatch e.now e.queued).2.1 := rfl

theorem dispatch_roster (d : Dispatcher) (e : Entry) :
    (d.dispatch e.now e.queued).2.1.advisors.map Advisor.identity =
      d.advisors.map Advisor.identity := by
  rw [dispatch_eq]
  apply List.ext_getElem?
  intro i
  obtain ⟨number, hn⟩ := getElem?_turns d e i
  cases h : d.advisors[i]? <;> simp [hn, h, turnOn, turn_identity]

theorem after_roster (d : Dispatcher) (past : List Entry) :
    (d.after past).advisors.map Advisor.identity = d.advisors.map Advisor.identity := by
  induction past with
  | nil => rfl
  | cons e past ih => rw [after_cons, dispatch_roster, ih]

end Dispatcher

end WifiAdvisor
