import WifiAdvisor.Advisor

/-! Runs of one advisor. A run is the list of its inputs, the latest first, so that what happened
since some event is read off by recursion from the front. Inputs are arbitrary: every event may
arrive in every state, and the surroundings may differ from one input to the next.
The calls of an input are read through views of what reached the store, the scheduler,
the display and the network store. -/
namespace WifiAdvisor

/-- A network handed to the network store, with its answer. -/
structure Addition where
  config : NetworkConfig
  owner : UInt32
  answer : Except Rejection NetworkId

namespace Effect

@[simp] def saved? : Effect → Option (String × Blocklist)
  | .save key ssids => some (key, ssids)
  | _ => none

@[simp] def armed? : Effect → Option Timer
  | .arm _ timer => some timer
  | _ => none

@[simp] def notice? : Effect → Option Notice
  | .post _ notice => some notice
  | _ => none

/-- A call to the display, with what the slot holds after it. -/
@[simp] def show? : Effect → Option (Int32 × Option Notice)
  | .post slot notice => some (slot, some notice)
  | .cancel slot => some (slot, none)
  | _ => none

@[simp] def number? : Effect → Option NetworkId
  | .add _ _ (.ok id) => some id
  | _ => none

@[simp] def addition? : Effect → Option Addition
  | .add config owner answer => some { config, owner, answer }
  | _ => none

@[simp] def connection? : Effect → Option NetworkId
  | .connect id => some id
  | _ => none

variable {α : Type} (f : Effect → Option α)

/-- What the calls carry of one kind, in order. -/
def view (calls : List Effect) : List α := calls.filterMap f

@[simp] theorem view_nil : view f [] = [] := rfl

@[simp] theorem view_cons (c : Effect) (calls : List Effect) :
    view f (c :: calls) = (f c).toList ++ view f calls := by
  rw [view, List.filterMap_cons]
  cases f c <;> rfl

@[simp] theorem view_append (front back : List Effect) :
    view f (front ++ back) = view f front ++ view f back := List.filterMap_append

/-- The sets handed to the store, each with its key. -/
abbrev saves : List Effect → List (String × Blocklist) := view saved?

abbrev arms : List Effect → List Timer := view armed?

abbrev notices : List Effect → List Notice := view notice?

abbrev shows : List Effect → List (Int32 × Option Notice) := view show?

/-- The numbers under which networks were taken over. -/
abbrev numbers : List Effect → List NetworkId := view number?

/-- The networks handed to the network store. -/
abbrev offers : List Effect → List Addition := view addition?

/-- The networks that a connection was asked for. -/
abbrev connections : List Effect → List NetworkId := view connection?

theorem notices_eq_shows (calls : List Effect) :
    notices calls = (shows calls).filterMap Prod.snd := by
  induction calls with
  | nil => rfl
  | cons c calls ih => cases c <;> simp [ih]

end Effect

/-- Every toggle is on, nobody is restricted and every network is taken over. -/
def Surroundings.permissive (now : Millis) : Surroundings where
  now
  setting _ := true
  restrictions := .none
  addNetwork _ := .ok 1

/-- The names that a late load brings. -/
def Event.carried : Event → List String
  | .restored ssids => ssids
  | _ => []

/-- An event, with what the advisor can see of the outside while it handles it. -/
structure Input where
  surroundings : Surroundings
  event : Event

namespace Advisor

/-- The advisor after the inputs of `past`. -/
def after (a : Advisor) : List Input → Advisor
  | [] => a
  | i :: past => ((a.after past).step i.surroundings i.event).1

/-- The calls made on an input that arrives after those of `past`. -/
def callsOn (a : Advisor) (past : List Input) (i : Input) : List Effect :=
  ((a.after past).step i.surroundings i.event).2

def log (a : Advisor) : List Input → List (List Effect)
  | [] => []
  | i :: past => a.callsOn past i :: a.log past

@[simp] theorem after_nil (a : Advisor) : a.after [] = a := rfl

theorem after_cons (a : Advisor) (i : Input) (past : List Input) :
    a.after (i :: past) = ((a.after past).step i.surroundings i.event).1 := rfl

theorem after_append (a : Advisor) (later earlier : List Input) :
    a.after (later ++ earlier) = (a.after earlier).after later := by
  induction later with
  | nil => rfl
  | cons i later ih => rw [List.cons_append, after_cons, after_cons, ih]

end Advisor

end WifiAdvisor
