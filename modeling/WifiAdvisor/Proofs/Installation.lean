import WifiAdvisor.Proofs.BlocklistStep
import WifiAdvisor.Rehearsal
import WifiAdvisor.Store.Memory

/-! An advisor and the store that outlives it. Sessions follow each other on one store; each begins
with a load, and any load or save may fail, which leaves the store as it was. Advisors are not
told whether a save went through. Others may write to the store, but not under the advisor's key:
that is a condition on runs, stated where it is needed. -/
namespace WifiAdvisor

/-- How a session begins, and why its load fails if it does. -/
structure Opening where
  surroundings : Surroundings
  identity : Identity
  timing : Timing
  supportsAddRestriction : Bool
  fault : Option StoreFailure

/-- An input, and why saving fails while it is handled if it does. -/
structure Delivery extends Input where
  fault : Option StoreFailure

def Opening.smooth (identity : Identity) : Opening where
  surroundings := .permissive 0
  identity
  timing := {}
  supportsAddRestriction := true
  fault := none

def Delivery.smooth (now : Millis) (event : Event) : Delivery where
  surroundings := .permissive now
  event
  fault := none

/-- What the store holds after some calls. -/
def Store.Memory.keep (m : Store.Memory) (fault : Option StoreFailure) (calls : List Effect) :
    Store.Memory :=
  if fault = none then (Effect.saves calls).foldl (fun m save => m.save save.1 save.2) m else m

theorem Store.Memory.keep_of_saves {m : Store.Memory} {calls : List Effect} {key : String}
    {set : Blocklist} (h : Effect.saves calls = [(key, set)]) :
    m.keep none calls = m.save key set := by
  simp [Store.Memory.keep, h]

theorem Store.Memory.keep_of_quiet {m : Store.Memory} {calls : List Effect}
    (fault : Option StoreFailure) (h : Effect.saves calls = []) : m.keep fault calls = m := by
  simp [Store.Memory.keep, h]

theorem Store.Memory.keep_of_fault {m : Store.Memory} {fault : Option StoreFailure}
    (h : fault ≠ none) (calls : List Effect) : m.keep fault calls = m := by
  simp [Store.Memory.keep, h]

theorem Store.Memory.keep_cons (m : Store.Memory) (fault : Option StoreFailure) (call : Effect)
    (calls : List Effect) :
    m.keep fault (call :: calls) = (m.keep fault [call]).keep fault calls := by
  unfold Store.Memory.keep
  split
  · simp
  · rfl

/-- What the load of a session brings. -/
def Opening.loaded (o : Opening) (store : Store.Memory) : Except StoreFailure Blocklist :=
  match o.fault with
  | some failure => .error failure
  | none => .ok (store.load o.identity.storeKey)

structure Installation where
  advisor : Advisor
  store : Store.Memory

namespace Installation

def opened (store : Store.Memory) (o : Opening) : Installation where
  advisor := (Advisor.start o.surroundings o.identity o.timing o.supportsAddRestriction
    (o.loaded store)).1
  store

def callsOn (w : Installation) (d : Delivery) : List Effect :=
  (w.advisor.step d.surroundings d.event).2

def deliver (w : Installation) (d : Delivery) : Installation where
  advisor := (w.advisor.step d.surroundings d.event).1
  store := w.store.keep d.fault (w.callsOn d)

@[simp] theorem opened_identity (store : Store.Memory) (o : Opening) :
    (opened store o).advisor.identity = o.identity := by
  cases h : o.fault <;>
    simp [opened, Advisor.start, Opening.loaded, h, Advisor.restore, Advisor.withBlocklist,
      Advisor.readSetting]

theorem opened_blocklist (store : Store.Memory) {o : Opening} (h : o.fault = none) :
    (opened store o).advisor.blocklist = store.load o.identity.storeKey := by
  have hl : o.loaded store = .ok (store.load o.identity.storeKey) := by
    simp [Opening.loaded, h]
  rw [opened, hl]
  exact Advisor.start_blocklist _ o.identity _ _ _

end Installation

/-- One thing that happens to an installation. -/
inductive Turn where
  | session (o : Opening)
  | event (d : Delivery)
  /-- Someone else puts a set under a key. -/
  | foreign (key : String) (set : Blocklist)

namespace Turn

/-- Sessions use `key`, and nobody else writes under it. -/
def Respects (key : String) : Turn → Prop
  | .session o => o.identity.storeKey = key
  | .event _ => True
  | .foreign other _ => other ≠ key

/-- The store is in order. -/
def Works : Turn → Prop
  | .session o => o.fault = none
  | .event d => d.fault = none
  | .foreign _ _ => True

def Begins : Turn → Prop
  | .session _ => True
  | _ => False

end Turn

namespace Installation

def next (w : Installation) : Turn → Installation
  | .session o => opened w.store o
  | .event d => w.deliver d
  | .foreign key set => { w with store := w.store.save key set }

def calls (w : Installation) : Turn → List Effect
  | .session o => (Advisor.start o.surroundings o.identity o.timing o.supportsAddRestriction
      (o.loaded w.store)).2
  | .event d => w.callsOn d
  | .foreign _ _ => []

/-- The installation after the turns of `past`, the latest of which stands first. -/
def through (w : Installation) : List Turn → Installation
  | [] => w
  | t :: past => (w.through past).next t

variable {w : Installation} {t : Turn} {key : String}

theorem through_append (w : Installation) (later earlier : List Turn) :
    w.through (later ++ earlier) = (w.through earlier).through later := by
  induction later with
  | nil => rfl
  | cons t later ih => simp only [List.cons_append, through, ih]

theorem next_key (h : w.advisor.identity.storeKey = key) (ht : t.Respects key) :
    (w.next t).advisor.identity.storeKey = key := by
  cases t with
  | session o => rw [next, opened_identity]; exact ht
  | event d => rw [next, deliver, Advisor.step_identity]; exact h
  | foreign other set => exact h

theorem through_key (h : w.advisor.identity.storeKey = key) {past : List Turn}
    (hp : ∀ t ∈ past, t.Respects key) : (w.through past).advisor.identity.storeKey = key := by
  induction past with
  | nil => exact h
  | cons t past ih =>
    obtain ⟨ht, hpast⟩ := List.forall_mem_cons.mp hp
    exact next_key (ih hpast) ht

end Installation

/-! ### A rehearsal is an installation -/

namespace Rehearsal

variable {r : Rehearsal}

def installation (r : Rehearsal) : Installation where
  advisor := r.advisor
  store := r.store

def fault (r : Rehearsal) : Option StoreFailure :=
  if r.storeFails then some (.io "out of order") else none

def delivery (r : Rehearsal) (event : Event) : Delivery where
  surroundings := r.surroundings
  event
  fault := r.fault

def opening (r : Rehearsal) : Opening where
  surroundings := r.surroundings
  identity := r.identity
  timing := r.timing
  supportsAddRestriction := r.supportsAddRestriction
  fault := r.fault

theorem perform_fault (r : Rehearsal) (call : Effect) : (r.perform call).fault = r.fault := by
  cases call with
  | save key ssids => cases h : r.storeFails <;> simp [perform, fault, h]
  | add config owner answer => cases answer <;> rfl
  | _ => rfl

theorem perform_installation (r : Rehearsal) (call : Effect) :
    (r.perform call).installation =
      { r.installation with store := r.store.keep r.fault [call] } := by
  cases h : r.storeFails <;> cases call with
  | add config owner answer =>
    cases answer <;> simp [perform, installation, fault, h, Store.Memory.keep]
  | _ => simp [perform, installation, fault, h, Store.Memory.keep]

theorem foldl_perform_installation (r : Rehearsal) (calls : List Effect) :
    (calls.foldl perform r).installation =
      { r.installation with store := r.store.keep r.fault calls } := by
  induction calls generalizing r with
  | nil => simp [Store.Memory.keep, installation]
  | cons call calls ih =>
    have hi := perform_installation r call
    have hs : (r.perform call).store = r.store.keep r.fault [call] :=
      congrArg Installation.store hi
    rw [List.foldl_cons, ih, hi, hs, perform_fault, ← Store.Memory.keep_cons]

theorem handle_installation (r : Rehearsal) (event : Event) :
    (r.handle event).installation = r.installation.deliver (r.delivery event) := by
  rw [handle, foldl_perform_installation]
  rfl

theorem restart_installation (r : Rehearsal) :
    r.restart.installation = .opened r.store r.opening := by
  cases h : r.storeFails <;>
    simp [restart, h, perform, installation, Installation.opened, opening, Opening.loaded, fault,
      Advisor.start]

end Rehearsal

end WifiAdvisor
