import WifiAdvisor.Notice
import WifiAdvisor.SortedMap
import WifiAdvisor.Status
/-!
Counters and gauges of one advisor. A counter that was never raised has no entry.
-/

namespace WifiAdvisor

structure Metrics where
  /-- Notifications posted, by kind; an update of a recommendation is not counted here. -/
  notifications : SortedMap NoticeKind UInt64 := ∅
  /-- User actions, by action and the state in which each arrived. -/
  actions : SortedMap Action (SortedMap Status UInt64) := ∅
  /-- How often a shown recommendation was replaced by another network. -/
  recommendationUpdates : UInt64 := 0
  blocklistSize : UInt64 := 0
  connectSendFailures : UInt64 := 0
  settingEnabled : Bool := false
  /-- Networks added from a notification, and the nominator each is attributed to. -/
  nominators : SortedMap NetworkId Int32 := ∅
  deriving DecidableEq, Inhabited

namespace Metrics

/-- A counter one higher; a missing one counts as zero. -/
def raised (n : Option UInt64) : UInt64 := n.getD 0 + 1

def recordNotification (m : Metrics) (kind : NoticeKind) : Metrics :=
  { m with notifications := m.notifications.alter kind raised }

def recordAction (m : Metrics) (action : Action) (status : Status) : Metrics :=
  { m with actions := m.actions.alter action fun n => (n.getD ∅).alter status raised }

def recordUpdate (m : Metrics) : Metrics :=
  { m with recommendationUpdates := m.recommendationUpdates + 1 }

def recordSendFailure (m : Metrics) : Metrics :=
  { m with connectSendFailures := m.connectSendFailures + 1 }

def setNominator (m : Metrics) (network : NetworkId) (nominator : Int32) : Metrics :=
  { m with nominators := m.nominators.insert network nominator }

def notificationCount (m : Metrics) (kind : NoticeKind) : UInt64 := m.notifications.findD kind 0

def actionCountIn (m : Metrics) (action : Action) (status : Status) : UInt64 :=
  (m.actions.findD action ∅).findD status 0

def actionCount (m : Metrics) (action : Action) : UInt64 :=
  (m.actions.findD action ∅).entries.foldl (fun n e => n + e.2) 0

theorem foldl_sum_add {κ : Type} (l : List (κ × UInt64)) (x y : UInt64) :
    l.foldl (fun n e => n + e.2) (x + y) = l.foldl (fun n e => n + e.2) x + y := by
  induction l generalizing x with
  | nil => rfl
  | cons e l ih =>
    have hswap : x + y + e.2 = x + e.2 + y := by
      rw [UInt64.add_assoc, UInt64.add_comm y, UInt64.add_assoc]
    rw [List.foldl_cons, List.foldl_cons, hswap, ih]

/-- Raising one counter raises the sum by one. -/
theorem foldl_sum_raised {κ : Type} [Ord κ] [Std.TransOrd κ] [Std.LawfulEqOrd κ] (k : κ)
    {l : List (κ × UInt64)} (h : l.Pairwise fun a b => compare a.1 b.1 = .lt) (x : UInt64) :
    (SortedMap.place k (raised (SortedMap.lookup k l)) l).foldl (fun n e => n + e.2) x =
      l.foldl (fun n e => n + e.2) x + 1 := by
  induction l generalizing x with
  | nil => rfl
  | cons y rest ih =>
    obtain ⟨y, b⟩ := y
    obtain ⟨hy, hrest⟩ := List.pairwise_cons.1 h
    simp only [SortedMap.place, SortedMap.lookup]
    cases hk : compare k y with
    | lt =>
      have hnone : SortedMap.lookup k rest = none :=
        SortedMap.lookup_eq_none_of_lt fun e he => Std.TransCmp.lt_trans hk (hy e he)
      have hfirst : x + raised none + b = x + b + 1 := by
        rw [raised, Option.getD_none, UInt64.zero_add, UInt64.add_assoc, UInt64.add_comm 1,
          UInt64.add_assoc]
      simp [hnone, hfirst, foldl_sum_add]
    | eq =>
      have hfirst : x + raised (some b) = x + b + 1 := (UInt64.add_assoc x b 1).symm
      simp [hfirst, foldl_sum_add]
    | gt => exact ih hrest (x + b)

theorem actionCount_recordAction_self (m : Metrics) (action : Action) (status : Status) :
    (m.recordAction action status).actionCount action = m.actionCount action + 1 := by
  simp only [actionCount, recordAction, SortedMap.findD, SortedMap.find?_alter_self,
    Option.getD_some]
  exact foldl_sum_raised status (SortedMap.ascending _) 0

theorem actionCount_recordAction_of_ne (m : Metrics) {action other : Action} (h : other ≠ action)
    (status : Status) : (m.recordAction action status).actionCount other = m.actionCount other := by
  simp only [actionCount, recordAction, SortedMap.findD, SortedMap.find?_alter_of_ne _ h]

end Metrics

end WifiAdvisor
