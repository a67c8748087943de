import WifiAdvisor.Action
import WifiAdvisor.Candidate
/-!
Notifications: what is displayed for each kind, and which actions it offers.
-/

namespace WifiAdvisor

inductive NoticeKind where
  | recommend
  | connecting
  | connected
  | failed
  deriving DecidableEq, Inhabited, Repr, Ord

instance : Named NoticeKind where
  all := [.recommend, .connecting, .connected, .failed]
  name
    | .recommend => "recommend_network"
    | .connecting => "connecting_to_network"
    | .connected => "connected_to_network"
    | .failed => "failed_to_connect"
  find_name a := by cases a <;> decide

instance : Std.TransOrd NoticeKind where
  eq_swap {a b} := by cases a <;> cases b <;> decide
  isLE_trans {a b c} := by cases a <;> cases b <;> cases c <;> decide

instance : Std.LawfulEqOrd NoticeKind where
  compare_self {a} := by cases a <;> decide
  eq_of_compare {a b} := by cases a <;> cases b <;> decide

structure Notice where
  kind : NoticeKind
  /-- The advisor that posted it; actions carry the tag back. -/
  tag : String
  title : String
  ssid : Option String
  actions : List Action
  /-- Taken when the user swipes the notification away. -/
  deleteAction : Option Action
  deriving DecidableEq, Inhabited, Repr

namespace NoticeKind

def title (kind : NoticeKind) (ssid : Option String) : String :=
  let network := ssid.getD "Wi-Fi network"
  match kind with
  | .recommend => "Connect to an available Wi-Fi network"
  | .connecting => "Connecting to " ++ network
  | .connected => "Connected to " ++ network
  | .failed => "Could not connect to Wi-Fi network"

def actions : NoticeKind → List Action
  | .recommend => [.connect, .pick]
  | .connecting | .connected => []
  | .failed => [.pickAfterFailure]

def deleteAction : NoticeKind → Option Action
  | .recommend => some .dismiss
  | _ => none

end NoticeKind

def Notice.compose (kind : NoticeKind) (tag : String) (network : Option Candidate) : Notice :=
  let ssid := network.map Candidate.ssid
  { kind, tag, ssid
    title := kind.title ssid
    actions := kind.actions
    deleteAction := kind.deleteAction }

end WifiAdvisor
