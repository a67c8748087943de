import WifiAdvisor.Named
/-!
The actions a user can take from a notification.
-/

namespace WifiAdvisor

inductive Action where
  | dismiss
  | connect
  | pick
  | pickAfterFailure
  deriving DecidableEq, Inhabited, Repr, Ord

instance : Named Action where
  all := [.dismiss, .connect, .pick, .pickAfterFailure]
  name
    | .dismiss => "user_dismissed"
    | .connect => "connect_to_network"
    | .pick => "pick_wifi_network"
    | .pickAfterFailure => "pick_wifi_network_after_failure"
  find_name a := by cases a <;> decide

instance : Std.TransOrd Action where
  eq_swap {a b} := by cases a <;> cases b <;> decide
  isLE_trans {a b c} := by cases a <;> cases b <;> cases c <;> decide

instance : Std.LawfulEqOrd Action where
  compare_self {a} := by cases a <;> decide
  eq_of_compare {a b} := by cases a <;> cases b <;> decide

/-- The action of that name, the case of ASCII letters aside. -/
def Action.ofText? (text : String) : Option Action :=
  (Named.all : List Action).find? fun a =>
    (Named.name a).toList.map Char.toLower == text.toList.map Char.toLower

end WifiAdvisor
