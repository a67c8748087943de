import WifiAdvisor.Candidate
/-!
The five states of an advisor. Outside the idle state an advisor holds the network that it
recommended, so the held network is part of the phase and the state is read off it.
-/

namespace WifiAdvisor

inductive Status where
  | noNotification
  | recommending
  | connecting
  | connected
  | failed
  deriving DecidableEq, Inhabited, Repr, Ord

instance : Named Status where
  all := [.noNotification, .recommending, .connecting, .connected, .failed]
  name
    | .noNotification => "no_notification"
    | .recommending => "recommending"
    | .connecting => "connecting"
    | .connected => "connected"
    | .failed => "failed"
  find_name a := by cases a <;> decide

instance : Std.TransOrd Status where
  eq_swap {a b} := by cases a <;> cases b <;> decide
  isLE_trans {a b c} := by cases a <;> cases b <;> cases c <;> decide

instance : Std.LawfulEqOrd Status where
  compare_self {a} := by cases a <;> decide
  eq_of_compare {a b} := by cases a <;> cases b <;> decide

/-- What an advisor is doing, and about which network. -/
inductive Phase where
  | idle
  | recommending (held : Candidate)
  | connecting (held : Candidate)
  | connected (held : Candidate)
  | failed (held : Candidate)
  deriving DecidableEq, Inhabited, Repr

namespace Phase

def status : Phase → Status
  | .idle => .noNotification
  | .recommending _ => .recommending
  | .connecting _ => .connecting
  | .connected _ => .connected
  | .failed _ => .failed

def held? : Phase → Option Candidate
  | .idle => none
  | .recommending c | .connecting c | .connected c | .failed c => some c

theorem held?_eq_none_iff (p : Phase) : p.held? = none ↔ p.status = .noNotification := by
  cases p <;> simp [held?, status]

end Phase

end WifiAdvisor
