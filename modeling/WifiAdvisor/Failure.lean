import WifiAdvisor.Text.Quoted
/-!
What can go wrong outside the advisor, by cause, and the text that reports each.
-/

namespace WifiAdvisor

/-- A store that could not be reached, or whose backing database refused. -/
inductive StoreFailure where
  | io (detail : String)
  | backend (detail : String)
  deriving DecidableEq, Inhabited, Repr

def StoreFailure.message : StoreFailure → String
  | .io detail => "store io error: " ++ detail
  | .backend detail => "store backend error: " ++ detail

structure Rejection where
  ssid : String
  reason : String
  deriving DecidableEq, Inhabited, Repr

def Rejection.message (r : Rejection) : String :=
  "network " ++ Text.Quoted.encode r.ssid ++ " rejected by config store: " ++ r.reason

structure UnknownAction where
  text : String
  deriving DecidableEq, Inhabited, Repr

def UnknownAction.message (e : UnknownAction) : String :=
  "unknown notification action: " ++ e.text

end WifiAdvisor
