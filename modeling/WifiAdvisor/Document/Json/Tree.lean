import WifiAdvisor.Document.Json.Reader
import WifiAdvisor.SortedMap
/-!
JSON values that are kept as a whole. In such a value the members of an object stand in ascending
order of their names, and of several with one name the last counts.
-/

namespace WifiAdvisor.Document.Json

mutual

def settle : Value → Value
  | .array items ending => .array (settleItems items) ending
  | .object members ending =>
    let entries := (SortedMap.ofList (settleMembers members)).entries
    .object (entries.map fun e => (.plain e.1, e.2)) ending
  | v => v

def settleItems : List Value → List Value
  | [] => []
  | v :: rest => settle v :: settleItems rest

def settleMembers : List (Name × Value) → List (String × Value)
  | [] => []
  | (k, v) :: rest => (k.text.toOption.getD "", settle v) :: settleMembers rest

end

/-- Reads a text that holds one value, to be kept as a whole. -/
def parseTree (text : String) : Except DecodeError Value := (parse text).map settle

end WifiAdvisor.Document.Json
