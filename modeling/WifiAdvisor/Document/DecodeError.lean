import WifiAdvisor.Document.Value
import WifiAdvisor.Text.Quoted
/-!
Why a value does not fit the type it is read as, by cause, and the text that reports each.
-/

namespace WifiAdvisor.Document

inductive Found where
  | null
  | bool (b : Bool)
  | integer (i : Int)
  | real (x : Decimal.Binary64)
  | string (s : String)
  | sequence
  | map
  deriving DecidableEq, Inhabited, Repr

inductive DecodeError where
  /-- The text could not be read as far as this. -/
  | unreadable (why : Fault)
  | invalidType (found : Found) (expected : String)
  | invalidValue (found : Found) (expected : String)
  | invalidLength (length : Nat) (expected : String)
  | unknownVariant (name : String) (expected : List String)
  | missingField (name : String)
  | duplicateField (name : String)
  /-- A name of a kind can only be written as a string or as a table with one empty member. -/
  | notAName
  deriving DecidableEq, Inhabited, Repr

def Found.text (style : Decimal.NumberStyle) : Found → String
  | .null => "null"
  | .bool b => "boolean `" ++ toString b ++ "`"
  | .integer i => "integer `" ++ toString i ++ "`"
  | .real x => "floating point `" ++ style.text x ++ "`"
  | .string s => "string " ++ Text.Quoted.encode s
  | .sequence => "sequence"
  | .map => "map"

def oneOf (names : List String) : String :=
  let quoted := names.map fun n => "`" ++ n ++ "`"
  match quoted with
  | [] => "there are no variants"
  | [a] => a
  | [a, b] => a ++ " or " ++ b
  | _ => "one of " ++ String.intercalate ", " quoted

def DecodeError.message (style : Decimal.NumberStyle) : DecodeError → String
  | .unreadable why => if why.isEnd then "unexpected end of text" else "malformed text"
  | .invalidType found expected =>
    "invalid type: " ++ found.text style ++ ", expected " ++ expected
  | .invalidValue found expected =>
    "invalid value: " ++ found.text style ++ ", expected " ++ expected
  | .invalidLength length expected =>
    "invalid length " ++ toString length ++ ", expected " ++ expected
  | .unknownVariant name expected =>
    "unknown variant `" ++ name ++ "`, expected " ++ oneOf expected
  | .missingField name => "missing field `" ++ name ++ "`"
  | .duplicateField name => "duplicate field `" ++ name ++ "`"
  | .notAName => "wanted string or table"

end WifiAdvisor.Document
