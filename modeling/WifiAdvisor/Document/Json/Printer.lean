import WifiAdvisor.Document.Value
import WifiAdvisor.Text.Digits
/-!
Writing values as JSON text, without any space between the parts.
-/

namespace WifiAdvisor.Document.Json

/-- Numbers keep the fewest digits; the exponent carries its sign. -/
def numberStyle : Decimal.NumberStyle := ⟨some (-5, 15)⟩

def escape (c : Char) : List Char :=
  match c with
  | '"' => ['\\', '"']
  | '\\' => ['\\', '\\']
  | '\x08' => ['\\', 'b']
  | '\x0c' => ['\\', 'f']
  | '\n' => ['\\', 'n']
  | '\r' => ['\\', 'r']
  | '\t' => ['\\', 't']
  | c => if c.toNat < 0x20 then '\\' :: 'u' :: Text.padded 16 4 c.toNat else [c]

def quote (s : String) : List Char := '"' :: s.toList.flatMap escape ++ ['"']

/-- A name without a text is written as an empty one. -/
def quoteName (k : Name) : List Char := quote (k.text.toOption.getD "")

def numeral : Number → List Char
  | .integer i => (toString i).toList
  | .real (.finite negative size) => (numberStyle.text (.finite negative size)).toList
  | _ => ['n', 'u', 'l', 'l']

mutual

def chars : Value → List Char
  | .null => ['n', 'u', 'l', 'l']
  | .bool true => ['t', 'r', 'u', 'e']
  | .bool false => ['f', 'a', 'l', 's', 'e']
  | .number n => numeral n
  | .string s => quote s
  | .datetime s => quote s
  | .array items _ => '[' :: itemChars items ++ [']']
  | .object members _ => '\x7b' :: memberChars members ++ ['\x7d']
  | .garbled _ => ['n', 'u', 'l', 'l']
  | .stopped _ => ['n', 'u', 'l', 'l']

def itemChars : List Value → List Char
  | [] => []
  | [v] => chars v
  | v :: rest => chars v ++ ',' :: itemChars rest

def memberChars : List (Name × Value) → List Char
  | [] => []
  | [(k, v)] => quoteName k ++ ':' :: chars v
  | (k, v) :: rest => quoteName k ++ ':' :: chars v ++ ',' :: memberChars rest

end

def print (v : Value) : String := String.ofList (chars v)

end WifiAdvisor.Document.Json
