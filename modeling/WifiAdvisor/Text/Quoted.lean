import WifiAdvisor.Text.Combining
import WifiAdvisor.Text.Unprintable
/-!
Quoted text: a text between double quotes in which every character that could not be seen, or that
would be taken for a quote or an escape, is written as an escape.
-/

namespace WifiAdvisor.Text.Quoted

def hexDigits (n : Nat) : List Char := Nat.toDigits 16 n

/-- How one character is written between the quotes. -/
def escape (c : Char) : List Char :=
  match c with
  | '\x00' => ['\\', '0']
  | '\t' => ['\\', 't']
  | '\r' => ['\\', 'r']
  | '\n' => ['\\', 'n']
  | '\\' => ['\\', '\\']
  | '"' => ['\\', '"']
  | c =>
    if combining.contains c || unprintable.contains c then
      ['\\', 'u', '\x7b'] ++ hexDigits c.toNat ++ ['\x7d']
    else [c]

def encode (s : String) : String := String.ofList ('"' :: s.toList.flatMap escape ++ ['"'])

end WifiAdvisor.Text.Quoted
