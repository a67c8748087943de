import WifiAdvisor.Document.Value
import WifiAdvisor.Text.Digits
/-!
Numbers in TOML text. Whole numbers are decimal, hexadecimal, octal or binary and have to lie
between -2^63 and 2^63 - 1; a numeral with a point or an exponent is the double-precision number
nearest to it. Underscores may stand between two digits.
-/

namespace WifiAdvisor.Document.Toml.Numeral

open Decimal (Magnitude Binary64)
open Text (digit? hexDigit?)

/-- A run of digits of which `acc` was read, last digit first; each underscore has a digit on
either side. -/
def digitsAfter (value : Char → Option Nat) (acc : List Nat) : List Char → List Nat × List Char
  | [] => (acc.reverse, [])
  | [c] =>
    match value c with
    | some d => ((d :: acc).reverse, [])
    | none => (acc.reverse, [c])
  | c :: next :: rest =>
    match value c with
    | some d => digitsAfter value (d :: acc) (next :: rest)
    | none =>
      match value next with
      | some d =>
        if c = '_' ∧ !acc.isEmpty then digitsAfter value (d :: acc) rest
        else (acc.reverse, c :: next :: rest)
      | none => (acc.reverse, c :: next :: rest)

def digits? (value : Char → Option Nat) (cs : List Char) : Option (List Nat × List Char) :=
  match digitsAfter value [] cs with
  | ([], _) => none
  | r => some r

def valueOf (base : Nat) (digits : List Nat) : Nat := digits.foldl (fun n d => n * base + d) 0

def octalDigit? (c : Char) : Option Nat := (digit? c).filter (· < 8)

def binaryDigit? (c : Char) : Option Nat := (digit? c).filter (· < 2)

def sign : List Char → Bool × List Char
  | '-' :: rest => (true, rest)
  | '+' :: rest => (false, rest)
  | cs => (false, cs)

/-- Decimal digits, the first of which is no zero unless it is the only one. -/
def whole? : List Char → Option (List Nat × List Char)
  | '0' :: rest => some ([0], rest)
  | cs => digits? digit? cs

/-- Whole numbers that fit 64 bits with sign. -/
def hasRoom (i : Int) : Bool := -9223372036854775808 ≤ i && i ≤ 9223372036854775807

def integer? (i : Int) : Option Number :=
  if hasRoom i then some (.integer i) else none

/-- Whole numbers with another base than ten. -/
def readBased? : List Char → Option (Number × List Char)
  | '0' :: 'x' :: rest => based 16 hexDigit? rest
  | '0' :: 'o' :: rest => based 8 octalDigit? rest
  | '0' :: 'b' :: rest => based 2 binaryDigit? rest
  | _ => none
where
  based (base : Nat) (value : Char → Option Nat) (cs : List Char) :
      Option (Number × List Char) := do
    let (digits, rest) ← digits? value cs
    let n ← integer? (valueOf base digits)
    return (n, rest)

/-- The number nearest to `significand · 10 ^ exponent`; none if it is too large. -/
def nearest? (significand : Nat) (exponent : Int) : Option Magnitude :=
  let length : Int := (Nat.toDigits 10 significand).length
  if significand = 0 then some .zero
  else if exponent + length < -400 then some .zero
  else if 400 < exponent + length then none
  else if 0 ≤ exponent then Magnitude.ofRatio? (significand * Nat.pow 10 exponent.toNat) 1
  else Magnitude.ofRatio? significand (Nat.pow 10 exponent.natAbs)

def fraction? : List Char → Option (List Nat × List Char)
  | '.' :: rest => digits? digit? rest
  | _ => none

def exponent? : List Char → Option (Int × List Char)
  | c :: rest =>
    if c = 'e' ∨ c = 'E' then do
      let (negative, rest) := sign rest
      let (digits, rest) ← digits? digit? rest
      let n : Int := valueOf 10 digits
      return (if negative then -n else n, rest)
    else none
  | [] => none

/-- A numeral with a point or an exponent. One that is too large is refused, unless it is
negative. -/
def readReal? (cs : List Char) : Option (Number × List Char) := do
  let (negative, rest) := sign cs
  let (digits, rest) ← whole? rest
  let (decimals, rest, pointed) := match fraction? rest with
    | some (decimals, rest) => (decimals, rest, true)
    | none => ([], rest, false)
  let (power, rest) ← match exponent? rest with
    | some (power, rest) => some (power, rest)
    | none => if pointed then some (0, rest) else none
  match nearest? (valueOf 10 (digits ++ decimals)) (power - decimals.length) with
  | some size => some (.real (.finite negative size), rest)
  | none => if negative then some (.real (.infinite true), rest) else none

/-- The words for what is no finite number. -/
def readSpecial? (cs : List Char) : Option (Number × List Char) :=
  let (negative, rest) := sign cs
  match rest with
  | 'i' :: 'n' :: 'f' :: rest => some (.real (.infinite negative), rest)
  | 'n' :: 'a' :: 'n' :: rest => some (.real .nan, rest)
  | _ => none

def readWhole? (cs : List Char) : Option (Number × List Char) := do
  let (negative, rest) := sign cs
  let (digits, rest) ← whole? rest
  let n : Int := valueOf 10 digits
  let n ← integer? (if negative then -n else n)
  return (n, rest)

def read? (cs : List Char) : Option (Number × List Char) :=
  readReal? cs <|> readSpecial? cs <|> readBased? cs <|> readWhole? cs

end WifiAdvisor.Document.Toml.Numeral
