import WifiAdvisor.Decimal.Binary64
/-!
Decimal text of a double-precision number: the fewest digits that read back as the number, of
those the nearest to it, set out by the rules of a style.
-/

namespace WifiAdvisor.Decimal

/-- Digits after one another, `d.ddd · 10 ^ exponent`. -/
structure Digits where
  digits : List Char
  exponent : Int
  deriving Repr

namespace Magnitude

/-- Ends of the interval of reals that round to a positive value, over a common denominator, and
whether the ends belong to it. -/
def neighbourhood (x : Magnitude) : Nat × Nat × Nat × Bool :=
  let below := if x.mantissa = halfRange ∧ -1074 < x.exponent then 1 else 2
  let quarter : Magnitude := ⟨1, x.exponent - 2⟩
  let (unit, den) := quarter.ratio
  ((4 * x.mantissa - below) * unit, (4 * x.mantissa + 2) * unit, den, x.mantissa % 2 = 0)

/-- The multiple of `10 ^ k` nearest to the value among those that round to it, in units of
`10 ^ k`. -/
def onGrid? (x : Magnitude) (k : Int) : Option Nat :=
  let (low, high, den, closed) := x.neighbourhood
  let (num, vden) := x.ratio
  let (up, down) : Nat × Nat :=
    if 0 ≤ k then (Nat.pow 10 k.toNat, 1) else (1, Nat.pow 10 (-k).toNat)
  let fits (n : Nat) : Bool :=
    let point := n * up * den
    if closed then low * down ≤ point && point ≤ high * down
    else low * down < point && point < high * down
  let n := num * down / (vden * up)
  match fits n, fits (n + 1) with
  | true, true =>
    let twice := 2 * num * down
    let middle := (2 * n + 1) * vden * up
    if twice < middle || (twice = middle && n % 2 = 0) then some n else some (n + 1)
  | true, false => some n
  | false, true => some (n + 1)
  | false, false => none

/-- Searches grids from coarse to fine. -/
def searchGrids (x : Magnitude) : Nat → Int → Nat × Int
  | 0, k => (0, k)
  | fuel + 1, k =>
    match x.onGrid? k with
    | some n => (n, k)
    | none => searchGrids x fuel (k - 1)

def shortest (x : Magnitude) : Digits :=
  let (num, den) := x.ratio
  let start : Int := ((Nat.toDigits 10 num).length : Int) - (Nat.toDigits 10 den).length + 1
  let (n, k) := x.searchGrids 40 start
  let digits := Nat.toDigits 10 n
  let kept := (digits.reverse.dropWhile (· = '0')).reverse
  { digits := kept, exponent := k + (digits.length : Int) - 1 }

end Magnitude

/-- How the text of a number is set out: from which to which exponent positionally, beyond that
with a signed exponent of ten. Without bounds it is always positional. -/
structure NumberStyle where
  bounds : Option (Int × Int)

namespace NumberStyle

def positional (d : Digits) : List Char :=
  let n : Int := d.digits.length
  if n - 1 ≤ d.exponent then
    d.digits ++ List.replicate (d.exponent + 1 - n).toNat '0' ++ ['.', '0']
  else if 0 ≤ d.exponent then
    d.digits.take (d.exponent.toNat + 1) ++ '.' :: d.digits.drop (d.exponent.toNat + 1)
  else '0' :: '.' :: List.replicate (-d.exponent - 1).toNat '0' ++ d.digits

def scientific (d : Digits) : List Char :=
  let mantissa := match d.digits with
    | [] => []
    | [c] => [c]
    | c :: rest => c :: '.' :: rest
  let sign := if d.exponent < 0 then '-' else '+'
  mantissa ++ 'e' :: sign :: Nat.toDigits 10 d.exponent.natAbs

def magnitude (style : NumberStyle) (x : Magnitude) : List Char :=
  if x.isZero then ['0', '.', '0']
  else
    let d := x.shortest
    match style.bounds with
    | none => positional d
    | some (low, high) =>
      if low ≤ d.exponent ∧ d.exponent ≤ high then positional d else scientific d

def text (style : NumberStyle) : Binary64 → String
  | .finite negative size =>
    String.ofList ((if negative then ['-'] else []) ++ style.magnitude size)
  | .infinite negative => if negative then "-inf" else "inf"
  | .nan => "NaN"

end NumberStyle

end WifiAdvisor.Decimal
