/-!
Double-precision numbers as exact values: a sign, a mantissa below 2^53 and a power of two no
smaller than 2^-1074. All arithmetic here is exact on natural numbers and rounds once, to the
nearest representable value and to an even mantissa on a tie.
-/

namespace WifiAdvisor.Decimal

/-- The value `mantissa · 2 ^ exponent`. -/
structure Magnitude where
  mantissa : Nat
  exponent : Int
  deriving DecidableEq, Inhabited, Repr

namespace Magnitude

def zero : Magnitude := ⟨0, -1074⟩

def isZero (x : Magnitude) : Bool := x.mantissa = 0

def ratio (x : Magnitude) : Nat × Nat :=
  if 0 ≤ x.exponent then (x.mantissa * Nat.pow 2 x.exponent.toNat, 1)
  else (x.mantissa, Nat.pow 2 (-x.exponent).toNat)

/-- The quotient `num / (den · 2 ^ e)` as another quotient. -/
def scaled (num den : Nat) (e : Int) : Nat × Nat :=
  if 0 ≤ e then (num, den * Nat.pow 2 e.toNat) else (num * Nat.pow 2 (-e).toNat, den)

/-- The natural number nearest to `num / den`, the even one of two. -/
def roundHalfEven (num den : Nat) : Nat :=
  let q := num / den
  let r := 2 * (num % den)
  if r < den then q else if den < r then q + 1 else q + q % 2

/-- The least mantissa of a value that has all its places, the 52nd power of two. -/
def halfRange : Nat := 4503599627370496

/-- The power of two of the last place of `num / den`. -/
def lastPlace (num den : Nat) : Int :=
  let guess : Int := (num.log2 : Int) - den.log2 - 52
  let (n, d) := scaled num den guess
  max (-1074) (if n < d * halfRange then guess - 1 else guess)

/-- The nearest representable value; none when it lies beyond the largest one. -/
def ofRatio? (num den : Nat) : Option Magnitude :=
  if num = 0 then some zero
  else
    let e := lastPlace num den
    let (n, d) := scaled num den e
    let m := roundHalfEven n d
    let (m, e) := if m = 2 * halfRange then (halfRange, e + 1) else (m, e)
    if 971 < e then none else some ⟨m, e⟩

def mul? (x y : Magnitude) : Option Magnitude :=
  let (a, b) := x.ratio
  let (c, d) := y.ratio
  ofRatio? (a * c) (b * d)

/-- A quotient of positive values is never too large here: `y` is at least one. -/
def div (x y : Magnitude) : Magnitude :=
  let (a, b) := x.ratio
  let (c, d) := y.ratio
  (ofRatio? (a * d) (b * c)).getD zero

def powerOfTen (k : Nat) : Magnitude := (ofRatio? (Nat.pow 10 k) 1).getD zero

end Magnitude

inductive Binary64 where
  | finite (negative : Bool) (size : Magnitude)
  | infinite (negative : Bool)
  | nan
  deriving DecidableEq, Inhabited, Repr

end WifiAdvisor.Decimal
