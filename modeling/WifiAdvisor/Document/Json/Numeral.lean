import WifiAdvisor.Document.Value
import WifiAdvisor.Text.Digits
/-!
Numbers in JSON text. A numeral without fraction and exponent is a whole number if it lies between
-2^63 and 2^64 - 1 and is not a negative zero. Every other numeral is a double-precision number:
its first digits, as many as fit 64 bits, are scaled by a power of ten with one rounding for the
digits and one for each scaling.
-/

namespace WifiAdvisor.Document.Json.Numeral

open Decimal (Magnitude Binary64)
open Text (digit?)

/-- A numeral before it is given a value: its leading digits as a number and the power of ten that
they are to be scaled by. -/
structure Parts where
  negative : Bool
  significand : Nat
  exponent : Int
  /-- Whether there was a point or an exponent, or more digits than fit. -/
  fractional : Bool

/-- One less than the 64th power of two. -/
def largest : Nat := 18446744073709551615

/-- Digits before the point: those that do not fit count as powers of ten. -/
def wholeDigits (significand : Nat) (dropped : Nat) : List Char → Nat × Nat × List Char
  | [] => (significand, dropped, [])
  | c :: rest =>
    match digit? c with
    | none => (significand, dropped, c :: rest)
    | some d =>
      if dropped = 0 ∧ significand * 10 + d ≤ largest then
        wholeDigits (significand * 10 + d) 0 rest
      else wholeDigits significand (dropped + 1) rest

/-- Digits after the point: from the first that does not fit on they are left out. -/
def fractionDigits (significand : Nat) (taken : Nat) : List Char → Nat × Nat × List Char
  | [] => (significand, taken, [])
  | c :: rest =>
    match digit? c with
    | none => (significand, taken, c :: rest)
    | some d =>
      if significand * 10 + d ≤ largest then
        fractionDigits (significand * 10 + d) (taken + 1) rest
      else (significand, taken, rest.dropWhile fun c => (digit? c).isSome)

def exponentDigits (value : Nat) : List Char → Nat × List Char
  | [] => (value, [])
  | c :: rest =>
    match digit? c with
    | none => (value, c :: rest)
    | some d => exponentDigits (value * 10 + d) rest

def startsWithDigit : List Char → Bool
  | c :: _ => (digit? c).isSome
  | [] => false

def dueDigit (rest : List Char) : Except Fault Unit :=
  match rest with
  | [] => .error .endedInNumber
  | _ => if startsWithDigit rest then .ok () else .error .malformed

def readExponent (p : Parts) : List Char → Except Fault (Parts × List Char)
  | c :: rest =>
    if c = 'e' ∨ c = 'E' then do
      let (negative, rest) := match rest with
        | '+' :: rest => (false, rest)
        | '-' :: rest => (true, rest)
        | rest => (false, rest)
      dueDigit rest
      let (n, rest) := exponentDigits 0 rest
      let shift : Int := if negative then -n else n
      return ({ p with exponent := p.exponent + shift, fractional := true }, rest)
    else .ok (p, c :: rest)
  | [] => .ok (p, [])

def readFraction (p : Parts) : List Char → Except Fault (Parts × List Char)
  | '.' :: rest => do
    dueDigit rest
    let (significand, taken, rest) := fractionDigits p.significand 0 rest
    readExponent
      { p with significand, exponent := p.exponent - taken, fractional := true } rest
  | rest => readExponent p rest

/-- Reads the digits of a numeral whose sign has been read. -/
def readDigits (negative : Bool) (cs : List Char) : Except Fault (Parts × List Char) := do
  dueDigit cs
  match cs with
  | '0' :: rest =>
    if startsWithDigit rest then throw .malformed
    readFraction { negative, significand := 0, exponent := 0, fractional := false } rest
  | cs =>
    let (significand, dropped, rest) := wholeDigits 0 0 cs
    readFraction
      { negative, significand, exponent := dropped, fractional := dropped != 0 } rest

/-- Scales by a power of ten in steps that have a double-precision value. -/
def scale? (size : Magnitude) (exponent : Int) : Option Magnitude :=
  if exponent.natAbs ≤ 308 then
    if 0 ≤ exponent then size.mul? (.powerOfTen exponent.toNat)
    else some (size.div (.powerOfTen exponent.natAbs))
  else if size.isZero then some size
  else if 0 ≤ exponent then none
  else scale? (size.div (.powerOfTen 308)) (exponent + 308)
termination_by exponent.natAbs
decreasing_by omega

def value (p : Parts) : Number :=
  if !p.fractional && !p.negative then .integer p.significand
  else if !p.fractional && 0 < p.significand && p.significand ≤ 9223372036854775808 then
    .integer (-(p.significand : Int))
  else
    match (Magnitude.ofRatio? p.significand 1).bind fun size => scale? size p.exponent with
    | some size => .real (.finite p.negative size)
    | none => .tooLarge

def read : List Char → Except Fault (Number × List Char)
  | '-' :: rest => do
    let (p, rest) ← readDigits true rest
    return (value p, rest)
  | cs => do
    let (p, rest) ← readDigits false cs
    return (value p, rest)

end WifiAdvisor.Document.Json.Numeral
