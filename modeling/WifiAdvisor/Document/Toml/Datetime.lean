import WifiAdvisor.Document.Toml.Numeral
/-!
Dates and times of day in TOML text: a date, a time, or both with or without an offset from UTC.
Reading one gives its normal spelling: the letters `T` and `Z` in upper case, at most nine digits
of a second and none that could be left out, an offset of minus zero as plus zero.
-/

namespace WifiAdvisor.Document.Toml.Datetime

open Text (digit?)

def two? (low high : Nat) : List Char → Option (Nat × List Char)
  | a :: b :: rest => do
    let n := (← digit? a) * 10 + (← digit? b)
    if low ≤ n ∧ n ≤ high then some (n, rest) else none
  | _ => none

def four? : List Char → Option (Nat × List Char)
  | a :: b :: c :: d :: rest => do
    let (high, _) ← two? 0 99 [a, b]
    let (low, _) ← two? 0 99 [c, d]
    return (high * 100 + low, rest)
  | _ => none

def mark? (m : Char) : List Char → Option (List Char)
  | c :: rest => if c = m then some rest else none
  | [] => none

def isLeap (year : Nat) : Bool := year % 4 = 0 && (year % 100 != 0 || year % 400 = 0)

def daysIn (year month : Nat) : Nat :=
  match month with
  | 2 => if isLeap year then 29 else 28
  | 4 | 6 | 9 | 11 => 30
  | _ => 31

def places (width n : Nat) : List Char := Text.padded 10 width n

def date? (cs : List Char) : Option (List Char × List Char) := do
  let (year, rest) ← four? cs
  let rest ← mark? '-' rest
  let (month, rest) ← two? 1 12 rest
  let rest ← mark? '-' rest
  let (day, rest) ← two? 1 (daysIn year month) rest
  return (places 4 year ++ '-' :: places 2 month ++ '-' :: places 2 day, rest)

def secondFraction? (cs : List Char) : Option (List Char × List Char) := do
  let rest ← mark? '.' cs
  let digits := rest.takeWhile fun c => (digit? c).isSome
  if digits.isEmpty then none
  else
    let kept := ((digits.take 9).reverse.dropWhile (· = '0')).reverse
    some (if kept.isEmpty then [] else '.' :: kept, rest.drop digits.length)

def time? (cs : List Char) : Option (List Char × List Char) := do
  let (hour, rest) ← two? 0 23 cs
  let rest ← mark? ':' rest
  let (minute, rest) ← two? 0 59 rest
  let rest ← mark? ':' rest
  let (second, rest) ← two? 0 60 rest
  let (fraction, rest) := match mark? '.' rest with
    | none => (some [], rest)
    | some _ =>
      match secondFraction? rest with
      | some (fraction, rest) => (some fraction, rest)
      | none => (none, rest)
  let fraction ← fraction
  return (places 2 hour ++ ':' :: places 2 minute ++ ':' :: places 2 second ++ fraction, rest)

def offset? : List Char → Option (List Char × List Char)
  | c :: rest =>
    if c = 'Z' ∨ c = 'z' then some (['Z'], rest)
    else if c = '+' ∨ c = '-' then do
      let (hour, rest) ← two? 0 23 rest
      let rest ← mark? ':' rest
      let (minute, rest) ← two? 0 59 rest
      let sign := if c = '-' ∧ (hour, minute) ≠ (0, 0) then '-' else '+'
      return (sign :: places 2 hour ++ ':' :: places 2 minute, rest)
    else none
  | [] => none

def timeAfterDate? : List Char → Option (List Char × List Char)
  | c :: rest => if c = 'T' ∨ c = 't' ∨ c = ' ' then time? rest else none
  | [] => none

def read? (cs : List Char) : Option (String × List Char) :=
  match date? cs with
  | some (date, rest) =>
    match timeAfterDate? rest with
    | some (time, rest) =>
      let (offset, rest) := (offset? rest).getD ([], rest)
      some (String.ofList (date ++ 'T' :: time ++ offset), rest)
    | none => some (String.ofList date, rest)
  | none => (time? cs).map fun (time, rest) => (String.ofList time, rest)

end WifiAdvisor.Document.Toml.Datetime
