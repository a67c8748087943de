import WifiAdvisor.Text.Digits
/-!
The four ways in which a TOML text can quote a string: between double quotes, with escapes, or
between single quotes, as it stands; and each of them on one line, between single marks, or on any
number of lines, between triple ones. A reader takes the characters left in the text and gives back
what it read with the characters left after it.
-/

namespace WifiAdvisor.Document.Toml

def isBlank (c : Char) : Bool := c = ' ' || c = '\t'

def skipBlanks (cs : List Char) : List Char := cs.dropWhile isBlank

/-- Characters that may stand in a comment or a string: any but controls, a tab excepted. -/
def isPlain (c : Char) : Bool := c = '\t' || (0x20 ≤ c.toNat && c.toNat != 0x7F)

/-- A line feed, or a carriage return with a line feed. -/
def newline? : List Char → Option (List Char)
  | '\n' :: rest => some rest
  | '\r' :: '\n' :: rest => some rest
  | _ => none

namespace Quotation

/-- The character with the code that the digits write. -/
def ofHex? (digits : List Char) : Option Char := do
  let code ← digits.foldlM (fun n c => (Text.hexDigit? c).map (n * 16 + ·)) 0
  if h : code.isValidChar then some (.ofNatAux code h) else none

/-- The character of an escape, after its backslash. -/
def escaped? : List Char → Option (Char × List Char)
  | 'b' :: rest => some ('\x08', rest)
  | 't' :: rest => some ('\t', rest)
  | 'n' :: rest => some ('\n', rest)
  | 'f' :: rest => some ('\x0c', rest)
  | 'r' :: rest => some ('\r', rest)
  | '"' :: rest => some ('"', rest)
  | '\\' :: rest => some ('\\', rest)
  | 'u' :: rest =>
    if rest.length < 4 then none else (ofHex? (rest.take 4)).map fun c => (c, rest.drop 4)
  | 'U' :: rest =>
    if rest.length < 8 then none else (ofHex? (rest.take 8)).map fun c => (c, rest.drop 8)
  | _ => none

def skipSpace (fuel : Nat) (cs : List Char) : List Char :=
  match fuel with
  | 0 => cs
  | fuel + 1 =>
    let cs := skipBlanks cs
    match newline? cs with
    | some rest => skipSpace fuel rest
    | none => cs

/-- A backslash at the end of a line takes the space before the next character with it. -/
def lineFold? (cs : List Char) : Option (List Char) :=
  (newline? (skipBlanks cs)).map fun rest => skipSpace rest.length rest

structure Mark where
  quote : Char
  /-- Whether a backslash begins an escape. -/
  escapes : Bool
  /-- Whether the string may extend over lines. -/
  multiline : Bool

/-- The closing mark at the front, with the quotes before it that belong to the string: the last
three of up to five close a string of several lines. -/
def closing? (mark : Mark) (cs : List Char) : Option (List Char × List Char) :=
  let quotes := cs.takeWhile (· = mark.quote)
  if mark.multiline then
    if quotes.length < 3 then none
    else
      let inside := min (quotes.length - 3) 2
      some (quotes.take inside, cs.drop (inside + 3))
  else if quotes.isEmpty then none
  else some ([], cs.drop 1)

/-- Reads on in a string of which `acc` was read, last character first. -/
def readRest (mark : Mark) : Nat → List Char → List Char → Option (String × List Char)
  | 0, _, _ => none
  | fuel + 1, acc, cs =>
    match closing? mark cs with
    | some (inside, rest) => some (String.ofList (acc.reverse ++ inside), rest)
    | none =>
      match cs with
      | [] => none
      | c :: rest =>
        if mark.escapes && c = '\\' then
          match (if mark.multiline then lineFold? rest else none) with
          | some rest => readRest mark fuel acc rest
          | none => do
            let (e, rest) ← escaped? rest
            readRest mark fuel (e :: acc) rest
        else if isPlain c then readRest mark fuel (c :: acc) rest
        else if mark.multiline then do
          let rest ← newline? cs
          readRest mark fuel ('\n' :: acc) rest
        else none

/-- Reads a string after its opening mark; a line end right after it does not count. -/
def readBody (mark : Mark) (cs : List Char) : Option (String × List Char) :=
  let cs := if mark.multiline then (newline? cs).getD cs else cs
  readRest mark (cs.length + 1) [] cs

def readLine? : List Char → Option (String × List Char)
  | '"' :: rest => readBody ⟨'"', true, false⟩ rest
  | '\'' :: rest => readBody ⟨'\'', false, false⟩ rest
  | _ => none

def read? : List Char → Option (String × List Char)
  | '"' :: '"' :: '"' :: rest => readBody ⟨'"', true, true⟩ rest
  | '\'' :: '\'' :: '\'' :: rest => readBody ⟨'\'', false, true⟩ rest
  | cs => readLine? cs

end Quotation

end WifiAdvisor.Document.Toml
