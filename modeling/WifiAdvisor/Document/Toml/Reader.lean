import WifiAdvisor.Document.Toml.Datetime
import WifiAdvisor.Document.Toml.Quotation
import WifiAdvisor.Document.Toml.Table
/-!
Reading TOML text. Every reader takes the characters left and gives back what it read with the
characters left after it, or nothing if the text is wrong; where it is wrong is not reported.
-/

namespace WifiAdvisor.Document.Toml

/-- Names in a dotted key, and brackets within brackets, stay below this number. -/
def nestingLimit : Nat := 80

/-- Letters that a name may hold without quotes. -/
def isBare (c : Char) : Bool := c.isAlphanum || c = '_' || c = '-'

def name? : List Char → Option (String × List Char)
  | '"' :: rest => Quotation.readLine? ('"' :: rest)
  | '\'' :: rest => Quotation.readLine? ('\'' :: rest)
  | cs =>
    let bare := cs.takeWhile isBare
    if bare.isEmpty then none else some (String.ofList bare, cs.drop bare.length)

/-- Names with points between them, of which `acc` was read, last name first. -/
def namesAfter (acc : List String) : Nat → List Char → Option (List String × List Char)
  | 0, _ => none
  | fuel + 1, cs => do
    let (name, rest) ← name? (skipBlanks cs)
    match skipBlanks rest with
    | '.' :: rest => namesAfter (name :: acc) fuel rest
    | rest => return (name :: acc, rest)

/-- A key: the names that lead to a table, and the name in that table. -/
def key? (cs : List Char) : Option (List String × String × List Char) :=
  match namesAfter [] (nestingLimit - 1) cs with
  | some (name :: path, rest) => some (path.reverse, name, rest)
  | _ => none

def skipComment : List Char → List Char
  | '#' :: rest => rest.dropWhile isPlain
  | cs => cs

/-- The end of a line, or of the text, after blanks and a comment. -/
def lineEnd? (cs : List Char) : Option (List Char) :=
  match skipComment (skipBlanks cs) with
  | [] => some []
  | rest => newline? rest

/-- Passes over blanks, comments and line ends; a comment ends with its line or with the text. -/
def skipLines? : Nat → List Char → Option (List Char)
  | 0, cs => some cs
  | fuel + 1, cs =>
    match skipBlanks cs with
    | '#' :: rest =>
      match rest.dropWhile isPlain with
      | [] => some []
      | rest => do
        let rest ← newline? rest
        skipLines? fuel rest
    | rest =>
      match newline? rest with
      | some rest => skipLines? fuel rest
      | none => some rest

def word? (word : List Char) (v : Value) (cs : List Char) : Option (Value × List Char) :=
  if word.isPrefixOf cs then some (v, cs.drop word.length) else none

mutual

/-- Reads a value inside `depth` brackets. -/
def value? (depth : Nat) : Nat → List Char → Option (Value × List Char)
  | 0, _ => none
  | _ + 1, [] => none
  | fuel + 1, c :: rest =>
    if c = '"' || c = '\'' then (Quotation.read? (c :: rest)).map fun (s, rest) => (.string s, rest)
    else if c = '[' then
      if nestingLimit ≤ depth + 1 then none else items? (depth + 1) [] fuel rest
    else if c = '\x7b' then
      if nestingLimit ≤ depth + 1 then none else pairs? (depth + 1) [] fuel rest
    else if c = 't' then word? ['t', 'r', 'u', 'e'] (.bool true) (c :: rest)
    else if c = 'f' then word? ['f', 'a', 'l', 's', 'e'] (.bool false) (c :: rest)
    else
      match Datetime.read? (c :: rest) with
      | some (s, rest) => some (.datetime s, rest)
      | none => (Numeral.read? (c :: rest)).map fun (n, rest) => (.number n, rest)

/-- Reads on in an array of which `acc` was read, last item first, and before an item. -/
def items? (depth : Nat) (acc : List Value) : Nat → List Char → Option (Value × List Char)
  | 0, _ => none
  | fuel + 1, cs => do
    match ← skipLines? cs.length cs with
    | ']' :: rest => return (.array acc.reverse, rest)
    | cs =>
      let (v, rest) ← value? depth fuel cs
      match ← skipLines? rest.length rest with
      | ']' :: rest => return (.array (v :: acc).reverse, rest)
      | ',' :: rest => items? depth (v :: acc) fuel rest
      | _ => none

/-- Reads on in an inline table of which `acc` was read, last entry first. -/
def pairs? (depth : Nat) (acc : List Entry) : Nat → List Char → Option (Value × List Char)
  | 0, _ => none
  | fuel + 1, cs => do
    match skipBlanks cs, acc with
    | '\x7d' :: rest, [] => return (.object [], rest)
    | cs, acc =>
      let (path, name, rest) ← key? cs
      match rest with
      | '=' :: rest =>
        let (v, rest) ← value? depth fuel (skipBlanks rest)
        let acc := { path, name, value := v } :: acc
        match skipBlanks rest with
        | '\x7d' :: rest =>
          let v ← assemble? acc.reverse []
          return (v, rest)
        | ',' :: rest => pairs? depth acc fuel rest
        | _ => none
      | _ => none

end

def entry? (cs : List Char) : Option (Entry × List Char) := do
  let (path, name, rest) ← key? cs
  match rest with
  | '=' :: rest =>
    let (v, rest) ← value? 0 (2 * rest.length + 2) (skipBlanks rest)
    let rest ← lineEnd? rest
    return ({ path, name, value := v }, rest)
  | _ => none

def header? : List Char → Option (Section × List Char)
  | '[' :: '[' :: rest => do
    let (path, name, rest) ← key? rest
    match rest with
    | ']' :: ']' :: rest =>
      let rest ← lineEnd? rest
      return ({ path, name, repeated := true, entries := [] }, rest)
    | _ => none
  | '[' :: rest => do
    let (path, name, rest) ← key? rest
    match rest with
    | ']' :: rest =>
      let rest ← lineEnd? rest
      return ({ path, name, repeated := false, entries := [] }, rest)
    | _ => none
  | _ => none

def entries? (acc : List Entry) : Nat → List Char → Option (List Entry × List Char)
  | 0, _ => none
  | fuel + 1, cs =>
    match skipLines? cs.length cs with
    | none => none
    | some [] => some (acc.reverse, [])
    | some ('[' :: rest) => some (acc.reverse, '[' :: rest)
    | some cs => do
      let (e, rest) ← entry? cs
      entries? (e :: acc) fuel rest

def sections? (acc : List Section) : Nat → List Char → Option (List Section)
  | 0, _ => none
  | _ + 1, [] => some acc.reverse
  | fuel + 1, cs => do
    let (s, rest) ← header? cs
    let (entries, rest) ← entries? [] (rest.length + 1) rest
    sections? ({ s with entries } :: acc) fuel rest

/-- A byte order mark at the start does not count. -/
def skipOrderMark : List Char → List Char
  | '\uFEFF' :: rest => rest
  | cs => cs

def parse? (text : String) : Option Value := do
  let cs := skipOrderMark text.toList
  let (entries, rest) ← entries? [] (cs.length + 1) cs
  let sections ← sections? [] (rest.length + 1) rest
  assemble? entries sections

end WifiAdvisor.Document.Toml
