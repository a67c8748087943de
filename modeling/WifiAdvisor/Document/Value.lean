import WifiAdvisor.Decimal.Shortest
/-!
Values as text formats deliver them. A text may stop being readable half-way; then the value says
where, so that whoever reads its parts in order meets the sound ones first and the fault in its
place.
-/

namespace WifiAdvisor.Document

/-- Why reading stopped: the text is wrong, or it ended too early. -/
inductive Fault where
  | malformed
  | ended
  /-- Ended inside a number, where one digit more was due. -/
  | endedInNumber
  /-- Ended inside one of the words `true` and `false`. -/
  | endedInWord
  /-- Ended inside the word `null`. -/
  | endedInNull
  deriving DecidableEq, Inhabited, Repr

inductive Ending where
  | closed
  | stopped (why : Fault)
  deriving DecidableEq, Inhabited, Repr

inductive Number where
  | integer (i : Int)
  | real (x : Decimal.Binary64)
  /-- Beyond the largest double-precision number. -/
  | tooLarge
  deriving DecidableEq, Inhabited, Repr

mutual

inductive Value where
  | null
  | bool (b : Bool)
  | number (n : Number)
  | string (s : String)
  /-- A string with an escape that stands for no character. -/
  | garbled (ending : Ending)
  /-- A date or a time of day, in its normal spelling. -/
  | datetime (s : String)
  | array (items : List Value) (ending : Ending := .closed)
  | object (members : List (Name × Value)) (ending : Ending := .closed)
  /-- Nothing readable stands here. -/
  | stopped (why : Fault)
  deriving Inhabited, Repr

/-- The name of a member, as far as it could be read. The head of a name is how it is written up to
its first quote, backslash or control character, that one included. -/
inductive Name where
  /-- Written as it reads. -/
  | plain (text : String)
  /-- Written with escapes; without a text if one of them stands for no character. -/
  | escaped (head : List Char) (text : Option String)
  /-- Reading stopped inside, after an escape that stands for no character or without one. -/
  | stopped (head : List Char) (garbled : Bool) (why : Fault)
  /-- Something else stands where a name has to be. -/
  | unquoted (v : Value)
  deriving Inhabited, Repr

end

instance : Coe String Name := ⟨.plain⟩

namespace Name

/-- The text of a name, or why there is none. -/
def text : Name → Except Fault String
  | .plain s => .ok s
  | .escaped _ (some s) => .ok s
  | .escaped _ none => .error .malformed
  | .stopped _ garbled why => .error (if garbled then .malformed else why)
  | .unquoted _ => .error .malformed

/-- Passes over a name: only where it ends matters. -/
def passOver : Name → Except Fault Unit
  | .plain _ | .escaped _ _ => .ok ()
  | .stopped _ _ why => .error why
  | .unquoted _ => .error .malformed

def head : Name → List Char
  | .plain s => s.toList ++ ['"']
  | .escaped cs _ | .stopped cs _ _ => cs
  | .unquoted _ => []

def reads (s : String) : Name → Bool
  | .plain t | .escaped _ (some t) => t = s
  | _ => false

end Name

namespace Value

def int (i : Int) : Value := .number (.integer i)

def nat (n : Nat) : Value := int n

def option {α : Type} (f : α → Value) : Option α → Value
  | some a => f a
  | none => .null

def list {α : Type} (f : α → Value) (l : List α) : Value := .array (l.map f)

def texts (l : List String) : Value := list .string l

end Value

def lookup (name : String) : List (Name × Value) → Option Value
  | [] => none
  | (k, v) :: rest => if k.reads name then some v else lookup name rest

namespace Fault

/-- The fault as it shows when the value is passed over: a number that is passed over is not read
to its end, so a missing digit is an error of spelling. -/
def passedOver : Fault → Fault
  | .endedInNumber => .malformed
  | .endedInWord | .endedInNull => .ended
  | f => f

def isEnd : Fault → Bool
  | .malformed => false
  | _ => true

end Fault

namespace Ending

def passOver : Ending → Except Fault Unit
  | .closed => .ok ()
  | .stopped why => .error why.passedOver

def check : Ending → Except Fault Unit
  | .closed => .ok ()
  | .stopped why => .error why

end Ending

mutual

def Value.passOver : Value → Except Fault Unit
  | .stopped why => .error why.passedOver
  | .garbled ending => ending.passOver
  | .array items ending => do
    passOverItems items
    ending.passOver
  | .object members ending => do
    passOverMembers members
    ending.passOver
  | _ => .ok ()

def passOverItems : List Value → Except Fault Unit
  | [] => .ok ()
  | v :: rest => do
    v.passOver
    passOverItems rest

def passOverMembers : List (Name × Value) → Except Fault Unit
  | [] => .ok ()
  | (k, v) :: rest => do
    k.passOver
    v.passOver
    passOverMembers rest

end

mutual

/-- Sets a value aside whole, with room for fewer than `room` levels of brackets. -/
def Value.setAside (room : Nat) : Value → Except Fault Unit
  | .stopped why => .error why
  | .garbled _ => .error .malformed
  | .number .tooLarge => .error .malformed
  | .array items ending =>
    if room ≤ 1 then .error .malformed
    else do
      setAsideItems (room - 1) items
      ending.check
  | .object members ending =>
    if room ≤ 1 then .error .malformed
    else do
      setAsideMembers (room - 1) members
      ending.check
  | _ => .ok ()

def setAsideItems (room : Nat) : List Value → Except Fault Unit
  | [] => .ok ()
  | v :: rest => do
    v.setAside room
    setAsideItems room rest

def setAsideMembers (room : Nat) : List (Name × Value) → Except Fault Unit
  | [] => .ok ()
  | (k, v) :: rest => do
    let _ ← k.text
    v.setAside room
    setAsideMembers room rest

end

end WifiAdvisor.Document
