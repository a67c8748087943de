/-!
Kinds of things whose members each have a name of their own, by which text formats refer to them.
Two members never share a name, so reading a name gives back the member it was written for.
-/

namespace WifiAdvisor

class Named (α : Type) where
  /-- Every member, in the order in which messages list them. -/
  all : List α
  name : α → String
  find_name : ∀ a, all.find? (fun b => name b == name a) = some a

namespace Named

variable {α : Type} [Named α]

def ofName? (s : String) : Option α := (all : List α).find? fun a => name a == s

def names (α : Type) [Named α] : List String := (all : List α).map name

@[simp] theorem ofName?_name (a : α) : ofName? (name a) = some a := find_name a

end Named

end WifiAdvisor
