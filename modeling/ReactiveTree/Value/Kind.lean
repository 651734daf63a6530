/-!
# Kinds of value

The seven kinds a value can have, and their names in descriptions. A number outside them
is kept as such: it names a kind nobody declared.
-/

namespace ReactiveTree

inductive Kind where
  | void
  | bool
  | int
  | float
  | string
  | color
  | duration
  | other (number : UInt8)
  deriving DecidableEq, Repr, Inhabited

namespace Kind

def declared : List Kind := [.void, .bool, .int, .float, .string, .color, .duration]

def ofNumber (n : UInt8) : Kind := declared.getD n.toNat (.other n)

def name : Kind → String
  | .void => "void"
  | .bool => "bool"
  | .int => "int"
  | .float => "float"
  | .string => "string"
  | .color => "color"
  | .duration => "duration"
  | .other n => s!"kind({n.toNat})"

def ofName? (s : String) : Option Kind :=
  match declared.find? (·.name == s) with
  | some k => some k
  | none =>
    if s = "number" || s = "length" then some .float
    else if s = "integer" then some .int
    else if s = "brush" then some .color
    else none

end Kind

end ReactiveTree
