import ReactiveTree.Number.Shortest
import ReactiveTree.Time.Duration
import ReactiveTree.Value.Kind
import ReactiveTree.Value.Color

/-!
# Values

The loosely typed values that cells hold and callbacks pass on.
-/

namespace ReactiveTree

inductive Value where
  | void
  | bool (b : Bool)
  | int (n : Int64)
  | float (x : Float)
  | string (s : Text)
  | color (argb : UInt32)
  | duration (n : Int64)
  | other (number : UInt8)
  deriving Inhabited

namespace Value

def kind : Value → Kind
  | .void => .void
  | .bool _ => .bool
  | .int _ => .int
  | .float _ => .float
  | .string _ => .string
  | .color _ => .color
  | .duration _ => .duration
  | .other n => .other n

def zero : Kind → Value
  | .void => .void
  | .bool => .bool false
  | .int => .int 0
  | .float => .float 0
  | .string => .string ⟨[]⟩
  | .color => .color 0
  | .duration => .duration 0
  | .other n => .other n

/-- Same kind and same content: what makes a write to a cell no change. A not-a-number
differs from itself and the two zeros are the same. -/
def same : Value → Value → Bool
  | .void, .void => true
  | .bool a, .bool b => a == b
  | .int a, .int b => a == b
  | .float a, .float b => a == b
  | .string a, .string b => a == b
  | .color a, .color b => a == b
  | .duration a, .duration b => a == b
  | .other a, .other b => a == b
  | _, _ => false

def isVoid : Value → Bool
  | .void => true
  | _ => false

def isNumber : Value → Bool
  | .int _ | .float _ => true
  | _ => false

def asBool : Value → Bool
  | .bool b => b
  | _ => false

def asInt : Value → Int64
  | .int n | .duration n => n
  | .float x => Number.toInt64 x
  | _ => 0

def asFloat : Value → Float
  | .float x => x
  | .int n => Number.ofInt64 n
  | _ => 0

def asText : Value → Text
  | .string s => s
  | _ => ⟨[]⟩

def asColor : Value → UInt32
  | .color c => c
  | _ => 0

def asDuration : Value → Int64
  | .duration n => n
  | _ => 0

def text : Value → String
  | .void => "void"
  | .bool b => if b then "true" else "false"
  | .int n => toString n.toInt
  | .float x => Number.showFloat x
  | .string s => s.quote
  | .color c => Color.format c
  | .duration n => showDuration n
  | .other n => s!"value({n.toNat})"

@[simp] theorem kind_zero (k : Kind) : (zero k).kind = k := by cases k <;> rfl

end Value

end ReactiveTree
