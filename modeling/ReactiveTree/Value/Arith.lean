import ReactiveTree.Value.Basic

/-!
# Arithmetic and order

Ints stay ints except under division; an int next to a float widens. Durations add and
subtract among themselves and scale by numbers. A string on either side of `+` joins the
texts.
-/

namespace ReactiveTree

inductive Op where
  | add
  | sub
  | mul
  | div
  deriving DecidableEq, Repr, Inhabited

def Op.symbol : Op → String
  | .add => "+"
  | .sub => "-"
  | .mul => "*"
  | .div => "/"

def Op.ofSymbol? (s : String) : Option Op :=
  [Op.add, .sub, .mul, .div].find? (·.symbol == s)

structure ArithmeticError where
  op : Op
  left : Kind
  right : Kind
  deriving DecidableEq, Repr

def ArithmeticError.message (e : ArithmeticError) : String :=
  s!"invalid operation {e.left.name} {e.op.symbol} {e.right.name}"

namespace Value

def display : Value → Text
  | .string s => s
  | .void => ⟨[]⟩
  | v => Text.ofString v.text

def arithInt (op : Op) (a b : Int64) : Value :=
  match op with
  | .add => .int (a + b)
  | .sub => .int (a - b)
  | .mul => .int (a * b)
  | .div => .float (Number.ofInt64 a / Number.ofInt64 b)

def arithFloat (op : Op) (a b : Float) : Value :=
  match op with
  | .add => .float (a + b)
  | .sub => .float (a - b)
  | .mul => .float (a * b)
  | .div => .float (a / b)

def arith? (op : Op) (l r : Value) : Option Value :=
  match l, r with
  | .int a, .int b => some (arithInt op a b)
  | .duration a, .duration b =>
    match op with
    | .add => some (.duration (a + b))
    | .sub => some (.duration (a - b))
    | .div => some (.float (Number.ofInt64 a / Number.ofInt64 b))
    | .mul => none
  | _, _ =>
    if l.isNumber && r.isNumber then some (arithFloat op l.asFloat r.asFloat)
    else
      match l, r, op with
      | .duration a, r, .mul =>
        if r.isNumber then some (.duration (Number.toInt64 (Number.ofInt64 a * r.asFloat)))
        else none
      | .duration a, r, .div =>
        if r.isNumber then some (.duration (Number.toInt64 (Number.ofInt64 a / r.asFloat)))
        else none
      | l, .duration b, .mul =>
        if l.isNumber then some (.duration (Number.toInt64 (l.asFloat * Number.ofInt64 b)))
        else none
      | _, _, _ => none

def arith (op : Op) (l r : Value) : Except ArithmeticError Value :=
  if op = .add && (l.kind = .string || r.kind = .string) then
    .ok (.string (l.display ++ r.display))
  else
    match arith? op l r with
    | some v => .ok v
    | none => .error ⟨op, l.kind, r.kind⟩

structure NegationError where
  kind : Kind
  deriving DecidableEq, Repr

def NegationError.message (e : NegationError) : String := s!"cannot negate {e.kind.name}"

def neg : Value → Except NegationError Value
  | .int n => .ok (.int (-n))
  | .float x => .ok (.float (-x))
  | .duration n => .ok (.duration (-n))
  | v => .error ⟨v.kind⟩

/-- An order from two tests; what is neither less nor greater counts as equal. -/
def ordering (less greater : Bool) : Ordering :=
  if less then .lt else if greater then .gt else .eq

/-- Orders two values of compatible kinds; `none` when they cannot be compared. Colors
compare only when equal. -/
def compare? (l r : Value) : Option Ordering :=
  match l, r with
  | .int a, .int b => some (ordering (a < b) (b < a))
  | .void, .void => some .eq
  | .bool a, .bool b => some (ordering (!a && b) (a && !b))
  | .string a, .string b => some (a.compare b)
  | .duration a, .duration b => some (ordering (a < b) (b < a))
  | .color a, .color b => if a = b then some .eq else none
  | l, r =>
    if l.isNumber && r.isNumber then
      some (ordering (l.asFloat < r.asFloat) (r.asFloat < l.asFloat))
    else none

def equal (l r : Value) : Bool := l.compare? r == some .eq

end Value

end ReactiveTree
