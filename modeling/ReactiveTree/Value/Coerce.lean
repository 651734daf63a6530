import ReactiveTree.Value.Basic

/-!
# Conversion between kinds

| from \ to | bool  | int   | float | string      | color | duration     |
|-----------|-------|-------|-------|-------------|-------|--------------|
| void      | false | 0     | 0     | empty       | 0     | 0            |
| bool      | =     | -     | -     | `true`      | -     | -            |
| int       | -     | =     | widen | decimal     | -     | milliseconds |
| float     | -     | trunc | =     | shortest    | -     | milliseconds |
| string    | read  | read  | read  | =           | read  | read         |
| color     | -     | -     | -     | `#aarrggbb` | =     | -            |
| duration  | -     | ms    | ms    | duration    | -     | =            |
-/

namespace ReactiveTree

inductive CoercionFault where
  | unsupported
  | notBoolean
  | notNumber
  | notFinite
  | outOfRange
  | notColor (cause : Color.ReadError)
  | notDuration
  deriving DecidableEq, Repr

structure CoercionError where
  value : Value
  target : Kind
  fault : CoercionFault

def CoercionFault.message : CoercionFault → String
  | .unsupported => ""
  | .notBoolean => "not a boolean"
  | .notNumber => "not a number"
  | .notFinite => "not finite"
  | .outOfRange => "out of range"
  | .notColor cause => cause.message
  | .notDuration => "not a duration"

def CoercionError.message (e : CoercionError) : String :=
  let start := s!"cannot convert {e.value.kind.name} {e.value.text} to {e.target.name}"
  let reason := e.fault.message
  if reason.isEmpty then start else s!"{start}: {reason}"

namespace Value

def readBool? (s : String) : Option Bool :=
  if ["1", "t", "T", "TRUE", "true", "True"].contains s then some true
  else if ["0", "f", "F", "FALSE", "false", "False"].contains s then some false
  else none

def literal? (s : Text) : Option (List Char) := s.trim.toString?.map String.toList

def readFloat? (s : Text) : Option Float :=
  match literal? s with
  | some cs => (Number.readFloat cs).toOption
  | none => none

/-- A float as an int: its integer part, if it is finite and in range. The bounds are the
doubles nearest to the ends of the range, themselves left out. -/
def floatToInt (x : Float) : Except CoercionFault Int64 :=
  if x.isNaN || x.isInf then .error .notFinite
  else if Float.ofInt (-Number.leastInt64) ≤ x || x ≤ Float.ofInt Number.leastInt64 then .error
    .outOfRange
  else .ok (Number.toInt64 x)

def nsPerMs : Int64 := 1000000

def coerce (v : Value) (k : Kind) : Except CoercionError Value :=
  if v.kind = k then .ok v
  else
    let fail (fault : CoercionFault) : Except CoercionError Value := .error ⟨v, k, fault⟩
    match v, k with
    | .void, k => .ok (zero k)
    | _, .void => .ok .void
    | .string s, .bool =>
      match (literal? s).bind fun cs => readBool? (String.ofList cs) with
      | some b => .ok (.bool b)
      | none => fail .notBoolean
    | .float x, .int =>
      match floatToInt x with
      | .ok n => .ok (.int n)
      | .error fault => fail fault
    | .string s, .int =>
      match (literal? s).bind Number.readInt? with
      | some n => .ok (.int (Int64.ofInt n))
      | none =>
        match readFloat? s with
        | none => fail .notNumber
        | some x =>
          match floatToInt x with
          | .ok n => .ok (.int n)
          | .error fault => .error ⟨.float x, .int, fault⟩
    | .duration n, .int => .ok (.int (n / nsPerMs))
    | .int n, .float => .ok (.float (Number.ofInt64 n))
    | .string s, .float =>
      match readFloat? s with
      | some x => .ok (.float x)
      | none => fail .notNumber
    | .duration n, .float => .ok (.float (Number.ofInt64 n / Number.ofInt64 nsPerMs))
    | .bool _, .string | .int _, .string | .float _, .string | .color _, .string
    | .duration _, .string => .ok (.string (Text.ofString v.text))
    | .string s, .color =>
      match Color.read s with
      | .ok c => .ok (.color c)
      | .error cause => fail (.notColor cause)
    | .int n, .duration => .ok (.duration (n * nsPerMs))
    | .float x, .duration =>
      if x.isNaN || x.isInf then fail .notFinite
      else .ok (.duration (Number.toInt64 (x * Number.ofInt64 nsPerMs)))
    | .string s, .duration =>
      match (literal? s).bind fun cs => (Duration.read cs).toOption with
      | some n => .ok (.duration (Int64.ofInt n))
      | none => fail .notDuration
    | _, _ => fail .unsupported

def coerceTo (v : Value) (k : Kind) : Except CoercionError Value :=
  if k = .void then .ok v else v.coerce k

end Value

end ReactiveTree
