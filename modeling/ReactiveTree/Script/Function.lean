import ReactiveTree.Scene.Meaning

/-!
# Typed functions as handlers

A handler can be an ordinary typed function. Its signature is checked against the declared
kinds of the callback when it is installed, not at every call; the arguments are then
converted to the parameter types. A function that fails has its error logged and returns
void.
-/

namespace ReactiveTree.Script

inductive HostType where
  | bool
  | int
  | int64
  | int32
  | uint8
  | uint32
  | float64
  | float32
  | string
  | duration
  | value
  | error
  | ints
  | anything
  deriving DecidableEq, Repr

namespace HostType

def name : HostType → String
  | .bool => "bool"
  | .int => "int"
  | .int64 => "int64"
  | .int32 => "int32"
  | .uint8 => "uint8"
  | .uint32 => "uint32"
  | .float64 => "float64"
  | .float32 => "float32"
  | .string => "string"
  | .duration => "time.Duration"
  | .value => "value.Value"
  | .error => "error"
  | .ints => "[]int"
  | .anything => "interface \x7b\x7d"

def accepts (t : HostType) (k : Kind) : Bool :=
  match k, t with
  | _, .value => true
  | .bool, .bool => true
  | .int, .int | .int, .int64 | .int, .int32 => true
  | .float, .float64 | .float, .float32 => true
  | .string, .string => true
  | .color, .uint32 => true
  | .duration, .duration => true
  | _, _ => false

def isResult : HostType → Bool
  | .bool | .int | .int64 | .int32 | .float64 | .float32 | .string | .duration | .value
  | .anything => true
  | _ => false

def convert (t : HostType) (v : Value) : Value :=
  match t, v with
  | .int32, .int n => .int n.toInt32.toInt64
  | .float32, .float x => .float x.toFloat32.toFloat
  | _, v => v

end HostType

structure Signature where
  parameters : List HostType
  results : List HostType := []
  variadic : Bool := false
  deriving DecidableEq, Repr

def Signature.text (s : Signature) : String :=
  let parameters := s.parameters.map fun t => (if s.variadic then "..." else "") ++ t.name
  let results := match s.results with
    | [] => ""
    | [t] => " " ++ t.name
    | ts => " (" ++ ", ".intercalate (ts.map HostType.name) ++ ")"
  "func(" ++ ", ".intercalate parameters ++ ")" ++ results

inductive Outcome where
  | value (v : Value)
  | failure (message : String)

structure Function where
  signature : Signature
  noted : Bool := false
  body : List Value → Outcome := fun _ => .value .void

namespace Function

def refused : Outcome := .failure "refused"

def doubleSingle (x : Float) : Float := (x.toFloat32 + x.toFloat32).toFloat

/-- A typed function, and whether its calls are noted. -/
def of (parameters results : List HostType) (noted : Bool) (body : List Value → Outcome) :
    Function :=
  { signature := { parameters, results }, noted, body }

def all : List Function :=
  [ { signature := { parameters := [] }, noted := true },
    of [] [.int] false fun _ => .value (.int 7),
    of [] [.error] false fun _ => refused,
    of [.int] [.int] true fun
      | [.int n] => .value (.int (n + 1))
      | _ => .value .void,
    of [.int64] [.int64] true fun
      | [.int n] => .value (.int (-n))
      | _ => .value .void,
    of [.int32] [.int32] true fun
      | [.int n] => .value (.int (n + 1).toInt32.toInt64)
      | _ => .value .void,
    { signature := { parameters := [.uint8] } },
    of [.int, .int] [.int] true fun
      | [.int a, .int b] => .value (.int (a + b))
      | _ => .value .void,
    of [.float64] [.float64] false fun
      | [.float x] => .value (.float (x * 2))
      | _ => .value .void,
    of [.float32] [.float32] false fun
      | [.float x] => .value (.float (doubleSingle x))
      | _ => .value .void,
    of [.string] [.string] false fun
      | [.string s] => .value (.string (s ++ Text.ofString "!"))
      | _ => .value .void,
    of [.bool] [.bool] false fun
      | [.bool b] => .value (.bool !b)
      | _ => .value .void,
    { signature := { parameters := [.uint32] }, noted := true },
    { signature := { parameters := [.uint32], results := [.uint32] } },
    of [.duration] [.duration] false fun
      | [.duration d] => .value (.duration (d * 2))
      | _ => .value .void,
    of [.value] [.value] true fun
      | [v] => .value v
      | _ => .value .void,
    of [.string] [.error] false fun
      | [.string s] => if s = Text.ofString "bad" then refused else .value .void
      | _ => .value .void,
    of [.string] [.string, .error] false fun
      | [.string s] =>
        if s = Text.ofString "bad" then refused else .value (.string (s ++ Text.ofString "?"))
      | _ => .value .void,
    { signature := { parameters := [.int], results := [.int, .string] } },
    { signature := { parameters := [], results := [.ints, .error] } },
    { signature := { parameters := [], results := [.int, .int, .error] } },
    { signature := { parameters := [.int], variadic := true } },
    { signature := { parameters := [], results := [.ints] } },
    of [] [.anything] false fun _ => .value (.string (Text.ofString "any")) ]

def ofText? (s : String) : Option Function := all.find? (·.signature.text == s)

def mismatch? : Nat → List HostType → List Kind → Option (Nat × HostType × Kind)
  | i, t :: ts, k :: ks => if t.accepts k then mismatch? (i + 1) ts ks else some (i, t, k)
  | _, _, _ => none

def check (s : Signature) (decl : CallbackDecl) : Except Fault Unit :=
  let context := s!"callback {decl.name}"
  let refuse (why : String) : Except Fault Unit :=
    .error (.within context (.within why .mismatch))
  let result (t : HostType) : Except Fault Unit :=
    if t.isResult then .ok () else refuse s!"unsupported result type {t.name}"
  if s.variadic || s.parameters.length ≠ decl.args.length then
    .error (.argument ⟨decl.name, none, toString decl.args.length, toString s.parameters.length⟩)
  else
    match mismatch? 0 s.parameters decl.args with
    | some (i, t, k) => .error (.argument ⟨decl.name, some i, k.name, t.name⟩)
    | none =>
      match s.results with
      | [] => .ok ()
      | [t] => if t = .error then .ok () else result t
      | [t, last] => if last = .error then result t else refuse "second result must be error"
      | _ => refuse "too many results"

def showArgument (t : HostType) (v : Value) : String :=
  match t, v with
  | .uint32, .color c => toString c.toNat
  | _, v => v.text

def call {U X : Type} (f : Function) (name : String) (args : List Value) : SceneM U X Value := do
  let types := f.signature.parameters
  let args := List.zipWith HostType.convert types args
  if f.noted then
    Act.note ("called " ++ " ".intercalate (List.zipWith showArgument types args))
  match f.body args with
  | .value v => return v
  | .failure message =>
    Act.log s!"callback {name}: {message}"
    return .void

end Function

end ReactiveTree.Script
