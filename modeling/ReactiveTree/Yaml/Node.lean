import ReactiveTree.Yaml.Scalar

/-!
# YAML nodes

The tree a document stands for. Lines count from one. Nodes with an anchor are numbered, so
that an alias can refer to a node that contains it.
-/

namespace ReactiveTree.Yaml

inductive Node where
  | scalar (line : Nat) (tag : Text) (text : String) (anchor : Option Nat)
  | sequence (line : Nat) (tag : Text) (items : List Node)
  | mapping (line : Nat) (tag : Text) (entries : List (Node × Node))
  | aliasOf (line : Nat) (name : String) (target : Nat)
  deriving Inhabited

structure Document where
  root : Node
  anchored : Array Node

namespace Node

def line : Node → Nat
  | scalar line _ _ _ | sequence line _ _ | mapping line _ _ | aliasOf line _ _ => line

def text : Node → String
  | scalar _ _ text _ => text
  | aliasOf _ name _ => name
  | _ => ""

def anchor? : Node → Option Nat
  | scalar _ _ _ anchor => anchor
  | _ => none

def withText (text : String) : Node → Node
  | scalar line tag _ anchor => scalar line tag text anchor
  | node => node

def height : Node → Nat
  | scalar _ _ _ _ => 1
  | aliasOf _ _ _ => 1
  | sequence _ _ items => heightOfItems items + 1
  | mapping _ _ entries => heightOfEntries entries + 1
where
  heightOfItems : List Node → Nat
    | [] => 0
    | item :: rest => max item.height (heightOfItems rest)
  heightOfEntries : List (Node × Node) → Nat
    | [] => 0
    | (key, value) :: rest => max (max key.height value.height) (heightOfEntries rest)

/-! ## Counts -/

def sameKey : Node → Node → Bool
  | scalar _ _ a _, scalar _ _ b _ => a = b
  | sequence _ _ _, sequence _ _ _ => true
  | mapping _ _ _, mapping _ _ _ => true
  | aliasOf _ a _, aliasOf _ b _ => a = b
  | _, _ => false

def repeatedKeys : List Node → List (Nat × String × Nat)
  | [] => []
  | key :: rest =>
    (rest.filter key.sameKey).map (fun other => (other.line, other.text, key.line))
      ++ repeatedKeys rest

def countOf : Node → Except DecodeError Int64
  | scalar line tag text _ => do
    let unfit := DecodeError.unfit line tag text "int"
    if tag = "!!binary" && !isBase64 text then throw .malformedBinary
    match ← resolve tag text with
    | .null => return 0
    | .int n => if n ≤ Number.greatest false then return Int64.ofInt n else throw unfit
    | .float x => if x ≤ 9223372036854775808 then return Number.toInt64 x else throw unfit
    | _ => throw unfit
  | sequence line tag _ => .error (.unfit line tag "" "int")
  | mapping line tag entries =>
    match repeatedKeys (entries.map (·.1)) with
    | [] => .error (.unfit line tag "" "int")
    | keys => .error (.duplicateKeys keys)
  | aliasOf _ _ _ => .ok 0

def toCount (anchored : Array Node) : Node → Except DecodeError Int64
  | aliasOf line name target => (anchored[target]?.getD (aliasOf line name target)).countOf
  | node => node.countOf

end Node

end ReactiveTree.Yaml
