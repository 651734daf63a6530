import ReactiveTree.Description.Entries

/-!
# Scopes of a description

Each template of a repeater is a definition of its own inside the one around it. References
may point forward and outward, so they are checked when all definitions are complete: a
check is kept as data until then.
-/

namespace ReactiveTree.Description

open Yaml (Node)

/-- A link, made when all properties are known. -/
structure PendingLink where
  path : String
  node : Node
  id : String
  prop : String
  kind : Kind
  other : Reference

structure Scope (U : Type) where
  definition : Definition U
  outer : Option Nat := none
  links : List PendingLink := []

instance {U : Type} : Inhabited (Scope U) := ⟨⟨default, none, []⟩⟩

inductive Requirement where
  | property (r : Reference)
  | callback (name : String)

/-- What has to exist when all is read. -/
structure Check where
  path : String
  node : Node
  scope : Option Nat
  requirement : Requirement

structure Loading (U : Type) where
  scopes : List (Scope U) := []
  checks : List Check := []
  anchored : Array Node := #[]

abbrev Load (U : Type) := StateT (Loading U) (Except DescriptionError)

variable {U : Type}

namespace Load

def fail {α : Type} (path : String) (n : Node) (flaw : Flaw) : Load U α :=
  throw { path, line := n.line, flaw }

def openScope (s : Scope U) : Load U Nat := do
  let st ← get
  set { st with scopes := st.scopes ++ [s] }
  return st.scopes.length

def scope (s : Nat) : Load U (Scope U) := do return (← get).scopes.getD s default

def definition (s : Nat) : Load U (Definition U) := do return (← scope s).definition

def changeScope (s : Nat) (f : Scope U → Scope U) : Load U Unit :=
  modify fun st => { st with scopes := st.scopes.modify s f }

def build (s : Nat) (f : Definition U → Definition U) : Load U Unit :=
  changeScope s fun sc => { sc with definition := f sc.definition }

/-- The scope `n` levels out. -/
def outward (s : Nat) : (n : Nat) → Load U (Option Nat)
  | 0 => return some s
  | n + 1 => do
    match (← scope s).outer with
    | some o => outward o n
    | none => return none

def requireProperty (s : Nat) (path : String) (node : Node) (r : Reference) : Load U Unit := do
  let check := { path, node, scope := ← outward s r.outer, requirement := .property r }
  modify fun st => { st with checks := st.checks ++ [check] }

def requireCallback (s : Nat) (path : String) (node : Node) (name : String) : Load U Unit := do
  let check := { path, node, scope := some s, requirement := .callback name }
  modify fun st => { st with checks := st.checks ++ [check] }

def describe (s : Nat) (id : String) : Load U String := do
  let name := (← definition s).name
  return if id = "" then name else s!"{name} element {quoteString id}"

def link (s : Nat) : Load U Unit := do
  (← scope s).links.forM fun l => do
    let d ← definition s
    match d.lookup? l.other.id l.other.prop with
    | none => fail l.path l.node (.unknownProperty l.other)
    | some other =>
      if other.kind ≠ l.kind then
        fail l.path l.node (.linkKinds l.prop l.kind l.other other.kind)
      let linked := d.twoWay l.id l.prop l.other.id l.other.prop
      match d.fault, linked.fault with
      | none, some f => fail l.path l.node (.fault f)
      | _, _ => build s fun _ => linked

end Load

def Check.run (scopes : List (Scope U)) (c : Check) : Except DescriptionError Unit :=
  let fail (flaw : Flaw) : Except DescriptionError Unit := refuse c.path c.node flaw
  let definition? := (c.scope.bind (scopes[·]?)).map (·.definition)
  match c.requirement, definition? with
  | .property r, none => fail (.pastOutermost r)
  | .property r, some d =>
    if (d.lookup? r.id r.prop).isSome then .ok () else fail (.unknownProperty r)
  | .callback name, none => fail (.unknownCallback name)
  | .callback name, some d =>
    match d.callbackArgs? "" name with
    | none => fail (.unknownCallback name)
    | some args => if args.isEmpty then .ok () else fail (.callbackArguments name)

end ReactiveTree.Description
