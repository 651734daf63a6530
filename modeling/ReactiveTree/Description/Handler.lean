import ReactiveTree.Description.Scope

/-!
# Callbacks and handlers in a description

A handler is an action or a list of them.
-/

namespace ReactiveTree.Description

open Yaml (Node)

variable {U : Type}

namespace Load

def actionKeys : List String := ["increment", "toggle", "set", "value", "emit"]

def targetOf (s : Nat) (path : String) (n : Node) : Load U Reference := do
  let r ← referenceOf path n
  requireProperty s path n r
  return r

def emitOf (s : Nat) (path : String) (n : Node) : Load U ActionTemplate := do
  let place := path ++ ".emit"
  let r ← referenceOf place n
  if r.id ≠ "" then fail place n .emitsElement
  match ← outward s r.outer with
  | none => fail place n (.pastOutermost r)
  | some target =>
    requireCallback target place n r.prop
    return .emit r.outer r.prop path

def action (s : Nat) (path : String) (n : Node) : Load U ActionTemplate := do
  let entries ← entriesOf path n (some actionKeys)
  if let some r := entries.get? "increment" then
    return .increment (← targetOf s (path ++ ".increment") r) path
  if let some r := entries.get? "toggle" then
    return .toggle (← targetOf s (path ++ ".toggle") r)
  if let some r := entries.get? "set" then
    let target ← targetOf s (path ++ ".set") r
    match entries.get? "value" with
    | none => fail path n .missingValue
    | some v => return .set target (← literalOf (path ++ ".value") v)
  if let some e := entries.get? "emit" then return ← emitOf s path e
  fail path n .emptyAction

def handler (s : Nat) (path id name : String) (n : Node) : Load U Unit := do
  if ((← definition s).callbackArgs? id name).isNone then
    fail path n (.noCallback (← describe s id) name)
  let nodes := match n with
    | .sequence _ _ items => items
    | _ => [n]
  let steps ← nodes.zipIdx.mapM fun (n, i) => action s (indexed path i) n
  build s (·.onCallback id name (.actions steps))

def argumentKinds (path : String) (n : Node) : Load U (List Kind) := do
  (← listOf path n).zipIdx.mapM fun (n, i) =>
    match kindOf? n.text with
    | some k => pure k
    | none => fail (indexed path i) n (.unknownType n.text)

def callbackParts (path : String) (spec : Node) : Load U (Option Node × Option Node) := do
  match spec with
  | .sequence _ _ _ => return (some spec, none)
  | .mapping _ _ _ =>
    let entries ← entriesOf path spec (some ["args", "do"])
    return (entries.get? "args", entries.get? "do")
  | .scalar _ tag _ _ =>
    if tag = "!!null" then return (none, none) else fail path spec .wantArgumentTypes
  | .aliasOf _ _ _ => return (none, none)

def declareCallback (s : Nat) (path : String) (key spec : Node) : Load U Unit := do
  let name := key.text
  let path := s!"{path}.{name}"
  let (args, body) ← callbackParts path spec
  let kinds ← match args with
    | some n => argumentKinds (path ++ ".args") n
    | none => pure []
  if ((← definition s).callbackArgs? "" name).isSome then fail path key (.callbackExists name)
  build s (·.declareCallback name kinds)
  match body with
  | some n => handler s (path ++ ".do") "" name n
  | none => return

def callbacks (s : Nat) (path : String) (n : Node) : Load U Unit := do
  (← entriesOf path n none).forM fun (key, spec) => declareCallback s path key spec

end Load

end ReactiveTree.Description
