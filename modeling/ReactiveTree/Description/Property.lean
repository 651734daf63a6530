import ReactiveTree.Description.Scope

/-!
# Properties in a description

A property is given by a literal, or by a mapping with a value, a binding, a two-way link
and a transition.
-/

namespace ReactiveTree.Description

open Yaml (Node)

variable {U : Type}

namespace Load

def setLiteral (s : Nat) (path id prop : String) (kind : Kind) (n : Node) : Load U Unit := do
  let v ← literalOf path n
  match v.coerceTo kind with
  | .error e => fail path n (.coercion e)
  | .ok _ => build s (·.set id prop v)

def operatorOf (path : String) (entries : Entries) : Load U (Option (Op × Value)) := do
  match entries.get? "op" with
  | none => return none
  | some n =>
    match Op.ofSymbol? n.text with
    | none => fail (path ++ ".op") n (.unknownOperator n.text)
    | some op =>
      match entries.get? "operand" with
      | none => fail path n .missingOperand
      | some operand => return some (op, ← literalOf (path ++ ".operand") operand)

def bindTo (s : Nat) (path id prop : String) (entries : Entries) (n : Node) : Load U Unit := do
  let source ← referenceOf (path ++ ".bind") n
  requireProperty s (path ++ ".bind") n source
  let op ← operatorOf path entries
  build s (·.bind id prop (.fetch source op path))

def linkTo (s : Nat) (path id prop : String) (kind : Kind) (n : Node) : Load U Unit := do
  let path := path ++ ".twoway"
  let other ← referenceOf path n
  if 0 < other.outer then fail path n .outerLink
  changeScope s fun sc =>
    { sc with links := sc.links ++ [{ path, node := n, id, prop, kind, other }] }

def propertyKeys : List String :=
  ["type", "value", "bind", "op", "operand", "twoway", "animate"]

def property (s : Nat) (path id prop : String) (n : Node) (declared : Bool) : Load U Unit := do
  match (← definition s).lookup? id prop with
  | none => fail path n (.noProperty (← describe s id) prop)
  | some decl =>
    match n with
    | .scalar _ _ _ _ => setLiteral s path id prop decl.kind n
    | _ =>
      let entries ← entriesOf path n (some propertyKeys)
      if !declared then
        if let some t := entries.get? "type" then fail path t .typeNotAllowed
      if let some v := entries.get? "value" then
        setLiteral s (path ++ ".value") id prop decl.kind v
      if let some a := entries.get? "animate" then
        let spec ← specOf (path ++ ".animate") a
        build s (·.animate id prop spec)
      match entries.get? "bind" with
      | some b => bindTo s path id prop entries b
      | none =>
        if (entries.get? "op").isSome || (entries.get? "operand").isSome then
          fail path n .operatorWithoutBinding
      if let some t := entries.get? "twoway" then
        if (entries.get? "bind").isSome then fail path t .bindingAndLink
        linkTo s path id prop decl.kind t

def declaredType (path : String) (n : Node) : Load U String := do
  match n with
  | .scalar _ _ text _ => return text
  | .mapping _ _ _ =>
    let entries ← entriesOf path n (some propertyKeys)
    return ((entries.get? "type").map Node.text).getD ""
  | _ => fail path n .wantType

def declareProperty (s : Nat) (path : String) (key spec : Node) : Load U Unit := do
  let name := key.text
  let path := s!"{path}.{name}"
  let type ← declaredType path spec
  match kindOf? type with
  | none => fail path spec (.unknownType type)
  | some kind =>
    if ((← definition s).lookup? "" name).isSome then fail path key (.propertyExists name)
    build s (·.declare name kind .void)
    match spec with
    | .mapping _ _ _ => property s path "" name spec true
    | _ => return

def properties (s : Nat) (path : String) (n : Node) : Load U Unit := do
  (← entriesOf path n none).forM fun (key, spec) => declareProperty s path key spec

end Load

end ReactiveTree.Description
