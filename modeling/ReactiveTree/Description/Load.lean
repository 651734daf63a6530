import ReactiveTree.Description.Handler
import ReactiveTree.Description.Property

/-!
# From a description to a definition

The elements are made first, so that everything else may refer to them in any order: then
come declared properties and callbacks, then what the elements say about their properties,
handlers and repeaters. Links and references are looked at last.
-/

namespace ReactiveTree.Description

open Yaml (Node)

variable {U : Type}

namespace Load

def elementKeys : List String := ["kind", "id", "props", "children", "on"]

def kindOf (path : String) (n : Node) (entries : Entries) : Load U ItemKind := do
  match entries.get? "kind" with
  | none => fail path n .missingKind
  | some k =>
    let name ← scalarOf (path ++ ".kind") k
    match ItemKind.ofName? name with
    | some kind => return kind
    | none => fail (path ++ ".kind") k (.unknownKind name)

/-- The id of an element, by which an alias of it goes too. -/
def nameElement (path : String) (entries : Entries) : Load U String := do
  let id := elementId path entries
  if let some n := entries.get? "id" then
    let _ ← scalarOf (path ++ ".id") n
    if let some k := n.anchor? then
      modify fun st => { st with anchored := st.anchored.modify k (·.withText id) }
  return id

/-- Makes the elements, without the repeated ones. -/
def tree (s : Nat) : (limit : Nat) → (path : String) → Node → (parent : Option String) → Load U Unit
  | 0, path, n, _ => fail path n .tooDeep
  | limit + 1, path, n, parent => do
    let entries ← entriesOf path n (some elementKeys)
    let kind ← kindOf path n entries
    let id ← nameElement path entries
    if (← definition s).hasItem id then fail (path ++ ".id") n (.duplicateId id)
    match parent with
    | none => build s (·.root kind.number id)
    | some p => build s (·.child p kind.number id)
    if let some c := entries.get? "children" then
      (← listOf (path ++ ".children") c).zipIdx.forM fun (child, i) =>
        if isRepeat child then pure ()
        else tree s limit (indexed (path ++ ".children") i) child (some id)

/-- What a repeater goes over. -/
def rowsOf (s : Nat) (path : String) (n : Node) : Load U (ModelTemplate U) := do
  match ← entriesOf path n (some ["count", "rows", "property"]) with
  | [(key, source)] =>
    let place := s!"{path}.{key.text}"
    if key.text = "count" then
      match source.toCount (← get).anchored with
      | .ok count => return .count count
      | .error e => fail place source (.undecodable e)
    else if key.text = "rows" then
      let items ← listOf place source
      return .rows (← items.zipIdx.mapM fun (n, i) => literalOf (indexed place i) n)
    else return .countOf (← targetOf s place source)
  | _ => fail path n .wantOneSource

/-- Reads what the elements say about themselves, and makes the repeated ones. -/
def settle : (limit : Nat) → (s : Nat) → (path : String) → Node → Load U Unit
  | 0, _, path, n => fail path n .tooDeep
  | limit + 1, s, path, n => do
    let entries ← entriesOf path n (some elementKeys)
    let id := elementId path entries
    if let some props := entries.get? "props" then
      (← entriesOf (path ++ ".props") props none).forM fun (key, spec) =>
        property s s!"{path}.props.{key.text}" id key.text spec false
    if let some on := entries.get? "on" then
      (← entriesOf (path ++ ".on") on none).forM fun (key, spec) =>
        handler s s!"{path}.on.{key.text}" id key.text spec
    if let some c := entries.get? "children" then
      (← listOf (path ++ ".children") c).zipIdx.forM fun (child, i) => do
        let path := indexed (path ++ ".children") i
        if isRepeat child then
          let entries ← entriesOf path child (some ["for", "template"])
          match entries.get? "for", entries.get? "template" with
          | some source, some template =>
            let model ← rowsOf s (path ++ ".for") source
            let name := s!"{(← definition s).name}/{defaultId path}"
            let row : Definition U := { name }
            let sub ← openScope
              { definition := (row.declare "model_data" .void .void).declare "index" .int (.int 0)
                outer := some s }
            let path := path ++ ".template"
            tree sub limit path template none
            settle limit sub path template
            link sub
            let d ← definition sub
            if let some f := d.fault then fail path template (.fault f)
            build s fun outer => (outer.repeatRows id d (some model)).1
          | _, _ => fail path child .missingTemplate
        else settle limit s path child

def documentKeys : List String := ["component", "properties", "callbacks", "root", "initial_focus"]

def initialFocus (s : Nat) (n : Node) : Load U Unit := do
  let path := "$.initial_focus"
  let id ← scalarOf path n
  if !(← definition s).hasItem id then fail path n (.noElement id)
  build s (·.focus id)

/-- Reads a document into a scope, whose number it returns. -/
def document (n : Node) : Load U Nat := do
  let entries ← entriesOf "$" n (some documentKeys)
  let name ← match entries.get? "component" with
    | some c => scalarOf "$.component" c
    | none => pure "Component"
  match entries.get? "root" with
  | none => fail "$" n .missingRoot
  | some root =>
    let s ← openScope { definition := { name } }
    let limit := n.height
    tree s limit "$.root" root none
    if let some p := entries.get? "properties" then properties s "$.properties" p
    if let some c := entries.get? "callbacks" then callbacks s "$.callbacks" c
    settle limit s "$.root" root
    link s
    if let some f := entries.get? "initial_focus" then initialFocus s f
    return s

end Load

/-- References are checked when all scopes are complete. -/
def ofDocument (d : Yaml.Document) : Except DescriptionError (Definition U) := do
  let (s, st) ← (Load.document d.root).run { anchored := d.anchored }
  st.checks.forM (Check.run st.scopes)
  let d := (st.scopes.getD s default).definition
  match d.fault with
  | some f => throw { path := "$", flaw := .fault f }
  | none => return d

def read (text : String) : Except DescriptionError (Definition U) :=
  match Yaml.read text.toList with
  | .error e => .error { path := "$", flaw := .unreadable e }
  | .ok none => .error { path := "$", flaw := .emptyDocument }
  | .ok (some d) => ofDocument d

end ReactiveTree.Description
