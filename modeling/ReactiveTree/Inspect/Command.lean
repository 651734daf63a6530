import ReactiveTree.Inspect.Grid
import ReactiveTree.Inspect.Snapshot
import ReactiveTree.Inspect.Title

/-!
# Inspecting an instance

Writing properties and raising callbacks by text, and showing the result as a table.
-/

namespace ReactiveTree

variable {U X : Type}

def splitTarget (s : String) : String × String :=
  let after := s.toList.reverse.takeWhile (· ≠ '.')
  if after.length = s.length then ("", s)
  else
    (String.ofList (s.toList.take (s.length - after.length - 1)), String.ofList after.reverse)

namespace Component

def applySet (c : ComponentId) (assignment : String) : SceneM U X (Except Fault Unit) := do
  let cs := assignment.toList
  let target := cs.takeWhile (· ≠ '=')
  if target.length = cs.length then
    return .error (.other s!"--set {quoteString assignment}: want name=value")
  let (id, name) := splitTarget (trimBlank (String.ofList target))
  let v := Value.string (Text.ofString (String.ofList (cs.drop (target.length + 1))))
  if id = "" then set c name v
  else
    match ← Act.ask fun s => s.itemNamed c id with
    | .error f => return .error f
    | .ok it => Item.set it name v

def applyEmit (c : ComponentId) (target : String) : SceneM U X (Except Fault Value) := do
  let (id, name) := splitTarget target
  if id = "" then invoke c name []
  else
    match ← Act.ask fun s => s.itemNamed c id with
    | .error f => return .error f
    | .ok it => Item.emit it name []

def dump (c : ComponentId) : SceneM U X String := do
  let items ← snapshot c
  return renderTree (← Act.ask fun s => (s.component c).definition.name) items

def itemRows (item : ShownItem) : List (List String) :=
  let label := ShownItem.indent item.depth ++ item.label
  let row (label : String) (p : ShownProperty) : List String := [label, p.name, p.kind, p.value]
  match item.properties with
  | [] => [[label, "", "", ""]]
  | p :: rest => row label p :: rest.map (row "")

def table (c : ComponentId) (framed : Bool) : SceneM U X String := do
  let name ← Act.ask fun s => (s.component c).definition.name
  let items ← snapshot c
  return Grid.render framed
    { title := Title.shown name
      header := ["ITEM", "PROPERTY", "KIND", "VALUE"]
      groups := items.map itemRows }

end Component

end ReactiveTree
