import ReactiveTree.Scene.Walk

/-!
# Snapshots

A snapshot lists the items of an instance with the values of their properties at one
moment, in paint order. It can be shown as an indented tree.
-/

namespace ReactiveTree

variable {U X : Type}

structure ShownProperty where
  name : String
  kind : String
  value : String
  deriving DecidableEq, Repr

structure ShownItem where
  depth : Nat
  label : String
  properties : List ShownProperty
  deriving DecidableEq, Repr

def PropDecl.shown (d : PropDecl) (v : Value) : ShownProperty :=
  ⟨d.name, if d.kind = .void then "any" else d.kind.name, v.text⟩

namespace Component

def declaredValues (c : ComponentId) : SceneM U X (List ShownProperty) := do
  (← Act.ask fun s => (s.component c).definition.declared).mapM fun d => do
    match ← get c d.name with
    | .ok v => return d.shown v
    | .error _ => return d.shown .void

def showItem (it : ItemRef) : SceneM U X ShownItem := do
  let (depth, label) ← Act.ask fun s => ((s.ancestors it).length, s.itemName it)
  let isRoot := it.index = 0
  let declared ← if isRoot then declaredValues it.component else pure []
  let properties ← (← Act.ask fun s => (s.item it).kind.layout.props).mapM fun d =>
    return d.shown (← Item.get it d.name)
  let name ← Act.ask fun s => (s.component it.component).definition.name
  return ⟨depth, if isRoot then s!"{label} ({name})" else label, declared ++ properties⟩

def snapshot (c : ComponentId) : SceneM U X (List ShownItem) := do
  let gather : Visitor U X (List ShownItem) := fun it shown => do
    return (true, (← showItem it) :: shown)
  return (← visit c .preOrder gather []).2.reverse

end Component

namespace ShownItem

def indent (depth : Nat) : String := String.ofList (List.replicate (2 * depth) ' ')

def padTo (width : Nat) (s : String) : String :=
  s ++ String.ofList (List.replicate (width - s.utf8ByteSize) ' ')

def lines (item : ShownItem) : List String :=
  let width := item.properties.foldl (fun w p => max w p.name.utf8ByteSize) 0
  (indent item.depth ++ item.label) :: item.properties.map fun p =>
    s!"{indent (item.depth + 1)}{padTo width p.name} {p.kind} = {p.value}"

end ShownItem

def renderTree (title : String) (items : List ShownItem) : String :=
  String.join ((title :: items.flatMap ShownItem.lines).map (· ++ "\n"))

end ReactiveTree
