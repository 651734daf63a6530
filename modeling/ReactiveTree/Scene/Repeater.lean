import ReactiveTree.Scene.Component
import ReactiveTree.Scene.Model

/-!
# Repeaters

A repeater keeps one instance per row of its model. Instances are matched to rows by
number, so one that survives a change of the model keeps all its state; only rows that
were reported changed get their data and number written again.
-/

namespace ReactiveTree.Repeater

variable {U X : Type}

def read {α : Type} (r : RepeaterId) (f : Repeater U → α) : SceneM U X α :=
  Act.ask fun s => f (s.repeater r)

def modify (r : RepeaterId) (f : Repeater U → Repeater U) : SceneM U X Unit :=
  Act.change fun s => s.modifyRepeater r f

def evaluateModel (r : RepeaterId) : SceneM U X (Option Model) := do
  let repeater ← read r id
  match repeater.expression with
  | none => return none
  | some code =>
    match ← Act.track repeater.tracker (.perform code) with
    | .done m => return m
    | .skipped => return none
    | .failed e =>
      Act.log s!"repeater {← Act.ask fun s => (s.item repeater.host).id}: {e.message}"
      read r (·.model)

/-- Looks at the model expression if what it read has changed. A new model makes every row
stale. -/
def refreshModel (r : RepeaterId) : SceneM U X Unit := do
  let tracker ← read r (·.tracker)
  if ← .view fun s => decide ((s.cell tracker).state ≠ .clean) then
    let m ← evaluateModel r
    unless Model.sameOption m (← read r (·.model)) do
      modify r fun x => { x with model := m }
      if let some m := m then m.attach (.repeater r)
      modify r fun x => { x with staleRows := x.staleRows.change (·.map fun _ => true) }

def shrink (r : RepeaterId) (n : Nat) : SceneM U X Unit := do
  let instances ← read r (·.instances)
  if n < instances.size then
    (instances.list.drop n).toList.forM Component.release
    modify r fun x =>
      { x with instances := x.instances.truncate n, staleRows := x.staleRows.cut n }

def instanceLimit : Nat := 0x4000000000000000

/-- Builds instances until there are `n`, at most `limit` of them. An instance may run code as
it is built, and that code may take away instances built before. -/
def grow (r : RepeaterId) (n : Nat) : (limit : Nat) → SceneM U X Unit
  | 0 => return
  | limit + 1 => do
    let repeater ← read r id
    if repeater.instances.size < n then
      let h ← Component.newHandle (← Component.build repeater.sub (some repeater.host) none)
      modify r fun x =>
        { x with
          instances := x.instances.push Room.ofReferences h
          staleRows := x.staleRows.push Room.ofFlags true }
      grow r n limit

def rowCell (c : ComponentId) (name : String) : SceneM U X CellId := do
  let component ← Act.ask fun s => s.component c
  match component.scope.slot? name with
  | some i => return (component.scope.cell? i).getD 0
  | none => .panic s!"itemtree: repeated component {component.definition.name} lacks {name}"

def refreshRow (r : RepeaterId) (i : Nat) : SceneM U X Unit := do
  let repeater ← read r id
  match repeater.instances.list[i]? with
  | none => SceneM.outOfRange i repeater.instances.size
  | some h =>
    let c ← Act.ask fun s => (s.handle h).component
    let data ← rowCell c "model_data"
    match repeater.model with
    | none => SceneM.absent
    | some m => .set data (← Act.ask fun s => m.rowData s i)
    .set (← rowCell c "index") (.int (Int64.ofNat i))
    let n ← read r (·.staleRows.size)
    if i < n then modify r fun x =>
      { x with staleRows := x.staleRows.change (·.setIfInBounds i false) }
    else SceneM.outOfRange i n

/-- Refreshes the stale ones of the rows there are. A refresh may run code that takes away
rows or adds some; the flag of each row is looked at when its turn comes. -/
def refreshRows (r : RepeaterId) : SceneM U X Unit := do
  let rows ← read r (·.staleRows)
  (List.range rows.size).forM fun i => do
    if (← read r (·.staleRows.onShelf? rows.number i)) = some true then refreshRow r i

def update (r : RepeaterId) : SceneM U X Unit := do
  refreshModel r
  let n ← Act.ask fun s =>
    match (s.repeater r).model with
    | none => 0
    | some m => (m.rowCount s).toNat
  shrink r n
  grow r n instanceLimit
  refreshRows r

/-- Brings the instances in line with the model, if that is needed. A binding that does
this depends on the next change. -/
def ensureUpdated (r : RepeaterId) : SceneM U X Unit := do
  let repeater ← read r id
  unless repeater.released do
    if (← Act.peek repeater.flag).asBool then
      update r
      .set repeater.flag (.bool false)
    discard <| Act.get repeater.flag

def needsUpdate (r : RepeaterId) : SceneM U X Bool := do
  return (← Act.get (← read r (·.flag))).asBool

def instance? (r : RepeaterId) (row : Int) : SceneM U X (Option ComponentId) :=
  Act.ask fun s =>
    if row < 0 then none
    else ((s.repeater r).instances.list[row.toNat]?).map fun h => (s.handle h).component

end ReactiveTree.Repeater
