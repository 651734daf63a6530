import ReactiveTree.Bench.Basic
import ReactiveTree.Scene.Meaning

/-!
# Changing one row of a list

A list repeats a text for each row of a model. Every write changes one row, after which the
repeater is updated and the text of that row read.
-/

namespace ReactiveTree.Bench

inductive RowCode where
  | label
  | rows (m : VectorId)

abbrev RowM := SceneM RowCode Unit

namespace RowCode

def labelText (c : ComponentId) : RowM Value := do
  let data ← Act.get (← SceneM.mustProperty c "" "model_data")
  match (Value.string (Text.ofString "row ")).arith .add data with
  | .ok v => return v
  | .error _ => return .void

def host : Host RowCode Unit where
  value u self _ :=
    match u, self with
    | .label, some c => labelText c
    | _, _ => return .void
  model u _ :=
    match u with
    | .rows m => return some (.vector m)
    | .label => return none
  peer _ _ := return

def row : Definition RowCode :=
  (({ name := "Row" } : Definition RowCode).root ItemKind.text.number "label").bind
    "label" "text" (.user .label)

def list (m : VectorId) : Definition RowCode :=
  let d : Definition RowCode := { name := "List" }
  let d := (d.root ItemKind.window.number "win").child "win" ItemKind.flickable.number "list"
  (d.repeatRows "list" row (some (.user (.rows m)))).1

end RowCode

structure RowState where
  world : World (Scene RowCode Unit) (Code RowCode)
  model : VectorId
  repeater : RepeaterId

def setUpRows (count : Nat) : RowM (Except Fault (VectorId × RepeaterId)) := do
  let m ← VectorModel.create ((List.range count).map fun i => .int (Int64.ofNat i))
  match ← Component.instantiate (RowCode.list m) with
  | .error f => return .error f
  | .ok h =>
    let c ← Act.ask fun s => (s.handle h).component
    let r := (← Act.ask fun s => ((s.component c).items.getD 1 default).repeaters).headD 0
    Repeater.ensureUpdated r
    return .ok (m, r)

def writeRow (m : VectorId) (r : RepeaterId) (row : Nat) (v : Value) : RowM Unit := do
  VectorModel.setRow m row v
  Repeater.ensureUpdated r
  match ← Repeater.instance? r row with
  | none => return
  | some c => let _ ← Item.get ⟨c, 0⟩ "text"

def changeRows (count : Nat) : Benchmark where
  State := RowState
  start :=
    match SceneM.run RowCode.host (setUpRows count) (World.start () true) with
    | .ok (.ok (model, repeater)) world => .ok { world, model, repeater }
    | .ok (.error f) _ => .error f.message
    | .error stop _ => .error stop.message
  write i s :=
    let v := Value.int (Int64.ofNat (count + i))
    match SceneM.run RowCode.host (writeRow s.model s.repeater (i % count) v) s.world with
    | .ok () world => .ok { s with world }
    | .error stop _ => .error stop.message
  evaluations s := s.world.store.evaluations

end ReactiveTree.Bench
