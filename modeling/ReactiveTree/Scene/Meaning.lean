import ReactiveTree.Scene.Window

/-!
# The meaning of code

What each piece of code in a scene does. User code gets its meaning from a host.
-/

namespace ReactiveTree

structure Host (U X : Type) : Type 1 where
  /-- A binding, observer or handler, in the context of a component if there is one, with
  the arguments of a handler. -/
  value : U → Option ComponentId → List Value → SceneM U X Value
  model : U → ComponentId → SceneM U X (Option Model)
  peer : U → Change → SceneM U X Unit

variable {U X : Type}

/-- Writes a referenced property, so that coercion and transitions apply. A failed write is
logged. -/
def Place.set (p : Place) (v : Value) : SceneM U X Unit := do
  let r := p.reference
  let result ← if r.id = "" then Component.set p.component r.prop v
    else do
      match ← Act.ask fun s => s.itemNamed p.component r.id with
      | .ok it => Item.set it r.prop v
      | .error f => pure (.error f)
  match result with
  | .ok () => return
  | .error f => SceneM.logFault s!"set {r.text}" f

def Action.perform : Action → SceneM U X Unit
  | .increment p path => do
    match (← Act.get p.cell).arith .add (.int 1) with
    | .ok v => p.set v
    | .error e => SceneM.logFault path (.arithmetic e)
  | .toggle p => do p.set (.bool !(← Act.get p.cell).asBool)
  | .set p v => p.set v
  | .emit c name path => do
    match ← Component.invoke c name [] with
    | .ok _ => return
    | .error f => SceneM.logFault path f

def Code.meaning (host : Host U X) {α : Type} : Code U α → SceneM U X α
  | .retarget a => Transition.retarget a
  | .remodel r => Repeater.markStale r
  | .value u self => host.value u self []
  | .fetch cell op path => do
    let v ← .get cell
    match op with
    | none => return v
    | some (op, operand) =>
      match v.arith op operand with
      | .ok v => return v
      | .error e =>
        SceneM.logFault path (.arithmetic e)
        return .void
  | .coerced name kind body => do
    match (← body.meaning host).coerceTo kind with
    | .ok v => return v
    | .error e =>
      SceneM.logFault s!"binding {name}" (.coercion e)
      return Value.zero kind
  | .handle (.user u self) args => host.value u self args
  | .handle (.actions steps) _ => do
    steps.forM Action.perform
    return .void
  | .effect u self => discard (host.value u self [])
  | .peer u change => host.peer u change
  | .model u self => host.model u self
  | .constant m => return some m
  | .countOf cell => do return some (.count (← Act.get cell).asInt)

def SceneM.run (host : Host U X) {α : Type} (program : SceneM U X α) :
    Run (Scene U X) (Code U) α :=
  Act.run (Code.meaning host) program

end ReactiveTree
