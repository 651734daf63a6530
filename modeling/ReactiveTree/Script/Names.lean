import ReactiveTree.Script.Expr
import ReactiveTree.Inspect.Command

/-!
# Names in scripts

Scripts call everything they make by name. This file has what the names stand for, the
code that a scene keeps for a script, and how cells and components are found by name.
-/

namespace ReactiveTree.Script

structure Context where
  self : Option ComponentId := none
  args : List Value := []

/-- The code that a script leaves in a scene. -/
inductive Snippet where
  | code (announcement : String) (body : Expr) (context : Option Context)
  | handler (announcement : String) (body : Expr) (context : Option Context)
  | function (callback : String) (f : Function)
  | rows (e : RowsExpr)
  | peer (name : String)

inductive Made where
  | cell (c : CellId)
  | tracker (t : CellId)
  | transition (a : TransitionId)

structure Names where
  cells : List (String × CellId) := []
  trackers : List (String × CellId) := []
  observers : List (String × ObserverId) := []
  signals : List (String × SignalId) := []
  transitions : List (String × TransitionId) := []
  definitions : List (String × Nat) := []
  library : Array (Definition Snippet) := #[]
  handles : List (String × HandleId) := []
  weak : List (String × Option ComponentId) := []
  components : List (String × ComponentId) := []
  vectors : List (String × VectorId) := []
  peers : List (String × PeerId) := []
  made : List (String × Made) := []

end Script

abbrev Script := SceneM Script.Snippet Script.Names

namespace Script

def readNames {α : Type} (f : Names → α) : Script α := Act.ask fun s => f s.user

def changeNames (f : Names → Names) : Script Unit :=
  Act.change fun s => { s with user := f s.user }

def named {α : Type} (names : Names → List (String × α)) (name : String) : Script α := do
  match (← readNames names).lookup name with
  | some a => return a
  | none => SceneM.absent

def weakNamed (name : String) : Script (Option ComponentId) := do
  return ((← readNames Names.weak).lookup name).join

def definitionNamed (name : String) : Script (Definition Snippet) := do
  let n ← named Names.definitions name
  readNames (·.library.getD n default)

def nameDefinition (name : String) (d : Definition Snippet) : Script Unit :=
  changeNames fun n =>
    { n with definitions := (name, n.library.size) :: n.definitions, library := n.library.push d }

def redefine (name : String) (d : Definition Snippet) : Script Unit := do
  let i ← named Names.definitions name
  changeNames fun n => { n with library := n.library.modify i fun _ => d }
  Act.change fun s => s.redefine i d

def text (s : String) : Value := .string (Text.ofString s)

def number (n : Int) : Value := .int (Int64.ofInt n)

def showBool (b : Bool) : String := if b then "true" else "false"

def failed (f : Fault) : Script Value := do
  Act.note s!"error {f.label}: {f.message}"
  return .void

def done (act : Script Unit) : Script Value := do
  act
  return .void

def orFailed (r : Except Fault Value) : Script Value :=
  match r with
  | .ok v => return v
  | .error f => failed f

def doneOrFailed {α : Type} (r : Except Fault α) : Script Value :=
  match r with
  | .ok _ => return .void
  | .error f => failed f

/-! ## Components -/

def stepInto (c : ComponentId) (step : List Char) : Script ComponentId := do
  match splitAll ':' step with
  | [id, number, row] =>
    let repeaters ← Act.ask fun s =>
      match s.itemNamed? c (String.ofList id) with
      | some it => (s.item it).repeaters
      | none => []
    let number := ((Number.readInt? number).getD 0).toNat
    match repeaters[number]? with
    | none => SceneM.outOfRange number repeaters.length
    | some r =>
      match ← Repeater.instance? r ((Number.readInt? row).getD 0) with
      | some c => return c
      | none => SceneM.absent
  | _ => .panic s!"malformed step {String.ofList step}"

def stepsFrom (c : ComponentId) : List (List Char) → Script ComponentId
  | [] => return c
  | step :: rest => do stepsFrom (← stepInto c step) rest

def baseComponent (ctx : Context) (base : List Char) : Script ComponentId := do
  let outward (n : Nat) : Script ComponentId := do
    match ← Act.ask fun s => ctx.self.bind (s.outward n) with
    | some c => return c
    | none => SceneM.absent
  if base = ['.'] then outward 0
  else if !base.isEmpty && base.all (· = '^') then outward base.length
  else
    let name := String.ofList base
    match ← Act.ask fun s =>
      match s.user.handles.lookup name with
      | some h => some (s.handle h).component
      | none => s.user.components.lookup name
    with
    | some c => return c
    | none => SceneM.absent

def componentAt (ctx : Context) (path : String) : Script ComponentId := do
  match splitAll '/' path.toList with
  | [] => baseComponent ctx []
  | base :: steps => stepsFrom (← baseComponent ctx base) steps

def itemOf (c : ComponentId) (id : String) : Script (Except Fault ItemRef) :=
  Act.ask fun s => s.itemNamed c id

/-! ## Cells -/

def splitScope? : List Char → Option (List Char × List Char)
  | ':' :: ':' :: rest => some ([], rest)
  | c :: rest => (splitScope? rest).map fun (a, b) => (c :: a, b)
  | [] => none

def cellAt (ctx : Context) (ref : String) : Script CellId := do
  match splitScope? ref.toList with
  | some (path, prop) =>
    let c ← componentAt ctx (String.ofList path)
    let (id, prop) := splitTarget (String.ofList prop)
    SceneM.mustProperty c id prop
  | none =>
    match ref.toList, ctx.self with
    | '$' :: name, _ => named Names.cells (String.ofList name)
    | _, none => named Names.cells ref
    | cs, some self =>
      let up := cs.takeWhile (· = '^')
      match ← Act.ask fun s => s.outward up.length self with
      | none => SceneM.absent
      | some c =>
        let (id, prop) := splitTarget (String.ofList (cs.drop up.length))
        SceneM.mustProperty c id prop

def cellTitle (c : CellId) : Script String := do
  match (← readNames Names.cells).find? (·.2 == c) with
  | some (name, _) => return name
  | none => SceneM.cellName c

/-! ## Items -/

def rowNumbers : (limit : Nat) → ComponentId → Script String
  | 0, _ => return ""
  | limit + 1, c => do
    match ← Act.ask fun s => (s.component c).outer with
    | none => return ""
    | some outer =>
      match ← Component.get c "index" with
      | .error _ => return "@released"
      | .ok v =>
        let rest ← rowNumbers limit outer
        return s!"@{v.text}{rest}"

def showItem (it : Option ItemRef) : Script String := do
  match it with
  | none => return "nil"
  | some it =>
    let limit ← Act.ask fun s => s.components.size
    let name ← Act.ask fun s => s.itemName it
    return name ++ (← rowNumbers limit it.component)

def showItems (items : List ItemRef) : Script String := do
  return " ".intercalate (← items.mapM fun it => showItem (some it))

end Script

end ReactiveTree
