import ReactiveTree.Script.SceneOperation

/-!
# Running expressions

The meaning of expressions, of the code a script leaves in a scene, and of the steps that
build a definition.
-/

namespace ReactiveTree.Script

/-! ## Definitions -/

def BuildStep.apply (title : String) (d : Definition Snippet) :
    BuildStep → Script (Definition Snippet)
  | .root kind id => return d.root kind id
  | .child parent kind id => return d.child parent kind id
  | .declare name kind v => return d.declare name kind v
  | .callback name args => return d.declareCallback name args
  | .set id prop v => return d.set id prop v
  | .bind id prop e => return d.bind id prop (.user (.code s!"eval {title}:{id}.{prop}" e none))
  | .animate id prop spec => return d.animate id prop spec
  | .twoWay id prop otherId otherProp => return d.twoWay id prop otherId otherProp
  | .onCallback id name none => return d.onCallback id name .absent
  | .onCallback id name (some e) =>
    return d.onCallback id name (.user (.handler s!"handle {title}:{id}.{name}" e none))
  | .repeatRows parent name rows => do
    let (d, sub) := d.repeatRows parent (← definitionNamed name) (rows.map fun e => .user (.rows e))
    redefine name sub
    return d
  | .focus id => return d.focus id

def buildDefinition (name title : String) (steps : List BuildStep) : Script Value := do
  let d ← steps.foldlM (BuildStep.apply title) { name := title }
  nameDefinition name d
  match d.fault with
  | some f => failed f
  | none => return .void

/-! ## Expressions -/

def handlerOf (ctx : Context) (name : String) (e : Option Expr) : Option (Handler Snippet) :=
  e.map fun e => .user (.handler s!"handle {name}" e (some ctx)) none

def codeOf (ctx : Context) (announcement : String) (e : Expr) : Snippet :=
  .code announcement e (some ctx)

mutual

def Expr.eval (ctx : Context) : Expr → Script Value
  | .literal v => return v
  | .argument i => return if 0 ≤ i then ctx.args.getD i.toNat .void else .void
  | .apply o args => do
    match ← o.task ctx with
    | .error v => return v
    | .ok task => task.perform ctx (← Expr.evalEach ctx args)
  | .cond c a b => do
    if (← c.eval ctx).asBool then a.eval ctx else b.eval ctx
  | .seq es => do return (← Expr.evalEach ctx es).getLastD .void
  | .untracked e => .untracked (e.eval ctx)
  | .track name e => do
    match ← .track (← named Names.trackers name) (e.eval ctx) with
    | .done v => return v
    | .skipped => return .void
    | .failed error => failed (.cycle error)
  | .set ref e => do
    let c ← cellAt ctx ref
    .set c (← e.eval ctx)
    return .void
  | .bound name e cellName => do
    let c ← .newBound cellName (.value (codeOf ctx s!"eval {name}" e) none)
    changeNames fun n => { n with cells := (name, c) :: n.cells, made := (name, .cell c) :: n.made }
    return .void
  | .bind ref e => do
    done (.setBinding (← cellAt ctx ref) (.value (codeOf ctx s!"eval {ref}" e) none))
  | .observe ref name e => do
    let o ← .observe (← cellAt ctx ref) (.effect (codeOf ctx s!"observe {name}" e) none)
    changeNames fun n => { n with observers := (name, o) :: n.observers }
    return .void
  | .tracker name onDirty cellName => do
    let t ← .newTracker cellName
      (onDirty.map fun e => .effect (codeOf ctx s!"dirty {name}" e) none)
    changeNames fun n =>
      { n with trackers := (name, t) :: n.trackers, made := (name, .tracker t) :: n.made }
    return .void
  | .handler name e => do
    let i ← named Names.signals name
    Act.change fun s => s.setHandler i (handlerOf ctx name e)
    return .void
  | .follow name e => do
    Transition.setBinding (← named Names.transitions name)
      (.value (codeOf ctx s!"eval {name}" e) none)
    return .void
  | .onComponent path name e => do
    match ← Component.callback (← componentAt ctx path) name with
    | .error f => failed f
    | .ok cb =>
      Act.change fun s => s.setHandler cb.signal (handlerOf ctx name e)
      return .void
  | .onItem path id name e => do
    match ← itemOf (← componentAt ctx path) id with
    | .error f => failed f
    | .ok it =>
      match ← Item.callback? it name with
      | none => return text "nil"
      | some cb =>
        Act.change fun s => s.setHandler cb.signal (handlerOf ctx name e)
        return .void
  | .define name title steps => buildDefinition name title steps

def Expr.evalEach (ctx : Context) : List Expr → Script (List Value)
  | [] => return []
  | e :: rest => do
    let v ← e.eval ctx
    return v :: (← Expr.evalEach ctx rest)

end

def RowsExpr.eval (ctx : Context) : RowsExpr → Script (Option Model)
  | .vector m => return some (.vector (← named Names.vectors m))
  | .count e => return some (.count (← e.eval ctx).asInt)
  | .choose c yes no => do
    let m := if (← c.eval ctx).asBool then yes else no
    return some (.vector (← named Names.vectors m))
  | .cyclic n rows => do
    let n := (← n.eval ctx).asInt
    return some (.cyclic n (← Expr.evalEach ctx rows))
  | .absent => return none

/-! ## Code kept in a scene -/

def Snippet.run (self : Option ComponentId) (args : List Value) : Snippet → Script Value
  | .code announcement body context => do
    Act.note announcement
    body.eval (context.getD { self })
  | .handler announcement body context => do
    Act.note announcement
    body.eval { context.getD { self } with args }
  | .function name f => f.call name args
  | _ => return .void

def Snippet.rowModel (self : ComponentId) : Snippet → Script (Option Model)
  | .rows e => do
    Act.note s!"model {← title self}"
    e.eval { self := some self }
  | _ => return none

def Snippet.tell (change : Change) : Snippet → Script Unit
  | .peer name =>
    match change with
    | .changed row => Act.note s!"peer {name} changed {row}"
    | .added index count => Act.note s!"peer {name} added {index} {count}"
    | .removed index count => Act.note s!"peer {name} removed {index} {count}"
  | _ => return

def host : Host Snippet Names where
  value u self args := u.run self args
  model u self := u.rowModel self
  peer u change := u.tell change

end ReactiveTree.Script
