import ReactiveTree.Scene.Callback
import ReactiveTree.Animation.Transition

/-!
# Component instances

Building an instance of a definition, reaching its properties by name, writing them, and
tearing it down when its last handle is released.
-/

namespace ReactiveTree

variable {U X : Type}

namespace Scene

def table (s : Scene U X) (c : ComponentId) (node : Option Nat) : Table :=
  match node with
  | none => (s.component c).scope
  | some n => (s.item ⟨c, n⟩).table

def itemNamed? (s : Scene U X) (c : ComponentId) (id : String) : Option ItemRef :=
  ((s.component c).definition.nodes.findIdx? (·.id == id)).map fun n => ⟨c, n⟩

def itemNamed (s : Scene U X) (c : ComponentId) (id : String) : Except Fault ItemRef :=
  match s.itemNamed? c id with
  | some it => .ok it
  | none => .error (.within (s.component c).definition.name (.noSuchItem id))

end Scene

structure Spot where
  component : ComponentId
  node : Option Nat
  slot : Nat
  deriving DecidableEq, Repr, Inhabited

namespace Scene

/-- Resolves `id.prop`. The empty id is the component, whose declared properties hide those
of the root item. -/
def lookup (s : Scene U X) (c : ComponentId) (id prop : String) : Except Fault Spot :=
  let ofItem (id : String) : Except Fault Spot :=
    match s.itemNamed c id with
    | .error f => .error f
    | .ok it =>
      match (s.item it).table.slot? prop with
      | some i => .ok ⟨c, some it.index, i⟩
      | none => .error (.within s!"{id}.{prop}" .noSuchProperty)
  if id = "" then
    match (s.component c).scope.slot? prop with
    | some i => .ok ⟨c, none, i⟩
    | none => ofItem (s.item ⟨c, 0⟩).id
  else ofItem id

def cellAt (s : Scene U X) (spot : Spot) : CellId :=
  ((s.table spot.component spot.node).cell? spot.slot).getD 0

def property (s : Scene U X) (c : ComponentId) (id prop : String) : Except Fault CellId :=
  (s.lookup c id prop).map s.cellAt

end Scene

namespace SceneM

def mustProperty (c : ComponentId) (id prop : String) : SceneM U X CellId := do
  match ← Act.ask fun s => s.property c id prop with
  | .ok cell => return cell
  | .error f => .panic f.message

def resolve (r : Reference) (c : ComponentId) : SceneM U X Place := do
  match ← Act.ask fun s => s.outward r.outer c with
  | none => .panic s!"{r.text}: no outer component"
  | some component => return ⟨r, component, ← mustProperty component r.id r.prop⟩

end SceneM

namespace Component

/-! ## Building -/

def buildTable (owner : String) (decls : List PropDecl) : SceneM U X Table := do
  let cells ← decls.mapM fun d => Act.new s!"{owner}.{d.name}" d.default
  return { decls, cells }

def buildItem (owner : String) (node : NodeDef) : SceneM U X Item := do
  let layout := node.kind.layout
  let table ← buildTable s!"{owner}.{node.id}" layout.props
  let callbacks ← layout.callbacks.mapM Callback.create
  return { id := node.id, kind := node.kind, parent := node.parent, children := node.children,
           table, callbacks }

def spotOf (c : ComponentId) (node : Option Nat) (prop : String) : SceneM U X Spot := do
  match ← Act.ask fun s => (s.table c node).slot? prop with
  | some slot => return ⟨c, node, slot⟩
  | none =>
    let name ← Act.ask fun s => (s.component c).definition.name
    let number : Int := match node with
      | some n => n
      | none => -1
    .panic s!"{name}: property {quoteString prop} vanished from node {number}"

def animate (spot : Spot) (spec : Spec) : SceneM U X Unit := do
  let cell ← Act.ask fun s => s.cellAt spot
  if (← Act.ask fun s => (s.table spot.component spot.node).transition? spot.slot).isNone then
    let a ← Transition.create cell spec Lerp.value
    let extend (t : Table) : Table := { t with transitions := t.transitions ++ [(spot.slot, a)] }
    Act.change fun s =>
      let s := s.modifyComponent spot.component fun c =>
        { c with transitions := c.transitions ++ [(cell, a)] }
      match spot.node with
      | none => s.modifyComponent spot.component fun c => { c with scope := extend c.scope }
      | some n => s.modifyItem ⟨spot.component, n⟩ fun it => { it with table := extend it.table }

def tieBinding (c : ComponentId) : BindingTemplate U → SceneM U X (Code U Value)
  | .user u => return .value u (some c)
  | .fetch source op path => do
    let place ← SceneM.resolve source c
    return .fetch place.cell op path

def tieAction (c : ComponentId) : ActionTemplate → SceneM U X Action
  | .increment r path => return .increment (← SceneM.resolve r c) path
  | .toggle r => return .toggle (← SceneM.resolve r c)
  | .set r v => return .set (← SceneM.resolve r c) v
  | .emit outer name path => do
    match ← Act.ask fun s => s.outward outer c with
    | some target => return .emit target name path
    | none => .panic s!"{path}: no outer component"

def tieHandler (c : ComponentId) : HandlerTemplate U → SceneM U X (Option (Handler U))
  | .absent => return none
  | .user u => return some (.user u (some c))
  | .actions steps => return some (.actions (← steps.mapM (tieAction c)))

def tieModel (c : ComponentId) : ModelTemplate U → SceneM U X (Code U (Option Model))
  | .user u => return .model u c
  | .count n => return .constant (.count n)
  | .rows vs => do
    let m ← .host fun s => (s.vectors.size, { s with vectors := s.vectors.push { rows := vs } })
    return .constant (.vector m)
  | .countOf r => do
    let place ← SceneM.resolve r c
    return .countOf place.cell

def attachBindings (c : ComponentId) :
    List (BindDef U) → SceneM U X (List (TransitionId × Code U Value))
  | [] => return []
  | b :: rest => do
    let spot ← spotOf c b.node b.prop
    let (table, cell) ← Act.ask fun s => (s.table c spot.node, s.cellAt spot)
    let name ← SceneM.cellName cell
    let kind := (table.decls.getD spot.slot default).kind
    let code := Code.coerced name kind (← tieBinding c b.template)
    match table.transition? spot.slot with
    | some a => return (a, code) :: (← attachBindings c rest)
    | none =>
      .setBinding cell code
      attachBindings c rest

def attachHandler (c : ComponentId) (h : HandlerDef U) : SceneM U X Unit := do
  let callbacks ← Act.ask fun s =>
    match h.node with
    | none => (s.component c).callbacks
    | some n => (s.item ⟨c, n⟩).callbacks
  let handler ← tieHandler c h.template
  match Callback.find? callbacks h.name with
  | some cb => Act.change fun s => s.setHandler cb.signal handler
  | none => .panic s!"callback {quoteString h.name} vanished"

def addRepeater (host : ItemRef) (sub : Definition U) (model : Option (ModelTemplate U)) :
    SceneM U X Unit := do
  let owner := host.component
  let id ← Act.ask fun s => (s.item host).id
  let expression ← match model with
    | none => pure none
    | some template => some <$> tieModel owner template
  let r ← Act.ask fun s => s.repeaters.size
  let flag ← .new s!"{id}.repeater" (.bool true)
  let tracker ← .newTracker s!"{id}.model" (some (.remodel r))
  Act.change fun s =>
    { s.modifyItem host fun it => { it with repeaters := it.repeaters ++ [r] } with
      repeaters := s.repeaters.push { owner, host, sub, expression, tracker, flag } }

/-- Builds an instance, under the item of a repeater if `host` is given. Animated bindings
are evaluated as they are attached, so they come after all plain ones. -/
def build (d : Definition U) (host : Option ItemRef) (source : Option Nat) :
    SceneM U X ComponentId := do
  let outer := host.map (·.component)
  let window ← .host fun s =>
    match outer with
    | some o => ((s.component o).window, s)
    | none => (s.windows.size, { s with windows := s.windows.push {} })
  let items ← d.nodes.mapM (buildItem d.name)
  let scope ← buildTable d.name d.declared
  let callbacks ← d.callbacks.mapM Callback.create
  let c ← .host fun s =>
    (s.components.size,
      { s with
        components := s.components.push
          { definition := d, source, items := items.toArray, scope, callbacks, outer, host,
            window } })
  d.sets.forM fun x => do
    let spot ← spotOf c x.node x.prop
    .set (← Act.ask fun s => s.cellAt spot) x.v
  d.anims.forM fun x => do
    animate (← spotOf c x.node x.prop) x.spec
  d.links.forM fun l => do
    let a ← spotOf c l.node l.prop
    let b ← spotOf c l.other l.otherProp
    let (a, b) ← Act.ask fun s => (s.cellAt a, s.cellAt b)
    discard <| Act.link a b
  let animated ← attachBindings c d.binds
  animated.forM fun (a, code) => Transition.setBinding a code
  d.handlers.forM (attachHandler c)
  d.repeats.forM fun (n, sub, model) => addRepeater ⟨c, n⟩ sub model
  return c

/-! ## Handles -/

def newHandle (c : ComponentId) : SceneM U X HandleId :=
  .host fun s =>
    (s.handles.size,
      { s.modifyComponent c fun x => { x with refs := x.refs + 1 } with
        handles := s.handles.push { component := c } })

/-- Builds a top-level instance and returns the first handle to it. `source` is the number of
a definition that may still change. -/
def instantiate (d : Definition U) (source : Option Nat := none) :
    SceneM U X (Except Fault HandleId) := do
  match d.fault with
  | some f => return .error f
  | none =>
    if d.nodes.isEmpty then return .error (.other s!"{d.name}: no root element")
    return .ok (← newHandle (← build d none source))

def dropTable (t : Table) : SceneM U X Unit := do
  (List.range t.cells.length).forM fun i =>
    match t.transition? i with
    | some a => Transition.stop a
    | none => pure ()
  t.cells.forM Act.drop

def clearHandlers (callbacks : List Callback) : SceneM U X Unit :=
  Act.change fun s => callbacks.foldl (fun s cb => s.setHandler cb.signal none) s

def forgetInWindow (c : ComponentId) : SceneM U X Unit :=
  let keep (it : Option ItemRef) : Option ItemRef := it.filter (·.component != c)
  Act.change fun s => s.modifyWindow c fun w =>
    { w with focus := keep w.focus, grabber := keep w.grabber, hover := keep w.hover }

section Teardown

/-! Instances end when their last handle is released, which releases those repeated below
them. Each step is given what destroys an instance. -/

variable (destroy : ComponentId → SceneM U X Unit)

/-- Releases a handle; the second time nothing happens. The last handle takes the instance
with it. -/
def releaseWith (h : HandleId) : SceneM U X Unit := do
  let handle ← Act.ask fun s => s.handle h
  unless handle.released do
    Act.change fun s =>
      { s.modifyComponent handle.component fun c => { c with refs := c.refs - 1 } with
        handles := s.handles.modify h fun x => { x with released := true } }
    if (← Act.ask fun s => (s.component handle.component).refs) = 0 then destroy handle.component

def endRepeater (r : RepeaterId) : SceneM U X Unit := do
  let repeater ← Act.ask fun s => s.repeater r
  unless repeater.released do
    repeater.instances.list.toList.forM (releaseWith destroy)
    Act.change fun s => s.modifyRepeater r fun x =>
      { x with instances := x.instances.clear, staleRows := x.staleRows.clear }
    .drop repeater.tracker
    .drop repeater.flag
    Act.change fun s => s.modifyRepeater r fun x => { x with released := true }

def endItem (it : Item) : SceneM U X Unit := do
  it.repeaters.forM (endRepeater destroy)
  clearHandlers it.callbacks
  dropTable it.table

def teardown (c : ComponentId) : SceneM U X Unit := do
  let component ← Act.ask fun s => s.component c
  unless component.destroyed do
    Act.change fun s => s.modifyComponent c fun x => { x with destroyed := true }
    forgetInWindow c
    component.items.toList.forM (endItem destroy)
    clearHandlers component.callbacks
    dropTable component.scope
    Act.log s!"component {component.definition.name} destroyed"

end Teardown

def destroyTo : (limit : Nat) → ComponentId → SceneM U X Unit
  | 0, _ => pure ()
  | limit + 1, c => teardown (destroyTo limit) c

def release (h : HandleId) : SceneM U X Unit := do
  let limit ← Act.ask fun s => s.components.size
  releaseWith (destroyTo limit) h

def retain (h : HandleId) : SceneM U X HandleId := do
  let handle ← Act.ask fun s => s.handle h
  if handle.released || (← Act.ask fun s => (s.component handle.component).destroyed) then
    .panic "itemtree: retain of released handle"
  else newHandle handle.component

def isAlive (c : ComponentId) : SceneM U X Bool :=
  Act.ask fun s => !(s.component c).destroyed && 0 < (s.component c).refs

def upgrade (c : ComponentId) : SceneM U X (Option HandleId) := do
  if ← isAlive c then return some (← newHandle c) else return none

/-! ## Access by name -/

/-- Coerces a value to the declared kind and stores it in the cell that keeps the value: the
link root of a linked cell. An animated one starts a transition instead. -/
def write (spot : Spot) (v : Value) : SceneM U X (Except Fault Unit) := do
  let (table, cell) ← Act.ask fun s => (s.table spot.component spot.node, s.cellAt spot)
  match v.coerceTo (table.decls.getD spot.slot default).kind with
  | .error e => return .error (.within (← SceneM.cellName cell) (.coercion e))
  | .ok v =>
    let root ← .view fun s => s.linkRoot cell
    match ← Act.ask fun s => (s.component spot.component).transitions.lookup root with
    | some a => Transition.set a v
    | none => .set cell v
    return .ok ()

def get (c : ComponentId) (name : String) : SceneM U X (Except Fault Value) := do
  if ← Act.ask fun s => (s.component c).destroyed then return .error .released
  match ← Act.ask fun s => s.property c "" name with
  | .error f => return .error f
  | .ok cell => return .ok (← Act.get cell)

def set (c : ComponentId) (name : String) (v : Value) : SceneM U X (Except Fault Unit) := do
  if ← Act.ask fun s => (s.component c).destroyed then return .error .released
  match ← Act.ask fun s => s.lookup c "" name with
  | .error f => return .error f
  | .ok spot => write spot v

def callback (c : ComponentId) (name : String) : SceneM U X (Except Fault Callback) :=
  Act.ask fun s =>
    match Callback.find? (s.component c).callbacks name with
    | some cb => .ok cb
    | none => .error (.within s!"{(s.component c).definition.name}.{name}" .noSuchCallback)

def invoke (c : ComponentId) (name : String) (args : List Value) :
    SceneM U X (Except Fault Value) := do
  if ← Act.ask fun s => (s.component c).destroyed then return .error .released
  match ← callback c name with
  | .error f => return .error f
  | .ok cb => cb.invoke args

def properties (c : ComponentId) : SceneM U X (List PropDecl) :=
  Act.ask fun s => (s.component c).scope.decls ++ (s.item ⟨c, 0⟩).table.decls

end Component

namespace Item

def spot? (it : ItemRef) (name : String) : SceneM U X (Option Spot) :=
  Act.ask fun s => ((s.item it).table.slot? name).map fun i => ⟨it.component, some it.index, i⟩

def cell? (it : ItemRef) (name : String) : SceneM U X (Option CellId) := do
  match ← spot? it name with
  | none => return none
  | some spot => Act.ask fun s => some (s.cellAt spot)

def get (it : ItemRef) (name : String) : SceneM U X Value := do
  match ← cell? it name with
  | none => return .void
  | some cell => .get cell

def set (it : ItemRef) (name : String) (v : Value) : SceneM U X (Except Fault Unit) := do
  match ← spot? it name with
  | none => return .error (.within s!"{← Act.ask fun s => (s.item it).id}.{name}" .noSuchProperty)
  | some spot => Component.write spot v

def transition? (it : ItemRef) (name : String) : SceneM U X (Option TransitionId) := do
  match ← spot? it name with
  | none => return none
  | some spot => Act.ask fun s => (s.item it).table.transition? spot.slot

def callback? (it : ItemRef) (name : String) : SceneM U X (Option Callback) :=
  Act.ask fun s => Callback.find? (s.item it).callbacks name

def emit (it : ItemRef) (name : String) (args : List Value) : SceneM U X (Except Fault Value) := do
  match ← callback? it name with
  | none => return .error (.within s!"{← Act.ask fun s => (s.item it).id}.{name}" .noSuchCallback)
  | some cb => cb.invoke args

def setIfPresent (it : ItemRef) (name : String) (v : Value) : SceneM U X Unit := do
  match ← spot? it name with
  | none => return
  | some spot =>
    match ← Component.write spot v with
    | .ok () => return
    | .error f => SceneM.logFault s!"{← Act.ask fun s => (s.item it).id}.{name}" f

end Item

end ReactiveTree
