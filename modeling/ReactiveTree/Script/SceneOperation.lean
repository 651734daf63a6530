import ReactiveTree.Script.Operation
import ReactiveTree.Description.Load

/-!
# Operations on definitions, instances, items, models and windows
-/

namespace ReactiveTree.Script

def showKinds (ks : List Kind) : String := " ".intercalate (ks.map Kind.name)

def DefinitionOp.perform : DefinitionOp → Script Value
  | .load name description => do
    match Description.read description with
    | .ok d => nameDefinition name d
    | .error e => Act.record (.note (Text.ofString "error DescriptionError: " ++ e.message))
    return .void
  | .lookup d id prop => do
    match (← definitionNamed d).lookup? id prop with
    | some decl => return text s!"true {decl.name} {decl.kind.name} {decl.default.text}"
    | none => return text "false  void void"
  | .callbackArgs d id name => do
    match (← definitionNamed d).callbackArgs? id name with
    | some args => return text s!"true [{showKinds args}]"
    | none => return text "false []"
  | .hasItem d id => do return .bool ((← definitionNamed d).hasItem id)
  | .declared d => do
    let d ← definitionNamed d
    let props := d.declared.map fun p => s!" {p.name}/{p.kind.name}={p.default.text}"
    let callbacks := d.callbacks.map fun c => s!" {c.name}[{showKinds c.args}]"
    return text (s!"{d.name}:" ++ String.join (props ++ callbacks))

def nameHandle (name : String) (h : HandleId) : Script Unit :=
  changeNames fun n => { n with handles := (name, h) :: n.handles }

def title (c : ComponentId) : Script String := Act.ask fun s => (s.component c).definition.name

def showInstance (c : ComponentId) : Script String := do
  let component ← Act.ask fun s => s.component c
  let shown := showBool (← Window.read c).shown
  let root ← Act.ask fun s => s.itemName ⟨c, 0⟩
  let outer ← match component.outer with
    | some o => title o
    | none => pure "nil"
  let host ← showItem component.host
  let destroyed := showBool component.destroyed
  let head := s!"{component.definition.name} refs={component.refs} destroyed={destroyed}"
  return s!"{head} shown={shown} len={component.items.size} root={root} outer={outer} host={host}"

def installFunction (c : ComponentId) (name : String) (signature : Option String) :
    Script (Except Fault Unit) := do
  match ← Component.callback c name with
  | .error f => return .error f
  | .ok cb =>
    match signature with
    | none =>
      Act.change fun s => s.setHandler cb.signal none
      return .ok ()
    | some signature =>
      match Function.ofText? signature with
      | none => return .error (.argument ⟨name, none, "func", signature⟩)
      | some f =>
        match Function.check f.signature cb.decl with
        | .error e => return .error e
        | .ok () =>
          Act.change fun s => s.setHandler cb.signal (some (.user (.function name f) none))
          return .ok ()

def listItems (c : ComponentId) (order : Order) (last : Option String) : Script String := do
  let gather : Visitor Snippet Names (List String) := fun it shown => do
    let id ← Act.ask fun s => (s.item it).id
    return (some id != last, (← showItem (some it)) :: shown)
  let (completed, shown) ← Component.visit c order gather []
  return showBool completed ++ " " ++ " ".intercalate shown.reverse

def InstanceOp.perform (ctx : Context) : InstanceOp → Script Value
  | .create d handle => do
    let n ← named Names.definitions d
    match ← Component.instantiate (← definitionNamed d) (some n) with
    | .error f => failed f
    | .ok h =>
      nameHandle handle h
      return text (← title (← Act.ask fun s => (s.handle h).component))
  | .retain handle new => do
    done (nameHandle new (← Component.retain (← named Names.handles handle)))
  | .release handle => do done (Component.release (← named Names.handles handle))
  | .weak none w => do done (changeNames fun n => { n with weak := (w, none) :: n.weak })
  | .weak (some handle) w => do
    let h ← named Names.handles handle
    let c ← Act.ask fun s => (s.handle h).component
    changeNames fun n => { n with weak := (w, some c) :: n.weak }
    return .void
  | .upgrade w new => do
    match ← weakNamed w with
    | none => return .bool false
    | some c =>
      match ← Component.upgrade c with
      | none => return .bool false
      | some h =>
        nameHandle new h
        return .bool true
  | .isAlive w => do
    match ← weakNamed w with
    | none => return .bool false
    | some c => return .bool (← Component.isAlive c)
  | .same a b => do return .bool ((← componentAt ctx a) == (← componentAt ctx b))

def ComponentOp.perform (c : ComponentId) (args : List Value) : ComponentOp → Script Value
  | .rename new => do
    changeNames fun n => { n with components := (new, c) :: n.components }
    return text (← title c)
  | .isWired => return .bool true
  | .info => do return text (← showInstance c)
  | .get name => do orFailed (← Component.get c name)
  | .set name => do doneOrFailed (← Component.set c name (argAt args 0))
  | .invoke name => do orFailed (← Component.invoke c name args)
  | .install name signature => do doneOrFailed (← installFunction c name signature)
  | .callbackInfo name => do
    match ← Component.callback c name with
    | .error _ => return text "nil"
    | .ok cb =>
      let handled := showBool (← Act.ask fun s => (s.signal cb.signal).handler.isSome)
      return text s!"{cb.decl.name} [{showKinds cb.decl.args}] {handled}"
  | .property id prop => do
    match ← Act.ask fun s => s.property c id prop with
    | .error f => failed f
    | .ok cell => return text (← SceneM.cellName cell)
  | .properties => do
    let props ← Component.properties c
    return text (" ".intercalate (props.map fun p => s!"{p.name}/{p.kind.name}"))
  | .item id => do
    match ← itemOf c id with
    | .error f => failed f
    | .ok it =>
      let item ← Act.ask fun s => s.item it
      let name ← Act.ask fun s => s.itemName it
      let caps := item.kind.caps.text
      return text s!"{name} index={it.index} caps={caps} repeaters={item.repeaters.length}"
  | .itemAt i => do
    let size ← Act.ask fun s => ((s.component c).items.size : Int)
    return text (← showItem (if 0 ≤ i && i < size then some ⟨c, i.toNat⟩ else none))
  | .visit order last => do return text (← listItems c order last)
  | .dump => do return text (← Component.dump c)
  | .table framed => do return text (← Component.table c framed)
  | .applySet s => do doneOrFailed (← Component.applySet c s)
  | .applyEmit s => do doneOrFailed (← Component.applyEmit c s)

def showRect (r : Rect) : String :=
  " ".intercalate ([r.x, r.y, r.width, r.height].map Number.showFloat)

def showTransition (a : TransitionId) : Script String := do
  let t ← Transition.read a id
  let target ← Transition.heading a
  let state := if t.running then "running" else "idle"
  return s!"{state} target={target.text} binding={showBool t.binding.isSome}"

def ItemOp.perform (it : ItemRef) (args : List Value) : ItemOp → Script Value
  | .get prop => Item.get it prop
  | .set prop => do doneOrFailed (← Item.set it prop (argAt args 0))
  | .emit name => do orFailed (← Item.emit it name args)
  | .parent => do return text (← showItem (← Act.ask fun s => s.parent? it))
  | .children => do
    let children ← Act.ask fun s => (s.item it).children
    return text (← showItems (children.map fun n => ⟨it.component, n⟩))
  | .geometry => do return text (showRect (← Item.geometry it))
  | .absolute => do return text (showRect (← Item.absolute it))
  | .transition prop => do
    match ← Item.transition? it prop with
    | none => return text "nil"
    | some a => return text (← showTransition a)

def showRepeater (r : RepeaterId) : Script String := do
  let repeater ← Repeater.read r id
  let host ← showItem (some repeater.host)
  let rows ← Act.ask fun s =>
    match repeater.model with
    | none => "nil"
    | some m => toString (m.rowCount s)
  let entries ← repeater.instances.list.toList.mapM fun h => do
    let c ← Act.ask fun s => (s.handle h).component
    let index ← Component.get c "index"
    let data ← Component.get c "model_data"
    let shown (v : Except Fault Value) : String := (v.toOption.getD .void).text
    return s!"{shown index}={shown data}"
  let list := " ".intercalate entries
  return s!"{host} len={repeater.instances.size} rows={rows} [{list}]"

def RepeaterOp.perform (r : RepeaterId) : RepeaterOp → Script Value
  | .ensure => do
    Repeater.ensureUpdated r
    return number (← Repeater.read r (·.instances.size))
  | .needsUpdate => return .bool (← Repeater.needsUpdate r)
  | .hasInstance row => return .bool (← Repeater.instance? r row).isSome
  | .info => do return text (← showRepeater r)

def ModelOp.perform (args : List Value) : ModelOp → Script Value
  | .create name => do
    let m ← VectorModel.create args
    changeNames fun n => { n with vectors := (name, m) :: n.vectors }
    return .void
  | .push name => do done (VectorModel.push (← named Names.vectors name) args)
  | .insert name i => do done (VectorModel.insert (← named Names.vectors name) i (argAt args 0))
  | .remove name i => do done (VectorModel.remove (← named Names.vectors name) i)
  | .setRow name i => do done (VectorModel.setRow (← named Names.vectors name) i (argAt args 0))
  | .row name i => do
    let m ← named Names.vectors name
    Act.ask fun s => (Model.vector m).rowData s i
  | .rows name => do
    let m ← named Names.vectors name
    let rows ← Act.ask fun s => (s.vector m).rows
    return text (s!"{rows.length}:" ++ String.join (rows.map fun v => " " ++ v.text))
  | .peers name => do
    return number (← VectorModel.prune (← named Names.vectors name)).length
  | .attach name peer => do
    let p ← .host fun s =>
      (s.peers.size, { s with peers := s.peers.push { code := .peer peer } })
    changeNames fun n => { n with peers := (peer, p) :: n.peers }
    VectorModel.attach (← named Names.vectors name) (.user p)
    return .void
  | .kill peer => do
    let p ← named Names.peers peer
    Act.change fun s => { s with peers := s.peers.modify p fun x => { x with alive := false } }
    return .void
  | .notify name change => do done (VectorModel.notify (← named Names.vectors name) change)
  | .countRow n i => do
    let m := Model.count n
    let rows ← Act.ask fun s => m.rowCount s
    Act.note s!"rows {rows}"
    Act.ask fun s => m.rowData s i

def WindowOp.perform (ctx : Context) (c : ComponentId) : WindowOp → Script Value
  | .activate => do
    Window.activate c
    return .bool (← Window.read c).shown
  | .focusItem => do return text (← showItem (← Window.focusItem c))
  | .focusNext => return .bool (← Window.focusNext c)
  | .focus none => return .bool (← Window.setFocus c none)
  | .focus (some (path, id)) => do
    match ← itemOf (← componentAt ctx path) id with
    | .error f => failed f
    | .ok it => return .bool (← Window.setFocus c (some it))
  | .grabber => do return text (← showItem (← Window.read c).grabber)
  | .itemAt x y => do return text (← showItem (← Window.itemAt c x y))
  | .pointer kind x y => return .bool (← Window.pointer c kind x y)
  | .key k => return .bool (← Window.key c k)

inductive Task where
  | value (o : ValueOp)
  | cell (o : CellOp)
  | signal (o : SignalOp)
  | transition (o : TransitionOp)
  | definition (o : DefinitionOp)
  | handle (o : InstanceOp)
  | component (c : ComponentId) (o : ComponentOp)
  | item (it : ItemRef) (o : ItemOp)
  | repeater (r : RepeaterId) (o : RepeaterOp)
  | setRow (m : Model) (row : Int)
  | model (o : ModelOp)
  | window (c : ComponentId) (o : WindowOp)

def Task.perform (ctx : Context) (args : List Value) : Task → Script Value
  | .value o => o.perform args
  | .cell o => o.perform ctx
  | .signal o => o.perform args
  | .transition o => o.perform ctx args
  | .definition o => o.perform
  | .handle o => o.perform ctx
  | .component c o => o.perform c args
  | .item it o => o.perform it args
  | .repeater r o => o.perform r
  | .setRow m row => do done (m.setRow row (argAt args 0))
  | .model o => o.perform args
  | .window c o => o.perform ctx c

def repeaterOf (it : ItemRef) (number : Nat) : Script RepeaterId := do
  let repeaters ← Act.ask fun s => (s.item it).repeaters
  match repeaters[number]? with
  | some r => return r
  | none => SceneM.outOfRange number repeaters.length

def Operation.task (ctx : Context) : Operation → Script (Except Value Task)
  | .value o => return .ok (.value o)
  | .cell o => return .ok (.cell o)
  | .signal o => return .ok (.signal o)
  | .transition o => return .ok (.transition o)
  | .definition o => return .ok (.definition o)
  | .handle o => return .ok (.handle o)
  | .model o => return .ok (.model o)
  | .component path o => do return .ok (.component (← componentAt ctx path) o)
  | .window path o => do return .ok (.window (← componentAt ctx path) o)
  | .item path id o => do
    match ← itemOf (← componentAt ctx path) id with
    | .error f => return .error (← failed f)
    | .ok it => return .ok (.item it o)
  | .repeater path id number o => do
    match ← itemOf (← componentAt ctx path) id with
    | .error f => return .error (← failed f)
    | .ok it => return .ok (.repeater (← repeaterOf it number) o)
  | .setRow path id number row => do
    match ← itemOf (← componentAt ctx path) id with
    | .error f => return .error (← failed f)
    | .ok it =>
      match ← Repeater.read (← repeaterOf it number) (·.model) with
      | none => return .error (text "nil")
      | some m => return .ok (.setRow m row)

end ReactiveTree.Script
