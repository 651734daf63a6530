import ReactiveTree.Item.Layout
import ReactiveTree.Definition.Fault
import ReactiveTree.Definition.Reference

/-!
# Component definitions

A definition is the description of a component: its element tree, the properties and
callbacks it declares, and how each cell starts out. It is made by builder calls, which
keep the first fault and then ignore everything after it, and instantiated any number of
times.

Places in a definition are nodes: `some n` is an element, `none` the component itself,
which is addressed with the empty id. In the component's scope a declared property hides
one of the root element.

User code comes in by name, in a type `U`.
-/

namespace ReactiveTree

structure Spec where
  duration : Int64 := 0
  delay : Int64 := 0
  easing : Float → Float := id

instance : Inhabited Spec := ⟨{}⟩

inductive BindingTemplate (U : Type) where
  | user (u : U)
  /-- The referenced property, under an operator with a constant if there is one. `path`
  names the place in messages. -/
  | fetch (source : Reference) (op : Option (Op × Value)) (path : String)

inductive ActionTemplate where
  | increment (target : Reference) (path : String)
  | toggle (target : Reference)
  | set (target : Reference) (v : Value)
  | emit (outer : Nat) (name : String) (path : String)

inductive HandlerTemplate (U : Type) where
  | absent
  | user (u : U)
  | actions (steps : List ActionTemplate)

inductive ModelTemplate (U : Type) where
  | user (u : U)
  | count (n : Int64)
  | rows (vs : List Value)
  | countOf (source : Reference)

structure NodeDef where
  id : String
  kind : ItemKind
  parent : Option Nat
  children : List Nat := []
  deriving Inhabited

structure SetDef where
  node : Option Nat
  prop : String
  v : Value

structure BindDef (U : Type) where
  node : Option Nat
  prop : String
  template : BindingTemplate U

structure AnimDef where
  node : Option Nat
  prop : String
  spec : Spec

structure LinkDef where
  node : Option Nat
  prop : String
  other : Option Nat
  otherProp : String
  deriving DecidableEq, Repr

structure HandlerDef (U : Type) where
  node : Option Nat
  name : String
  template : HandlerTemplate U

structure Definition (U : Type) where
  name : String
  nodes : List NodeDef := []
  declared : List PropDecl := []
  callbacks : List CallbackDecl := []
  sets : List SetDef := []
  binds : List (BindDef U) := []
  anims : List AnimDef := []
  links : List LinkDef := []
  handlers : List (HandlerDef U) := []
  repeats : List (Nat × Definition U × Option (ModelTemplate U)) := []
  initialFocus : Option Nat := none
  fault : Option Fault := none

instance {U : Type} : Inhabited (Definition U) := ⟨{ name := "" }⟩

namespace Definition

variable {U : Type}

/-! ## Names -/

def hasItem (d : Definition U) (id : String) : Bool := d.nodes.any (·.id == id)

def node? (d : Definition U) (id : String) : Option (Option Nat) :=
  if id = "" then some none else (d.nodes.findIdx? (·.id == id)).map some

def elementProp? (d : Definition U) (n : Nat) (prop : String) : Option PropDecl :=
  match d.nodes[n]? with
  | none => none
  | some node => node.kind.layout.props.find? (·.name == prop)

def find? (d : Definition U) (n : Option Nat) (prop : String) : Option (Option Nat × PropDecl) :=
  match n with
  | some n => (d.elementProp? n prop).map fun decl => (some n, decl)
  | none =>
    match d.declared.find? (·.name == prop) with
    | some decl => some (none, decl)
    | none => (d.elementProp? 0 prop).map fun decl => (some 0, decl)

def lookup? (d : Definition U) (id prop : String) : Option PropDecl :=
  match d.node? id with
  | none => none
  | some n => (d.find? n prop).map (·.2)

def callbackDecl? (d : Definition U) (n : Option Nat) (name : String) : Option CallbackDecl :=
  match n with
  | none => d.callbacks.find? (·.name == name)
  | some n =>
    match d.nodes[n]? with
    | none => none
    | some node => node.kind.layout.callbacks.find? (·.name == name)

def callbackArgs? (d : Definition U) (id name : String) : Option (List Kind) :=
  match d.node? id with
  | none => none
  | some n => (d.callbackDecl? n name).map (·.args)

/-! ## Building -/

def fail (d : Definition U) (f : Fault) : Definition U :=
  match d.fault with
  | some _ => d
  | none => { d with fault := some (.within d.name f) }

def unlessFaulty (d : Definition U) (next : Definition U) : Definition U :=
  if d.fault.isSome then d else next

/-- Adds an element of the kind with a number. Without an id it is named after its kind
and place. -/
def addNode (d : Definition U) (kind : Nat) (id : String) (parent : Option Nat) : Definition U :=
  match ItemKind.ofNumber? kind with
  | none => d.fail (.other s!"unknown kind {kind}")
  | some kind =>
    let n := d.nodes.length
    let id := if id = "" then s!"{kind.name.toLower}-{n}" else id
    if d.hasItem id then d.fail (.other s!"duplicate id {quoteString id}")
    else
      let nodes := match parent with
        | none => d.nodes
        | some p => d.nodes.modify p fun node => { node with children := node.children ++ [n] }
      { d with nodes := nodes ++ [{ id, kind, parent }] }

def root (d : Definition U) (kind : Nat) (id : String) : Definition U :=
  d.unlessFaulty <|
    if d.nodes.isEmpty then d.addNode kind id none else d.fail (.other "root already set")

def child (d : Definition U) (parent : String) (kind : Nat) (id : String) : Definition U :=
  d.unlessFaulty <|
    match d.node? parent with
    | some (some p) => d.addNode kind id (some p)
    | _ => d.fail (.within s!"child {quoteString id}" (.noSuchItem parent))

def declare (d : Definition U) (name : String) (kind : Kind) (default : Value) : Definition U :=
  d.unlessFaulty <|
    if (d.find? none name).isSome then
      d.fail (.other s!"property {quoteString name} declared twice")
    else
      match default.coerceTo kind with
      | .ok v => { d with declared := d.declared ++ [⟨name, kind, v⟩] }
      | .error e => d.fail (.within s!"property {quoteString name}" (.coercion e))

def declareCallback (d : Definition U) (name : String) (args : List Kind) : Definition U :=
  d.unlessFaulty <|
    if d.callbacks.any (·.name == name) then
      d.fail (.other s!"callback {quoteString name} declared twice")
    else { d with callbacks := d.callbacks ++ [⟨name, args⟩] }

def resolve (d : Definition U) (id prop : String) : Except Fault (Option Nat × PropDecl) :=
  match d.node? id with
  | none => .error (.within s!"{id}.{prop}" (.noSuchItem id))
  | some n =>
    match d.find? n prop with
    | none => .error (.within s!"{id}.{prop}" .noSuchProperty)
    | some found => .ok found

def onProp (d : Definition U) (id prop : String)
    (next : Option Nat → PropDecl → Definition U) : Definition U :=
  d.unlessFaulty <|
    match d.resolve id prop with
    | .error f => d.fail f
    | .ok (n, decl) => next n decl

def set (d : Definition U) (id prop : String) (v : Value) : Definition U :=
  d.onProp id prop fun n decl =>
    match v.coerceTo decl.kind with
    | .error e => d.fail (.within s!"{id}.{prop}" (.coercion e))
    | .ok v => { d with sets := d.sets ++ [⟨n, prop, v⟩] }

def bind (d : Definition U) (id prop : String) (template : BindingTemplate U) : Definition U :=
  d.onProp id prop fun n _ => { d with binds := d.binds ++ [⟨n, prop, template⟩] }

def animate (d : Definition U) (id prop : String) (spec : Spec) : Definition U :=
  d.onProp id prop fun n _ => { d with anims := d.anims ++ [⟨n, prop, spec⟩] }

def linkFrom? (links : List LinkDef) (node : Option Nat) (prop : String) : Option LinkDef :=
  links.find? fun l => l.node = node && l.prop = prop

/-- Does the chain of links from `node.prop` reach the target? Each property follows at most
one other, so the chain is a single path. -/
def chainReaches (links : List LinkDef) (target : Option Nat × String) :
    (limit : Nat) → (node : Option Nat) → (prop : String) → Bool
  | 0, _, _ => false
  | limit + 1, node, prop =>
    match linkFrom? links node prop with
    | none => false
    | some l =>
      (l.other, l.otherProp) = target || chainReaches links target limit l.other l.otherProp

def twoWay (d : Definition U) (id prop otherId otherProp : String) : Definition U :=
  d.onProp id prop fun n a =>
    d.onProp otherId otherProp fun o b =>
      let both := s!"two-way {id}.{prop} <=> {otherId}.{otherProp}"
      if a.kind ≠ b.kind then d.fail (.within both (.other s!"{a.kind.name} vs {b.kind.name}"))
      else if n = o && prop = otherProp then
        d.fail (.other s!"two-way {id}.{prop} bound to itself")
      else if (linkFrom? d.links n prop).isSome then
        d.fail (.other s!"two-way {id}.{prop} is already linked")
      else if chainReaches d.links (n, prop) d.links.length o otherProp then
        d.fail (.other s!"{both} closes a loop")
      else { d with links := d.links ++ [⟨n, prop, o, otherProp⟩] }

def onCallback (d : Definition U) (id name : String) (template : HandlerTemplate U) :
    Definition U :=
  d.unlessFaulty <|
    match d.node? id with
    | none => d.fail (.within s!"callback {id}.{name}" (.noSuchItem none))
    | some n =>
      if (d.callbackDecl? n name).isSome then
        { d with handlers := d.handlers ++ [⟨n, name, template⟩] }
      else d.fail (.within s!"{id}.{name}" .noSuchCallback)

/-- A definition that is repeated declares the data and the number of its row, unless it
has such properties already. -/
def asRow (sub : Definition U) : Definition U :=
  let sub := if (sub.find? none "model_data").isSome then sub else sub.declare
    "model_data" .void .void
  if (sub.find? none "index").isSome then sub else sub.declare "index" .int (.int 0)

/-- Repeats `sub` under an element, one instance per row. Returns both definitions: `sub`
becomes a row. -/
def repeatRows (d : Definition U) (parent : String) (sub : Definition U)
    (model : Option (ModelTemplate U)) : Definition U × Definition U :=
  if d.fault.isSome then (d, sub)
  else
    match d.node? parent with
    | some (some p) =>
      match sub.fault with
      | some f => (d.fail (.within "repeat" f), sub)
      | none =>
        if sub.nodes.isEmpty then (d.fail (.other s!"repeat: {sub.name} has no root"), sub)
        else
          let sub := sub.asRow
          ({ d with repeats := d.repeats ++ [(p, sub, model)] }, sub)
    | _ => (d.fail (.within "repeat" (.noSuchItem parent)), sub)

def focus (d : Definition U) (id : String) : Definition U :=
  d.unlessFaulty <|
    match d.node? id with
    | some (some n) =>
      match d.nodes[n]? with
      | none => d.fail (.within "initial focus" (.noSuchItem id))
      | some node =>
        if node.kind.caps.has .focusable then { d with initialFocus := some n }
        else d.fail (.other s!"initial focus: {node.kind.name} {quoteString id} is not focusable")
    | _ => d.fail (.within "initial focus" (.noSuchItem id))

/-! ## Nesting -/

def height : Definition U → Nat
  | ⟨_, nodes, _, _, _, _, _, _, _, repeats, _, _⟩ => nodes.length + heightOfRows repeats
where
  heightOfRows : List (Nat × Definition U × Option (ModelTemplate U)) → Nat
    | [] => 0
    | (_, sub, _) :: rest => max sub.height (heightOfRows rest)

end Definition

end ReactiveTree
