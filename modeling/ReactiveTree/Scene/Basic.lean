import ReactiveTree.Cell.Act
import ReactiveTree.Definition.Basic
import ReactiveTree.Animation.Lerp
import ReactiveTree.Scene.Shelf

/-!
# Scenes

A scene is what lives beside the cells: transitions and their clock, models and the
repeaters over them, component instances with their items, handles, and the input state
of each window. Objects are numbered in the order of their creation and keep their number
for good.

`U` is the type of names for user code and `X` the state that user code keeps in the
scene.
-/

namespace ReactiveTree

abbrev ComponentId := Nat
abbrev TransitionId := Nat
abbrev SignalId := Nat
abbrev VectorId := Nat
abbrev PeerId := Nat
abbrev RepeaterId := Nat
abbrev HandleId := Nat
abbrev WindowId := Nat

structure ItemRef where
  component : ComponentId
  index : Nat
  deriving DecidableEq, Repr, Inhabited

inductive Model where
  | count (n : Int64)
  | vector (m : VectorId)
  | cyclic (n : Int64) (vs : List Value)

inductive Change where
  | changed (row : Int)
  | added (index count : Int)
  | removed (index count : Int)
  deriving DecidableEq, Repr

structure Place where
  reference : Reference
  component : ComponentId
  cell : CellId
  deriving Inhabited

inductive Action where
  | increment (target : Place) (path : String)
  | toggle (target : Place)
  | set (target : Place) (v : Value)
  | emit (component : ComponentId) (name : String) (path : String)

inductive Handler (U : Type) where
  | user (u : U) (self : Option ComponentId)
  | actions (steps : List Action)

inductive Code (U : Type) : Type → Type where
  | retarget (a : TransitionId) : Code U Unit
  | remodel (r : RepeaterId) : Code U Unit
  | value (u : U) (self : Option ComponentId) : Code U Value
  | fetch (cell : CellId) (op : Option (Op × Value)) (path : String) : Code U Value
  | coerced (name : String) (kind : Kind) (body : Code U Value) : Code U Value
  | handle (h : Handler U) (args : List Value) : Code U Value
  | effect (u : U) (self : Option ComponentId) : Code U Unit
  | peer (u : U) (change : Change) : Code U Unit
  | model (u : U) (self : ComponentId) : Code U (Option Model)
  | constant (m : Model) : Code U (Option Model)
  | countOf (cell : CellId) : Code U (Option Model)

structure Clock where
  cell : CellId := 0
  running : List TransitionId := []
  ticking : Bool := false

/-- A cell whose writes move it gradually. The cell holds the current value. -/
structure Transition (U : Type) where
  cell : CellId
  spec : Spec
  interpolate : Value → Value → Float → Value
  running : Bool := false
  source : Value := .void
  target : Value
  started : Int64 := 0
  queued : Bool := false
  stopped : Bool := false
  binding : Option (Code U Value) := none
  tracker : Option CellId := none
  bindingChanged : Bool := false

instance {U : Type} : Inhabited (Transition U) :=
  ⟨{ cell := 0, spec := {}, interpolate := Lerp.value, target := .void }⟩

structure Signal (U : Type) where
  name : String
  handler : Option (Handler U) := none
  deriving Inhabited

structure Callback where
  decl : CallbackDecl
  signal : SignalId
  deriving Inhabited

inductive Peer where
  | repeater (r : RepeaterId)
  | user (p : PeerId)
  deriving DecidableEq, Repr

structure UserPeer (U : Type) where
  code : U
  alive : Bool := true

structure VectorModel where
  rows : List Value
  peers : List Peer := []
  deriving Inhabited

structure Table where
  decls : List PropDecl := []
  cells : List CellId := []
  transitions : List (Nat × TransitionId) := []
  deriving Inhabited

namespace Table

def slot? (t : Table) (name : String) : Option Nat := PropDecl.index? t.decls name

def cell? (t : Table) (i : Nat) : Option CellId := t.cells[i]?

def transition? (t : Table) (i : Nat) : Option TransitionId := t.transitions.lookup i

end Table

structure Item where
  id : String
  kind : ItemKind
  parent : Option Nat
  children : List Nat
  table : Table
  callbacks : List Callback := []
  repeaters : List RepeaterId := []
  deriving Inhabited

structure Repeater (U : Type) where
  owner : ComponentId
  host : ItemRef
  sub : Definition U
  expression : Option (Code U (Option Model))
  tracker : CellId
  model : Option Model := none
  instances : Shelf HandleId := {}
  staleRows : Shelf Bool := {}
  flag : CellId
  released : Bool := false
  deriving Inhabited

structure Component (U : Type) where
  definition : Definition U
  source : Option Nat := none
  items : Array Item := #[]
  scope : Table := {}
  callbacks : List Callback := []
  outer : Option ComponentId := none
  host : Option ItemRef := none
  window : WindowId
  transitions : List (CellId × TransitionId) := []
  refs : Int := 0
  destroyed : Bool := false
  deriving Inhabited

structure Handle where
  component : ComponentId
  released : Bool := false
  deriving Inhabited

structure Window where
  shown : Bool := false
  focus : Option ItemRef := none
  grabber : Option ItemRef := none
  hover : Option ItemRef := none
  deriving Inhabited

structure Scene (U X : Type) where
  clock : Clock := {}
  transitions : Array (Transition U) := #[]
  signals : Array (Signal U) := #[]
  vectors : Array VectorModel := #[]
  peers : Array (UserPeer U) := #[]
  repeaters : Array (Repeater U) := #[]
  components : Array (Component U) := #[]
  handles : Array Handle := #[]
  windows : Array Window := #[]
  user : X

abbrev SceneM (U X : Type) := Act (Scene U X) (Code U)

namespace Scene

variable {U X : Type}

def transition (s : Scene U X) (a : TransitionId) : Transition U := s.transitions.getD a default

def signal (s : Scene U X) (i : SignalId) : Signal U := s.signals.getD i default

def vector (s : Scene U X) (m : VectorId) : VectorModel := s.vectors.getD m default

def repeater (s : Scene U X) (r : RepeaterId) : Repeater U := s.repeaters.getD r default

def component (s : Scene U X) (c : ComponentId) : Component U := s.components.getD c default

def handle (s : Scene U X) (h : HandleId) : Handle := s.handles.getD h default

def item (s : Scene U X) (it : ItemRef) :
    Item := (s.component it.component).items.getD it.index default

def window (s : Scene U X) (c : ComponentId) : Window :=
  s.windows.getD (s.component c).window default

def modifyTransition (s : Scene U X) (a : TransitionId) (f : Transition U → Transition U) :
    Scene U X :=
  { s with transitions := s.transitions.modify a f }

def modifyVector (s : Scene U X) (m : VectorId) (f : VectorModel → VectorModel) : Scene U X :=
  { s with vectors := s.vectors.modify m f }

def modifyRepeater (s : Scene U X) (r : RepeaterId) (f : Repeater U → Repeater U) : Scene U X :=
  { s with repeaters := s.repeaters.modify r f }

def modifyComponent (s : Scene U X) (c : ComponentId) (f : Component U → Component U) :
    Scene U X :=
  { s with components := s.components.modify c f }

def modifyItem (s : Scene U X) (it : ItemRef) (f : Item → Item) : Scene U X :=
  s.modifyComponent it.component fun c => { c with items := c.items.modify it.index f }

/-- Gives the instances of a definition that may still change what it says now. Their cells
stay as they are. -/
def redefine (s : Scene U X) (source : Nat) (d : Definition U) : Scene U X :=
  { s with
    components := s.components.map fun c =>
      if c.source = some source then { c with definition := d } else c }

def modifyWindow (s : Scene U X) (c : ComponentId) (f : Window → Window) : Scene U X :=
  { s with windows := s.windows.modify (s.component c).window f }

def setHandler (s : Scene U X) (i : SignalId) (h : Option (Handler U)) : Scene U X :=
  { s with signals := s.signals.modify i fun signal => { signal with handler := h } }

def outward (s : Scene U X) : Nat → ComponentId → Option ComponentId
  | 0, c => some c
  | n + 1, c =>
    match (s.component c).outer with
    | some outer => s.outward n outer
    | none => none

end Scene

def clockName : String := "animation-tick"

def World.start {U X : Type} (user : X) (reports : Bool) : World (Scene U X) (Code U) where
  store := { cells := #[{ name := clockName, value := .duration 0 }], reports }
  host := { user }

namespace SceneM

variable {U X : Type}

def cellName (c : CellId) : SceneM U X String := .view fun s => s.nameOf c

def isDropped (c : CellId) : SceneM U X Bool := .view fun s => (s.cell c).dropped

def absent {α : Type} : SceneM U X α :=
  .panic "runtime error: invalid memory address or nil pointer dereference"

def outOfRange {α : Type} (i n : Nat) : SceneM U X α :=
  .panic s!"runtime error: index out of range [{i}] with length {n}"

def logFault (context : String) (f : Fault) : SceneM U X Unit := Act.log s!"{context}: {f.message}"

end SceneM

end ReactiveTree
