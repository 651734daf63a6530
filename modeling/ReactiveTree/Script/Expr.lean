import ReactiveTree.Script.Function

/-!
# The expression language of scripts

Scripts drive a scene. Their expressions are also the user code of the scene: bindings,
observers, handlers and models are expressions that run later, in the context they were
written in.

An operation finds the component, item or repeater it is about and then takes the values of
its arguments; the other expressions decide themselves what runs and when.
-/

namespace ReactiveTree.Script

inductive ValueOp where
  | arith (op : Op)
  | neg
  | coerce (kind : Kind)
  | equal
  | less
  | note (text : String)
  | panic (text : String)

inductive CellOp where
  | create (name : String) (v : Value) (cellName : String)
  | get (cell : String)
  | peek (cell : String)
  | tryGet (cell : String)
  | drop (cell : String)
  | link (a b : String)
  | root (cell : String)
  | title (cell : String)
  | isDirty (cell : String)
  | state (cell : String)
  | unobserve (observer : String)
  | depth
  | evaluations
  | invalidate (tracker : String)
  | dropTracker (tracker : String)
  | trackerName (tracker : String)

inductive SignalOp where
  | create (name : String)
  | hasHandler (name : String)
  | call (name : String)

inductive TransitionOp where
  | create (name cell : String) (spec : Spec)
  | set (name : String)
  | stop (name : String)
  | get (name : String)
  | target (name : String)
  | describe (name : String)
  | advance (ns : Int64)
  | moveTo (ns : Int64)
  | now
  | active

inductive DefinitionOp where
  | load (name : String) (text : String)
  | lookup (definition id prop : String)
  | callbackArgs (definition id name : String)
  | hasItem (definition id : String)
  | declared (definition : String)

inductive InstanceOp where
  | create (definition handle : String)
  | retain (handle new : String)
  | release (handle : String)
  | weak (handle : Option String) (weak : String)
  | upgrade (weak new : String)
  | isAlive (weak : String)
  | same (a b : String)

inductive ComponentOp where
  | rename (new : String)
  | isWired
  | info
  | get (name : String)
  | set (name : String)
  | invoke (name : String)
  | install (name : String) (signature : Option String)
  | callbackInfo (name : String)
  | property (id prop : String)
  | properties
  | item (id : String)
  | itemAt (i : Int)
  | visit (order : Order) (last : Option String)
  | dump
  | table (framed : Bool)
  | applySet (text : String)
  | applyEmit (text : String)

inductive ItemOp where
  | get (prop : String)
  | set (prop : String)
  | emit (name : String)
  | parent
  | children
  | geometry
  | absolute
  | transition (prop : String)

inductive RepeaterOp where
  | ensure
  | needsUpdate
  | hasInstance (row : Int)
  | info

inductive ModelOp where
  | create (model : String)
  | push (model : String)
  | insert (model : String) (i : Int)
  | remove (model : String) (i : Int)
  | setRow (model : String) (i : Int)
  | row (model : String) (i : Int)
  | rows (model : String)
  | peers (model : String)
  | attach (model peer : String)
  | kill (peer : String)
  | notify (model : String) (change : Change)
  | countRow (n : Int64) (i : Int)

inductive WindowOp where
  | activate
  | focusItem
  | focusNext
  | focus (target : Option (String × String))
  | grabber
  | itemAt (x y : Float)
  | pointer (kind : Window.PointerKind) (x y : Float)
  | key (k : Window.Key)

inductive Operation where
  | value (o : ValueOp)
  | cell (o : CellOp)
  | signal (o : SignalOp)
  | transition (o : TransitionOp)
  | definition (o : DefinitionOp)
  | handle (o : InstanceOp)
  | component (path : String) (o : ComponentOp)
  | item (component id : String) (o : ItemOp)
  | repeater (component id : String) (number : Nat) (o : RepeaterOp)
  | setRow (component id : String) (number : Nat) (row : Int)
  | model (o : ModelOp)
  | window (component : String) (o : WindowOp)

mutual

inductive Expr where
  | literal (v : Value)
  | argument (i : Int)
  | apply (o : Operation) (args : List Expr)
  | cond (c a b : Expr)
  | seq (es : List Expr)
  | untracked (e : Expr)
  | track (tracker : String) (e : Expr)
  | set (cell : String) (e : Expr)
  | bound (name : String) (e : Expr) (cellName : String)
  | bind (cell : String) (e : Expr)
  | observe (cell name : String) (e : Expr)
  | tracker (name : String) (onDirty : Option Expr) (cellName : String)
  | handler (signal : String) (e : Option Expr)
  | follow (transition : String) (e : Expr)
  | onComponent (component name : String) (e : Option Expr)
  | onItem (component id name : String) (e : Option Expr)
  | define (name title : String) (steps : List BuildStep)

inductive RowsExpr where
  | vector (model : String)
  | count (e : Expr)
  | choose (c : Expr) (yes no : String)
  | cyclic (n : Expr) (rows : List Expr)
  | absent

inductive BuildStep where
  | root (kind : Nat) (id : String)
  | child (parent : String) (kind : Nat) (id : String)
  | declare (name : String) (kind : Kind) (v : Value)
  | callback (name : String) (args : List Kind)
  | set (id prop : String) (v : Value)
  | bind (id prop : String) (e : Expr)
  | animate (id prop : String) (spec : Spec)
  | twoWay (id prop otherId otherProp : String)
  | onCallback (id name : String) (e : Option Expr)
  | repeatRows (parent definition : String) (rows : Option RowsExpr)
  | focus (id : String)

end

end ReactiveTree.Script
