import ReactiveTree.Value.Basic
import ReactiveTree.Cell.Room

/-!
# The store of reactive cells

A cell holds a value that is either written or computed by a binding. A cell that runs a
binding or a tracked piece of work is a *consumer*: each cell it reads records an edge to
it. Edges are weak. They name the consumer by a slot and the slot's generation, and carry
the number of the evaluation that made them, so an edge counts only while its consumer
lives and has not been evaluated again. These numbers do not wrap.

This file has the data and every step that runs no code of others: recording a read,
entering and leaving an evaluation, slots, and marking the dependents of a cell.
-/

namespace ReactiveTree

abbrev CellId := Nat

abbrev ObserverId := Nat

inductive CellState where
  | clean
  | dirty
  | evaluating
  deriving DecidableEq, Repr, Inhabited

def CellState.name : CellState → String
  | .clean => "clean"
  | .dirty => "dirty"
  | .evaluating => "evaluating"

def CellState.numberName (n : Nat) : String :=
  match [CellState.clean, .dirty, .evaluating][n]? with
  | some s => s.name
  | none => s!"state({n})"

structure Ref where
  slot : Nat
  generation : Nat
  deriving DecidableEq, Repr, Inhabited

/-- A consumer that read a cell during its evaluation number `epoch`. -/
structure Edge where
  consumer : Ref
  epoch : Nat
  deriving DecidableEq, Repr

inductive Binding (K : Type → Type) where
  | follow (root : CellId)
  | code (c : K Value)

structure Cell (K : Type → Type) where
  name : String := ""
  tracker : Bool := false
  value : Value := .void
  binding : Option (Binding K) := none
  bindings : Nat := 0
  /-- The cell that stores the writes to this one. -/
  partner : Option CellId := none
  state : CellState := .clean
  /-- Invalidated while evaluating. -/
  disturbed : Bool := false
  dropped : Bool := false
  self : Ref := ⟨0, 0⟩
  hasSlot : Bool := false
  /-- Counts the evaluations and the changes of binding. -/
  epoch : Nat := 0
  dependents : List Edge := []
  room : Nat := 0
  observers : List ObserverId := []

instance {K : Type → Type} : Inhabited (Cell K) := ⟨{}⟩

structure Observer (K : Type → Type) where
  cell : CellId
  code : K Unit
  stopped : Bool := false

/-- A place for a consumer. Its generation changes each time it is emptied. -/
structure Slot where
  generation : Nat := 0
  cell : Option CellId := none
  deriving DecidableEq, Repr, Inhabited

/-- One entry of the evaluation stack. Without a consumer it is an untracked region. -/
structure Frame where
  consumer : Option CellId
  seen : List CellId := []
  deriving DecidableEq, Repr, Inhabited

structure CycleError where
  property : String
  path : List String
  deriving DecidableEq, Repr, Inhabited

def CycleError.message (e : CycleError) : String :=
  let path := " -> ".intercalate e.path
  s!"binding cycle detected on {e.property}: {path}"

inductive Entry where
  | log (line : String)
  | report (e : CycleError)
  | note (t : Text)

structure Store (K : Type → Type) where
  cells : Array (Cell K) := #[]
  observers : Array (Observer K) := #[]
  slots : Array Slot := #[]
  free : List Nat := []
  /-- The evaluation stack, innermost first. -/
  frames : List Frame := []
  active : Nat := 0
  evaluations : Nat := 0
  reports : Bool := false
  journal : List Entry := []

namespace Store

variable {K : Type → Type}

def cell (s : Store K) (c : CellId) : Cell K := s.cells.getD c {}

def modify (s : Store K) (c : CellId) (f : Cell K → Cell K) : Store K :=
  { s with cells := s.cells.modify c f }

def record (s : Store K) (e : Entry) : Store K := { s with journal := e :: s.journal }

def log (s : Store K) (line : String) : Store K := s.record (.log line)

def add (s : Store K) (c : Cell K) : CellId × Store K :=
  (s.cells.size, { s with cells := s.cells.push c })

def nameOf (s : Store K) (c : CellId) : String :=
  let cell := s.cell c
  if cell.name ≠ "" then cell.name
  else if cell.hasSlot then s!"#{cell.self.slot}"
  else "<anonymous>"

/-! ## Slots -/

def live (s : Store K) : Nat := s.slots.size - s.free.length

def resolve (s : Store K) (r : Ref) : Option CellId :=
  match s.slots[r.slot]? with
  | some slot => if slot.generation = r.generation then slot.cell else none
  | none => none

def consumer? (s : Store K) (e : Edge) : Option CellId :=
  match s.resolve e.consumer with
  | some d => if (s.cell d).epoch = e.epoch then some d else none
  | none => none

def liveEdges (s : Store K) (edges : List Edge) : List Edge :=
  edges.filter fun e => (s.consumer? e).isSome

def dependents (s : Store K) (c : CellId) : Nat :=
  (s.liveEdges (s.cell c).dependents).length

/-- Gives `c` a slot, if it has none: the one emptied last, or else a new one. -/
def takeSlot (s : Store K) (c : CellId) : Store K :=
  if (s.cell c).hasSlot then s
  else
    match s.free with
    | i :: free =>
      let generation := (s.slots.getD i {}).generation
      { s with free, slots := s.slots.modify i fun slot => { slot with cell := some c } }
        |>.modify c fun cell => { cell with self := ⟨i, generation⟩, hasSlot := true }
    | [] =>
      let i := s.slots.size
      { s with slots := s.slots.push ⟨0, some c⟩ }
        |>.modify c fun cell => { cell with self := ⟨i, 0⟩, hasSlot := true }

def leaveSlot (s : Store K) (c : CellId) : Store K :=
  let cell := s.cell c
  if cell.hasSlot then
    let i := cell.self.slot
    { s with
      free := i :: s.free
      slots := s.slots.modify i fun slot => ⟨slot.generation + 1, none⟩ }
      |>.modify c fun cell => { cell with hasSlot := false }
  else s

/-! ## Frames and evaluations -/

def pushFrame (s : Store K) (consumer : Option CellId) : Store K :=
  { s with frames := ⟨consumer, []⟩ :: s.frames }

def popFrame (s : Store K) : Store K := { s with frames := s.frames.tail }

/-- Adds an edge to a cell, or renews the edge of the same consumer in its place. Edges that
are no longer live stay until there is no place for another one. -/
def addEdge (s : Store K) (cell : Cell K) (e : Edge) : Cell K :=
  if cell.dependents.any (·.consumer = e.consumer) then
    { cell with dependents := cell.dependents.map fun x => if x.consumer = e.consumer then
      e else x }
  else if cell.dependents.length < cell.room then
    { cell with dependents := cell.dependents ++ [e] }
  else
    let edges := s.liveEdges cell.dependents
    { cell with
      dependents := edges ++ [e]
      room := if edges.length < cell.room then cell.room else Room.ofEdges cell.room }

def track (s : Store K) (dep : CellId) : Store K :=
  match s.frames with
  | [] => s
  | frame :: frames =>
    match frame.consumer with
    | none => s
    | some c =>
      if c = dep || frame.seen.contains dep then s
      else
        let consumer := s.cell c
        let read := s.addEdge (s.cell dep) ⟨consumer.self, consumer.epoch⟩
        { s with frames := { frame with seen := dep :: frame.seen } :: frames }
          |>.modify dep fun _ => read

def enter (s : Store K) (c : CellId) : Store K :=
  let s := (s.takeSlot c).modify c fun cell =>
    { cell with epoch := cell.epoch + 1, state := .evaluating, disturbed := false }
  let s := s.pushFrame (some c)
  { s with active := s.active + 1, evaluations := s.evaluations + 1 }

/-- Ends an evaluation of `c`. It is clean afterwards if the evaluation completed and
nothing it had read changed meanwhile. -/
def leave (s : Store K) (c : CellId) (completed : Bool) : Store K :=
  let s := s.popFrame
  { s with active := s.active - 1 }.modify c fun cell =>
    { cell with state := if completed && !cell.disturbed then .clean else .dirty }

/-- The report of a read of `c` while `c` is being evaluated: the consumers from its
innermost frame on, then `c` again. -/
def cycleError (s : Store K) (c : CellId) : CycleError :=
  let inner := s.frames.takeWhile fun f => f.consumer != some c
  let involved := s.frames.take (inner.length + 1)
  let path := involved.reverse.filterMap fun f => f.consumer.map s.nameOf
  ⟨s.nameOf c, path ++ [s.nameOf c]⟩

/-! ## Marking -/

/-- Moves `c` out of the clean state, and says whether it was in it. An evaluation in
progress is disturbed once. -/
def mark (s : Store K) (c : CellId) : Bool × Store K :=
  match (s.cell c).state with
  | .clean => (true, s.modify c fun cell => { cell with state := .dirty })
  | .evaluating =>
    if (s.cell c).disturbed then (false, s)
    else (true, s.modify c fun cell => { cell with disturbed := true })
  | .dirty => (false, s)

/-- Marks the consumers of live edges. Returns those that left the clean state, the last
one first, put before `marked`. -/
def markAll (s : Store K) (marked : List CellId) : List Edge → Store K × List CellId
  | [] => (s, marked)
  | e :: edges =>
    match s.consumer? e with
    | none => s.markAll marked edges
    | some d =>
      match s.mark d with
      | (false, s) => s.markAll marked edges
      | (true, s) => s.markAll (d :: marked) edges

/-- Marks everything that depends on the cells of `work`, the last found first. Each cell
is found at most once, so `limit` need not exceed their number by more than one. `marked`
lists the cells found, the last one first. -/
def spread (s : Store K) : (limit : Nat) → (work marked : List CellId) → Store K × List CellId
  | 0, _, marked => (s, marked)
  | _, [], marked => (s, marked)
  | limit + 1, c :: work, marked =>
    let edges := (s.cell c).dependents
    let s := s.modify c fun cell => { cell with dependents := [], room := 0 }
    let (s, found) := s.markAll [] edges
    s.spread limit (found ++ work) (found ++ marked)

/-- Marks everything that depends on `c` and lists the cells to notify: `c`, then the
marked ones as they were found. -/
def invalidate (s : Store K) (c : CellId) : Store K × List CellId :=
  let (s, marked) := s.spread (s.cells.size + 1) [c] []
  (s, c :: marked.reverse)

/-! ## Links -/

def partner? (s : Store K) (c : CellId) : Option CellId :=
  match (s.cell c).partner with
  | some p => if (s.cell p).dropped then none else some p
  | none => none

def follow (s : Store K) : (limit : Nat) → CellId → CellId
  | 0, c => c
  | limit + 1, c =>
    match s.partner? c with
    | some p => s.follow limit p
    | none => c

/-- The cell that stores the writes to `c`; `c` itself when it is not linked. Where links
form no loop, there are fewer steps than cells. -/
def linkRoot (s : Store K) (c : CellId) : CellId := s.follow s.cells.size c

/-! ## Dropping and unbinding -/

def drop (s : Store K) (c : CellId) : Store K :=
  let s := s.modify c fun cell => { cell with binding := none, partner := none }
  if (s.cell c).dropped then s
  else
    (s.leaveSlot c).modify c fun cell =>
      { cell with dropped := true, dependents := [], room := 0, observers := [], state := .clean }

def detach (s : Store K) (c : CellId) : Store K :=
  s.modify c fun cell =>
    { cell with
      binding := none
      bindings := cell.bindings + 1
      partner := none
      epoch := cell.epoch + 1
      state := if cell.state = .dirty then .clean else cell.state }

def rebind (s : Store K) (c : CellId) (b : Binding K) : Store K :=
  s.modify c fun cell =>
    { cell with
      binding := some b
      bindings := cell.bindings + 1
      partner := none
      epoch := cell.epoch + 1 }

/-! ## Observers -/

def observe (s : Store K) (c : CellId) (code : K Unit) : ObserverId × Store K :=
  let o := s.observers.size
  (o, { s with observers := s.observers.push ⟨c, code, false⟩ }.modify c fun cell =>
    { cell with observers := cell.observers ++ [o] })

def unobserve (s : Store K) (o : ObserverId) : Store K :=
  match s.observers[o]? with
  | none => s
  | some observer =>
    { s with observers := s.observers.modify o fun x => { x with stopped := true } }.modify
      observer.cell fun cell => { cell with observers := cell.observers.filter (· != o) }

end Store

end ReactiveTree
