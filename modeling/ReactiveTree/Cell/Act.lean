import ReactiveTree.Cell.Run

/-!
# Programs over cells

`Act S K α` is a program that works on cells and on the state `S` of a host and returns an
`α`. Cells and observers hold code by name, in the type `K`: `K α` names programs that
return an `α`. A meaning `K α → Act S K α` says what the names stand for.

Programs nest through the store (a read runs a binding, which reads, ...), so running one
takes a limit on that depth. The programs themselves are trees without loops. None of them
catches a panic.
-/

namespace ReactiveTree

inductive Act (S : Type) (K : Type → Type) : Type → Type 1 where
  | pure {α : Type} (a : α) : Act S K α
  | bind {α β : Type} (x : Act S K α) (f : α → Act S K β) : Act S K β
  | host {α : Type} (f : S → α × S) : Act S K α
  | view {α : Type} (f : Store K → α) : Act S K α
  | record (e : Entry) : Act S K Unit
  | panic {α : Type} (text : String) : Act S K α
  | perform {α : Type} (c : K α) : Act S K α
  /-- Nothing that the body reads is recorded. -/
  | untracked {α : Type} (body : Act S K α) : Act S K α
  /-- Changes the host after the body, however it ends. -/
  | ensure {α : Type} (body : Act S K α) (after : S → S) : Act S K α
  | new (name : String) (v : Value) : Act S K CellId
  | newBound (name : String) (c : K Value) : Act S K CellId
  /-- A tracker starts dirty. `onDirty` runs each time it leaves the clean state. -/
  | newTracker (name : String) (onDirty : Option (K Unit)) : Act S K CellId
  | tryGet (c : CellId) : Act S K (Value × Option CycleError)
  | get (c : CellId) : Act S K Value
  | set (c : CellId) (v : Value) : Act S K Unit
  | setBinding (c : CellId) (code : K Value) : Act S K Unit
  | link (a b : CellId) : Act S K Bool
  | drop (c : CellId) : Act S K Unit
  | observe (c : CellId) (code : K Unit) : Act S K ObserverId
  | unobserve (o : ObserverId) : Act S K Unit
  /-- Work whose reads the tracker records. -/
  | track {α : Type} (t : CellId) (body : Act S K α) : Act S K (Evaluation α)
  | invalidate (t : CellId) : Act S K Unit

namespace Act

variable {S : Type} {K : Type → Type} {α : Type}

instance : Monad (Act S K) where
  pure := Act.pure
  bind := Act.bind

def addTracker (s : Store K) (name : String) (onDirty : Option (K Unit)) : CellId × Store K :=
  let (t, s) := s.add { name, tracker := true, state := .dirty }
  match onDirty with
  | none => (t, s)
  | some code => (t, (s.observe t code).2)

/-- Runs a program, given how code nests. -/
def interpret (nested : Nested S K) {α : Type} : Act S K α → Run S K α
  | .pure a => fun w => .ok a w
  | .bind x f => fun w =>
    match x.interpret nested w with
    | .ok a w => (f a).interpret nested w
    | .error stop w => .error stop w
  | .host f => fun ⟨store, state⟩ =>
    let (a, state) := f state
    .ok a ⟨store, state⟩
  | .view f => Run.view f
  | .record e => Run.update fun s => s.record e
  | .panic text => throw (.panic text)
  | .perform c => nested.code c
  | .untracked body => Run.untracked (body.interpret nested)
  | .ensure body after => Run.ensure (body.interpret nested) after
  | .new name v => Run.step fun s => s.add { name, value := v }
  | .newBound name c =>
    Run.step fun s => s.add { name, binding := some (.code c), bindings := 1, state := .dirty }
  | .newTracker name onDirty => Run.step fun s => addTracker s name onDirty
  | .tryGet c => Run.onProperty c (Run.tryGet nested c)
  | .get c => Run.onProperty c (Run.get nested c)
  | .set c v => Run.onProperty c (Run.set nested c v)
  | .setBinding c code => Run.onProperty c (Run.bind nested c (.code code))
  | .link a b => Run.onProperty a (Run.onProperty b (Run.link nested a b))
  | .drop c => Run.onCell c (Run.update fun s => s.drop c)
  | .observe c code => Run.onCell c (Run.step fun s => s.observe c code)
  | .unobserve o => Run.update fun s => s.unobserve o
  | .track t body => Run.onTracker t (Run.trackWork t (body.interpret nested))
  | .invalidate t => Run.onTracker t (Run.invalidateTracker nested t)

variable (meaning : {α : Type} → K α → Act S K α)

/-- Code and reads that nest no deeper than this. -/
def nestedTo : (depth : Nat) → Nested S K
  | 0 => { code := fun _ => throw .tooDeep, get := fun _ => throw .tooDeep }
  | depth + 1 =>
    { code := fun c => (meaning c).interpret (nestedTo depth)
      get := fun c => (Act.get c).interpret (nestedTo depth) }

def runTo (depth : Nat) (act : Act S K α) : Run S K α := act.interpret (nestedTo meaning depth)

def depthLimit : Nat := 1000000

def run (act : Act S K α) : Run S K α := act.runTo meaning depthLimit

/-! ## Derived programs -/

/-- A read that is not recorded. -/
def peek (c : CellId) : Act S K Value := .untracked (.get c)

def log (line : String) : Act S K Unit := .record (.log line)

def note (s : String) : Act S K Unit := .record (.note (Text.ofString s))

/-- Reads the state of the host. -/
def ask (f : S → α) : Act S K α := .host fun s => (f s, s)

def change (f : S → S) : Act S K Unit := .host fun s => ((), f s)

end Act

end ReactiveTree
