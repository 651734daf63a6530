import ReactiveTree.Cell.Store

/-!
# Running code against the store

Bindings, observers and tracked work are code of others. Running it can read and write
cells again, so every step here is given the meaning of nested code as a parameter.

A run ends with a value or stops. A stop unwinds the evaluations in progress; each of them
is left behind, and the state is kept. A cycle is turned into an error by the outermost
evaluation, any other stop passes through.
-/

namespace ReactiveTree

inductive Stop where
  | cycle (e : CycleError)
  | panic (text : String)
  | unknownCell (c : CellId)
  | tooDeep
  deriving DecidableEq, Repr, Inhabited

def Stop.message : Stop → String
  | .cycle e => e.message
  | .panic text => text
  | .unknownCell c => s!"unknown cell {c}"
  | .tooDeep => "nested too deeply"

structure World (S : Type) (K : Type → Type) where
  store : Store K
  host : S

abbrev Run (S : Type) (K : Type → Type) := EStateM Stop (World S K)

structure Nested (S : Type) (K : Type → Type) : Type 1 where
  code : {α : Type} → K α → Run S K α
  get : CellId → Run S K Value

inductive Evaluation (α : Type) where
  | skipped
  | done (a : α)
  | failed (e : CycleError)

namespace Run

variable {S : Type} {K : Type → Type} {α : Type}

def view (f : Store K → α) : Run S K α := fun w => .ok (f w.store) w

def update (f : Store K → Store K) : Run S K Unit :=
  fun ⟨store, host⟩ => .ok () ⟨f store, host⟩

def step (f : Store K → α × Store K) : Run S K α :=
  fun ⟨store, host⟩ =>
    let (a, store) := f store
    .ok a ⟨store, host⟩

def evaluate (c : CellId) (body : Run S K α) : Run S K (Except CycleError α) :=
  fun ⟨store, host⟩ =>
    match body ⟨store.enter c, host⟩ with
    | .ok a ⟨store, host⟩ => .ok (.ok a) ⟨store.leave c true, host⟩
    | .error stop ⟨store, host⟩ =>
      let store := store.leave c false
      match stop with
      | .cycle e =>
        if store.active = 0 then .ok (.error e) ⟨store, host⟩
        else .error (.cycle e) ⟨store, host⟩
      | stop => .error stop ⟨store, host⟩

def untracked (body : Run S K α) : Run S K α :=
  fun ⟨store, host⟩ =>
    match body ⟨store.pushFrame none, host⟩ with
    | .ok a ⟨store, host⟩ => .ok a ⟨store.popFrame, host⟩
    | .error stop ⟨store, host⟩ => .error stop ⟨store.popFrame, host⟩

def ensure (body : Run S K α) (after : S → S) : Run S K α :=
  fun w =>
    match body w with
    | .ok a ⟨store, host⟩ => .ok a ⟨store, after host⟩
    | .error stop ⟨store, host⟩ => .error stop ⟨store, after host⟩

def onCell (c : CellId) (body : Run S K α) : Run S K α := do
  if ← view fun s => decide (c < s.cells.size) then body else throw (.unknownCell c)

def onProperty (c : CellId) (body : Run S K α) : Run S K α :=
  onCell c do
    if ← view fun s => (s.cell c).tracker then throw (.unknownCell c) else body

def onTracker (t : CellId) (body : Run S K α) : Run S K α :=
  onCell t do
    if ← view fun s => (s.cell t).tracker then body else throw (.unknownCell t)

variable (nested : Nested S K)

def compute : Binding K → Run S K Value
  | .follow root => nested.get root
  | .code c => nested.code c

/-- Evaluates the binding of `c` and stores the result, unless the binding was replaced
or the cell dropped meanwhile. -/
def refresh (c : CellId) (b : Binding K) : Run S K (Except CycleError Unit) := do
  let bindings ← view fun s => (s.cell c).bindings
  evaluate c do
    let v ← compute nested b
    update fun s => s.modify c fun cell =>
      if cell.bindings = bindings && !cell.dropped then { cell with value := v } else cell

/-- Reads a cell, evaluating its binding first if it is dirty. After an error the value is
the last good one. -/
def tryGet (c : CellId) : Run S K (Value × Option CycleError) := do
  let cell ← view fun s => s.cell c
  if cell.dropped then return (cell.value, none)
  update fun s => s.track c
  match cell.state with
  | .clean => return (cell.value, none)
  | .evaluating => throw (.cycle (← view fun s => s.cycleError c))
  | .dirty =>
    match cell.binding with
    | none =>
      update fun s => s.modify c fun cell => { cell with state := .clean }
      return (cell.value, none)
    | some b =>
      let result ← refresh nested c b
      let v ← view fun s => (s.cell c).value
      match result with
      | .ok () => return (v, none)
      | .error e => return (v, some e)

def reportError (e : CycleError) : Run S K Unit :=
  update fun s => if s.reports then s.record (.report e) else s.log s!"binding error: {e.message}"

def get (c : CellId) : Run S K Value := do
  let (v, error) ← tryGet nested c
  match error with
  | none => return v
  | some e =>
    reportError e
    return v

def fire : List ObserverId → Run S K Unit
  | [] => return
  | o :: rest => do
    match ← view fun s => s.observers[o]? with
    | some observer => unless observer.stopped do nested.code observer.code
    | none => pure ()
    fire rest

def notify : List CellId → Run S K Unit
  | [] => return
  | c :: rest => do
    let cell ← view fun s => s.cell c
    unless cell.dropped do fire nested cell.observers
    notify rest

def invalidate (c : CellId) : Run S K Unit := do
  notify nested (← step fun s =>
    let (s, cells) := s.invalidate c
    (cells, s))

/-- Makes `c` itself dirty together with what depends on it, unless it was dirty. -/
def disturb (c : CellId) : Run S K Unit := do
  if ← step fun s => s.mark c then invalidate nested c

/-- Writes a cell. The write goes to the link root and removes its binding; dependents are
invalidated only if the value changes. -/
def set (c : CellId) (v : Value) : Run S K Unit := do
  if ← view fun s => (s.cell c).dropped then
    update fun s => s.log s!"write to dropped property {s.nameOf c} ignored"
  else
    let root ← view fun s => s.linkRoot c
    if ← view fun s => (s.cell root).binding.isSome then
      update fun s => s.detach root
    unless ← view fun s => (s.cell root).value.same v do
      update fun s => s.modify root fun cell => { cell with value := v }
      invalidate nested root

def bind (c : CellId) (b : Binding K) : Run S K Unit := do
  unless ← view fun s => (s.cell c).dropped do
    update fun s => s.rebind c b
    disturb nested c

/-- Makes `a` show the link root of `b` and sends writes to `a` there. Nothing happens if
that root is `a`. -/
def link (a b : CellId) : Run S K Bool := do
  let root ← view fun s => s.linkRoot b
  if root = a then return false
  bind nested a (.follow root)
  update fun s => s.modify a fun cell => { cell with partner := some root }
  return true

def trackWork (t : CellId) (body : Run S K α) : Run S K (Evaluation α) := do
  let cell ← view fun s => s.cell t
  if cell.dropped then return .skipped
  if cell.state = .evaluating then throw (.cycle (← view fun s => s.cycleError t))
  match ← evaluate t body with
  | .ok a => return .done a
  | .error e => return .failed e

def invalidateTracker (t : CellId) : Run S K Unit := do
  unless ← view fun s => (s.cell t).dropped do
    update fun s => s.modify t fun cell => { cell with epoch := cell.epoch + 1 }
    disturb nested t

end Run

end ReactiveTree
