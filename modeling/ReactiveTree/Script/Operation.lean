import ReactiveTree.Script.Names

/-!
# Operations on values, cells, callbacks and transitions

Each operation takes the values computed for it and returns a value. The arguments of an
operation that takes fewer are ignored, missing ones are void.
-/

namespace ReactiveTree.Script

def argAt (args : List Value) (i : Nat) : Value := args.getD i .void

def ValueOp.perform (args : List Value) : ValueOp → Script Value
  | .arith op => orFailed ((Value.arith op (argAt args 0) (argAt args 1)).mapError .arithmetic)
  | .neg => orFailed ((argAt args 0).neg.mapError fun e => .other e.message)
  | .coerce kind => orFailed (((argAt args 0).coerce kind).mapError .coercion)
  | .equal => return .bool ((argAt args 0).equal (argAt args 1))
  | .less => return .bool ((argAt args 0).compare? (argAt args 1) = some .lt)
  | .note s => do done (Act.note s!"note {s}")
  | .panic s => .panic s

def readNoting (c : CellId) : Script Value := do
  let (v, error) ← Act.tryGet c
  if let some e := error then
    discard <| failed (.cycle e)
    let path := " ".intercalate e.path
    Act.note s!"cycle {e.property} [{path}]"
  return v

def showState (c : CellId) : Script String :=
  .view fun s =>
    let cell := s.cell c
    let binding := showBool cell.binding.isSome
    let twoWay := showBool (s.partner? c).isSome
    let dropped := showBool cell.dropped
    s!"{cell.state.name} deps={s.dependents c} binding={binding} twoway={twoWay} dropped={dropped}"

def CellOp.perform (ctx : Context) : CellOp → Script Value
  | .create name v cellName => do
    let c ← .new cellName v
    changeNames fun n => { n with cells := (name, c) :: n.cells, made := (name, .cell c) :: n.made }
    return .void
  | .get ref => do .get (← cellAt ctx ref)
  | .peek ref => do Act.peek (← cellAt ctx ref)
  | .tryGet ref => do readNoting (← cellAt ctx ref)
  | .drop ref => do done (.drop (← cellAt ctx ref))
  | .link a b => do
    let a ← cellAt ctx a
    let b ← cellAt ctx b
    return .bool (← .link a b)
  | .root ref => do
    let c ← cellAt ctx ref
    return text (← cellTitle (← .view fun s => s.linkRoot c))
  | .title ref => do return text (← SceneM.cellName (← cellAt ctx ref))
  | .isDirty ref => do
    let c ← cellAt ctx ref
    return .bool (← .view fun s => decide ((s.cell c).state ≠ .clean))
  | .state ref => do return text (← showState (← cellAt ctx ref))
  | .unobserve name => do done (.unobserve (← named Names.observers name))
  | .depth => return number (← .view fun s => (s.active : Int))
  | .evaluations => return number (← .view fun s => (s.evaluations : Int))
  | .invalidate name => do done (.invalidate (← named Names.trackers name))
  | .dropTracker name => do done (.drop (← named Names.trackers name))
  | .trackerName name => do return text (← SceneM.cellName (← named Names.trackers name))

def SignalOp.perform (args : List Value) : SignalOp → Script Value
  | .create name => do
    let i ← Signal.create name
    changeNames fun n => { n with signals := (name, i) :: n.signals }
    return text name
  | .hasHandler name => do
    let i ← named Names.signals name
    return .bool (← Act.ask fun s => (s.signal i).handler.isSome)
  | .call name => do
    match ← Signal.call (← named Names.signals name) args with
    | some v => return v
    | none =>
      Act.note s!"nohandler {name}"
      return .void

def showSpec (a : TransitionId) : Script String := do
  let t ← Transition.read a id
  let cell ← cellTitle t.cell
  let running := showBool t.running
  return s!"{showDuration t.spec.duration} {showDuration t.spec.delay} true {running} {cell}"

def TransitionOp.perform (ctx : Context) (args : List Value) : TransitionOp → Script Value
  | .create name ref spec => do
    let a ← Transition.create (← cellAt ctx ref) spec Lerp.value
    changeNames fun n =>
      { n with transitions := (name, a) :: n.transitions, made := (name, .transition a) :: n.made }
    return .void
  | .set name => do done (Transition.set (← named Names.transitions name) (argAt args 0))
  | .stop name => do done (Transition.stop (← named Names.transitions name))
  | .get name => do .get (← Transition.read (← named Names.transitions name) (·.cell))
  | .target name => do Transition.heading (← named Names.transitions name)
  | .describe name => do return text (← showSpec (← named Names.transitions name))
  | .advance ns => do done (Clock.advance ns)
  | .moveTo ns => do done (Clock.moveTo ns)
  | .now => return .duration (← Clock.now)
  | .active => return number (← Clock.active)

end ReactiveTree.Script
