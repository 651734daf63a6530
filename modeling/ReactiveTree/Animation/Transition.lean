import ReactiveTree.Scene.Basic

/-!
# Transitions

A write to an animated cell starts a transition: at each tick of the clock the cell moves
on from its value at the write towards the new one. A transition can follow a binding; the
binding's first value is applied at once and later ones are targets.
-/

namespace ReactiveTree.Transition

variable {U X : Type}

def modify (a : TransitionId) (f : Transition U → Transition U) : SceneM U X Unit :=
  Act.change fun s => s.modifyTransition a f

def read {α : Type} (a : TransitionId) (f : Transition U → α) : SceneM U X α :=
  Act.ask fun s => f (s.transition a)

def create (cell : CellId) (spec : Spec) (interpolate : Value → Value → Float → Value) :
    SceneM U X TransitionId := do
  let target ← Act.peek cell
  .host fun s =>
    (s.transitions.size,
      { s with transitions := s.transitions.push { cell, spec, interpolate, target } })

def schedule (a : TransitionId) : SceneM U X Unit :=
  Act.change fun s =>
    if (s.transition a).queued then s
    else
      { s.modifyTransition a fun t => { t with queued := true } with
        clock := { s.clock with running := s.clock.running ++ [a] } }

def retarget (a : TransitionId) : SceneM U X Unit := do
  modify a fun t => { t with bindingChanged := true }
  schedule a

def heading (a : TransitionId) : SceneM U X Value := do
  let t ← read a id
  if t.running then return t.target else Act.peek t.cell

def clearBinding (a : TransitionId) : SceneM U X Unit := do
  if let some tracker ← read a (·.tracker) then .drop tracker
  modify a fun t => { t with tracker := none, binding := none, bindingChanged := false }

def animateTo (a : TransitionId) (v : Value) : SceneM U X Unit := do
  let cell ← read a (·.cell)
  unless ← SceneM.isDropped cell do
    modify a fun t => { t with stopped := false }
    let current ← Act.peek cell
    let t ← read a id
    unless (if t.running then t.target.same v else current.same v) do
      if t.spec.duration ≤ 0 && t.spec.delay ≤ 0 then
        modify a fun t => { t with running := false, target := v }
        .set cell v
      else
        modify a fun t => { t with source := current, target := v }
        let clock ← Act.ask fun s => s.clock.cell
        let started ← Act.peek clock
        modify a fun t => { t with started := started.asDuration, running := true }
        schedule a

def set (a : TransitionId) (v : Value) : SceneM U X Unit := do
  if ← read a (·.binding.isSome) then clearBinding a
  animateTo a v

def evaluateBinding (a : TransitionId) : SceneM U X (Option Value) := do
  let t ← read a id
  match t.binding, t.tracker with
  | some code, some tracker =>
    match ← Act.track tracker (.perform code) with
    | .done v => return some v
    | .skipped => return some .void
    | .failed e =>
      Act.log s!"animated binding for {← SceneM.cellName t.cell}: {e.message}"
      return none
  | _, _ => return none

def setBinding (a : TransitionId) (code : Code U Value) : SceneM U X Unit := do
  clearBinding a
  let cell ← read a (·.cell)
  let tracker ← .newTracker s!"{← SceneM.cellName cell}.animated-binding" (some (.retarget a))
  modify a fun t => { t with binding := some code, tracker := some tracker }
  if let some v ← evaluateBinding a then
    modify a fun t => { t with running := false, target := v }
    .set cell v

def stop (a : TransitionId) : SceneM U X Unit := do
  clearBinding a
  modify a fun t => { t with running := false, stopped := true }

def step (a : TransitionId) (now : Int64) : SceneM U X Bool := do
  if ← read a fun t => t.bindingChanged && t.tracker.isSome then
    modify a fun t => { t with bindingChanged := false }
    if let some v ← evaluateBinding a then animateTo a v
  let t ← read a id
  if !t.running then return true
  let elapsed := now - t.started - t.spec.delay
  if elapsed < 0 then return false
  if t.spec.duration ≤ elapsed then
    modify a fun t => { t with running := false }
    .set t.cell t.target
    return true
  let progress := Number.ofInt64 elapsed / Number.ofInt64 t.spec.duration
  .set t.cell (t.interpolate t.source t.target (t.spec.easing progress))
  return false

def isAlive (a : TransitionId) : SceneM U X Bool := do
  let t ← read a id
  if t.stopped then return false
  return !(← SceneM.isDropped t.cell)

def stepAll (now : Int64) : List TransitionId → SceneM U X (List TransitionId)
  | [] => return []
  | a :: rest => do
    let finished ← do
      if ← isAlive a then step a now else pure true
    if finished then
      modify a fun t => { t with queued := false }
      stepAll now rest
    else
      let kept ← stepAll now rest
      return a :: kept

end ReactiveTree.Transition

namespace ReactiveTree

namespace Clock

variable {U X : Type}

def now : SceneM U X Int64 := do
  let cell ← Act.ask fun s => s.clock.cell
  return (← Act.get cell).asDuration

def time : SceneM U X Int64 := do
  let cell ← Act.ask fun s => s.clock.cell
  return (← Act.peek cell).asDuration

def active : SceneM U X Nat := Act.ask fun s => s.clock.running.length

/-- One tick: sets the clock and steps every transition that was running before it. Those
started meanwhile come after the survivors. -/
def tick (now : Int64) : SceneM U X Unit := do
  let cell ← Act.ask fun s => s.clock.cell
  .set cell (.duration now)
  let running ← .host fun s => (s.clock.running, { s with clock := { s.clock with running := [] } })
  let kept ← Transition.stepAll now running
  Act.change fun s => { s with clock := { s.clock with running := kept ++ s.clock.running } }

def moveTo (now : Int64) : SceneM U X Unit := do
  if ← Act.ask fun s => s.clock.ticking then
    Act.log s!"animation tick re-entered at {showDuration now}, ignored"
  else
    let current ← time
    let now ← if now < current then time else pure now
    Act.change fun s => { s with clock := { s.clock with ticking := true } }
    .ensure (tick now) fun s => { s with clock := { s.clock with ticking := false } }

def advance (dt : Int64) : SceneM U X Unit := do
  unless dt < 0 do moveTo ((← time) + dt)

end Clock

end ReactiveTree
