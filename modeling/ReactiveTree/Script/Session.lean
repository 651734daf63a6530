import ReactiveTree.Script.Eval
import ReactiveTree.Inspect.Journal

/-!
# Sessions

A session runs the steps of a script one after the other in one scene. A step that panics
does not end the session.
-/

namespace ReactiveTree.Script

abbrev Session := World (Scene Snippet Names) (Code Snippet)

inductive Result where
  | value (v : Value)
  | panic (text : String)

structure StepReport where
  result : Result
  events : List Text
  state : String

def showMade (w : Session) : Made → String
  | .cell c =>
    let cell := w.store.cell c
    let flag (b : Bool) (s : String) : String := if b then s else ""
    s!"{cell.state.name}/{w.store.dependents c}" ++ flag cell.binding.isSome "b"
      ++ flag (w.store.partner? c).isSome "t" ++ flag cell.dropped "x"
  | .tracker t =>
    let cell := w.store.cell t
    cell.state.name ++ (if cell.dropped then "/x" else "")
  | .transition a =>
    let t := w.host.transition a
    (if t.running then "running" else "idle") ++ (if t.binding.isSome then "/b" else "")

def showSession (w : Session) : String :=
  let now := (w.store.cell w.host.clock.cell).value.asDuration.toInt
  let counts := s!"evals={w.store.evaluations} live={w.store.live} depth={w.store.active}"
  let clock := s!" active={w.host.clock.running.length} now={now}"
  let made := w.host.user.made.reverse.map fun (name, m) => s!" {name}:{showMade w m}"
  counts ++ clock ++ String.join made

def Session.step (w : Session) (e : Expr) : StepReport × Session :=
  let (report, w) := SceneM.report host (e.eval {}) w
  let result := match report.result with
    | .ok v => Result.value v
    | .error stop => .panic stop.message
  ({ result, events := report.events, state := showSession w }, w)

def Session.start (reports : Bool) : Session := World.start {} reports

def runSteps (w : Session) : List Expr → List StepReport
  | [] => []
  | e :: rest =>
    let (report, w) := w.step e
    report :: runSteps w rest

def run (reports : Bool) (steps : List Expr) : List StepReport :=
  runSteps (Session.start reports) steps

end ReactiveTree.Script
