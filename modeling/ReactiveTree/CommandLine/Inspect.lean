import ReactiveTree.CommandLine.Options
import ReactiveTree.Inspect.Trial

/-!
# The command that inspects a description

An instance is made, changed as the options say, and printed.
-/

namespace ReactiveTree.CommandLine

structure Outcome where
  exitCode : Nat := 0
  stdout : Text := ⟨[]⟩
  stderr : Text := ⟨[]⟩

def Outcome.failure (message : Text) : Outcome :=
  { exitCode := 1, stderr := message ++ Text.ofString "\n" }

variable {U X : Type}

namespace InspectOptions

def print (o : InspectOptions) (c : ComponentId) : SceneM U X (Except Fault String) := do
  if o.format = "table" then return .ok (← Component.table c false)
  else if o.format = "tree" then return .ok (← Component.dump c)
  else return .error (.other s!"inspect: unknown format {quoteString o.format}")

def performAll {α : Type} (perform : String → SceneM U X (Except Fault α)) :
    List String → SceneM U X (Except Fault Unit)
  | [] => return .ok ()
  | text :: rest => do
    match ← perform text with
    | .error f => return .error f
    | .ok _ => performAll perform rest

def work (o : InspectOptions) (c : ComponentId) : SceneM U X (Except Fault String) := do
  if o.activate then Window.activate c
  match ← performAll (Component.applySet c) o.sets with
  | .error f => return .error f
  | .ok () =>
    match ← performAll (Component.applyEmit c) o.emits with
    | .error f => return .error f
    | .ok () =>
      if 0 < o.advance then Clock.advance o.advance
      o.print c

def inspect (o : InspectOptions) (d : Definition U) : SceneM U X (Except Fault String) := do
  match ← Component.instantiate d with
  | .error f => return .error f
  | .ok h =>
    let result ← o.work (← Act.ask fun s => (s.handle h).component)
    Component.release h
    return result

def logged (o : InspectOptions) (journal : List Entry) : Text :=
  let line : Entry → String
    | .log line => s!"proptree: {logLine line}\n"
    | _ => ""
  if o.verbose then Text.ofString (String.join (journal.map line)) else ⟨[]⟩

def run (o : InspectOptions) (description : String) : Outcome :=
  match Description.read description with
  | .error e => .failure e.message
  | .ok d =>
    let report := (SceneM.report Host.none (o.inspect d) (World.start () false)).1
    let log := o.logged report.journal
    match report.result with
    | .ok (.ok shown) => { stdout := Text.ofString shown, stderr := log }
    | .ok (.error f) =>
      { exitCode := 1, stderr := log ++ Text.ofString s!"{f.message}\n" }
    | .error stop => { exitCode := 2, stderr := log ++ Text.ofString s!"panic: {stop.message}\n" }

end InspectOptions

end ReactiveTree.CommandLine
