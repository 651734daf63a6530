import ReactiveTree.CommandLine.Bench
import ReactiveTree.CommandLine.Files
import ReactiveTree.CommandLine.Inspect

/-!
# Running a command
-/

namespace ReactiveTree.CommandLine

def usage : String :=
  String.join ([
    "NAME:",
    "   proptree - Load, drive and benchmark reactive item trees",
    "",
    "USAGE:",
    "   proptree [global options] [command [command options]]",
    "",
    "COMMANDS:",
    "   inspect  Instantiate a component description and print its properties",
    "   bench    Measure propagation through binding chains and repeaters",
    "   help, h  Shows a list of commands or help for one command",
    "",
    "GLOBAL OPTIONS:",
    "   --help, -h  show help"].map (· ++ "\n"))

structure BenchOutcome where
  exitCode : Nat := 0
  firstLine : String
  rows : List (List String) := []

def BenchOptions.run (o : BenchOptions) (files : Files) : BenchOutcome :=
  match if o.profile = "" then .ok () else files.create o.profile with
  | .error message => { exitCode := 1, firstLine := message }
  | .ok () =>
    match o.counts with
    | .ok rows => { firstLine := o.announcement, rows }
    | .error _ => { exitCode := 2, firstLine := o.announcement }

def InspectOptions.runFile (o : InspectOptions) (files : Files) : Outcome :=
  if o.file = "" then .failure "inspect: missing description file"
  else
    match files.read o.file with
    | .error message => .failure message
    | .ok text => o.run text

def BenchOutcome.outcome (b : BenchOutcome) : Outcome where
  exitCode := b.exitCode
  stdout :=
    match b.rows with
    | header :: rows => Text.ofString (Bench.render header rows)
    | [] => ⟨[]⟩
  stderr := Text.ofString (b.firstLine ++ "\n")

def run (files : Files) (args : List String) : Outcome :=
  match Command.read args with
  | .error e => .failure e.message
  | .ok .help => { stdout := Text.ofString usage }
  | .ok (.inspect o) => o.runFile files
  | .ok (.bench o) => (o.run files).outcome

def runBench (files : Files) (args : List String) : BenchOutcome :=
  match Command.read args with
  | .ok (.bench o) => o.run files
  | .ok _ => { firstLine := "" }
  | .error e => { exitCode := 1, firstLine := e.message }

end ReactiveTree.CommandLine
