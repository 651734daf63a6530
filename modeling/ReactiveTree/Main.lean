import ReactiveTree.CommandLine.Run

/-!
# The program

Reads files, takes times and prints.
-/

namespace ReactiveTree.CommandLine

def onFile {α : Type} (name : String) (action : IO α) : IO (Except String α) := do
  try
    return .ok (← action)
  catch
    | .noFileOrDirectory _ _ _ => return .error (noSuchFile name)
    | e => return .error s!"open {name}: {e}"

def writeText (stream : IO.FS.Stream) (t : Text) : IO Unit := do
  stream.write ⟨t.bytes.toArray⟩
  stream.flush

def finish (o : Outcome) : IO UInt32 := do
  writeText (← IO.getStdout) o.stdout
  writeText (← IO.getStderr) o.stderr
  return UInt32.ofNat o.exitCode

def timeWrites (b : Benchmark) : (n i : Nat) → b.State → List Nat →
    IO (Except String (b.State × List Nat))
  | 0, _, s, times => return .ok (s, times)
  | n + 1, i, s, times => do
    let start ← IO.monoNanosNow
    match ← IO.lazyPure fun _ => b.write i s with
    | .error message => return .error message
    | .ok s =>
      let stop ← IO.monoNanosNow
      timeWrites b n (i + 1) s ((stop - start) :: times)

def timeConfig (c : Bench.Config) (writes : Int) : IO (Except String Bench.Row) := do
  if !c.fits writes then return .error Bench.Config.lengthProblem
  let b := c.benchmark
  match b.start with
  | .error message => return .error message
  | .ok s =>
    let before := b.evaluations s
    match ← timeWrites b writes.toNat 0 s [] with
    | .error message => return .error message
    | .ok (s, samples) =>
      return .ok
        { name := c.name, evaluations := b.evaluations s - before
          times := .ofSamples samples }

def timeConfigs (writes : Int) : List Bench.Config → IO (Except String (List Bench.Row))
  | [] => return .ok []
  | c :: rest => do
    match ← timeConfig c writes with
    | .error message => return .error message
    | .ok row =>
      match ← timeConfigs writes rest with
      | .error message => return .error message
      | .ok rows => return .ok (row :: rows)

def bench (o : BenchOptions) : IO UInt32 := do
  if o.profile ≠ "" then
    if let .error message ← onFile o.profile (IO.FS.writeFile o.profile "") then
      return ← finish (.failure message)
  let stderr ← IO.getStderr
  stderr.putStrLn o.announcement
  let start ← IO.monoNanosNow
  match ← timeConfigs o.writes (BenchOptions.warmUp :: o.configs) with
  | .error message => finish { exitCode := 2, stderr := Text.ofString s!"panic: {message}\n" }
  | .ok rows =>
    IO.print (Bench.render Bench.header (rows.tail.map Bench.Row.cells))
    let stop ← IO.monoNanosNow
    stderr.putStrLn s!"Benchmarks finished in {Bench.showTime (stop - start)}"
    return 0

def inspect (o : InspectOptions) : IO UInt32 := do
  if o.file = "" then finish (o.runFile (.ofList []))
  else
    match ← onFile o.file (IO.FS.readFile o.file) with
    | .error message => finish (.failure message)
    | .ok text => finish (o.run text)

end ReactiveTree.CommandLine

open ReactiveTree.CommandLine in
def main (args : List String) : IO UInt32 := do
  match Command.read args with
  | .ok (.inspect o) => inspect o
  | .ok (.bench o) => bench o
  | _ => finish (run (.ofList []) args)
