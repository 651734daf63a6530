import ReactiveTree.Bench.Table
import ReactiveTree.CommandLine.Options

/-!
# The command that runs benchmarks
-/

namespace ReactiveTree.CommandLine.BenchOptions

open Bench (Config)

def configs (o : BenchOptions) : List Config :=
  o.widths.flatMap (fun w => o.heights.map fun h => .chains w h) ++ o.rows.map .rows

def announcement (o : BenchOptions) : String :=
  s!"Running benchmarks, {withCommas o.writes} writes per configuration"

def warmUp : Config := .chains 1 10

def counts (o : BenchOptions) : Except String (List (List String)) := do
  let _ ← warmUp.count o.writes
  let rows ← o.configs.mapM fun c => do
    return Bench.Row.cells { name := c.name, evaluations := ← c.count o.writes }
  return Bench.header :: rows

end ReactiveTree.CommandLine.BenchOptions
