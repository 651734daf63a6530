import ReactiveTree.Bench.Chain
import ReactiveTree.Bench.Rows
import ReactiveTree.Text.Commas

/-!
# Configurations of benchmarks
-/

namespace ReactiveTree.Bench

inductive Config where
  | chains (width height : Int)
  | rows (count : Int)
  deriving DecidableEq, Repr

namespace Config

def rowCount (count : Int) : Nat := (max count 1).toNat

def name : Config → String
  | .chains width height => s!"propagate: {width} * {height}"
  | .rows count => s!"repeater: {withCommas (rowCount count)} rows"

def isLength (n : Int) : Bool := 0 ≤ n && n ≤ 0x200000000000

def fits (writes : Int) : Config → Bool
  | .chains width _ => isLength width && isLength writes
  | .rows count => isLength (rowCount count) && isLength writes

def benchmark : Config → Benchmark
  | .chains width height => propagate width.toNat height.toNat
  | .rows count => changeRows (rowCount count)

def lengthProblem : String := "runtime error: makeslice: len out of range"

def count (c : Config) (writes : Int) : Except String Nat :=
  if c.fits writes then c.benchmark.count writes.toNat else .error lengthProblem

end Config

end ReactiveTree.Bench
