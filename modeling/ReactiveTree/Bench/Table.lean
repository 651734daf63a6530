import ReactiveTree.Bench.Config

/-!
# Tables of results
-/

namespace ReactiveTree.Bench

structure Times where
  total : Nat := 0
  average : Nat := 0
  least : Nat := 0
  p75 : Nat := 0
  p99 : Nat := 0
  greatest : Nat := 0

def percentile (sorted : List Nat) (percent : Nat) : Nat :=
  sorted.getD ((sorted.length * percent + 50) / 100 - 1) 0

def Times.ofSamples (samples : List Nat) : Times :=
  let sorted := samples.mergeSort
  let total := samples.foldl (· + ·) 0
  { total
    average := total / samples.length
    least := sorted.headD 0
    p75 := percentile sorted 75
    p99 := percentile sorted 99
    greatest := sorted.getLastD 0 }

structure Row where
  name : String
  evaluations : Nat
  times : Times := {}

def Row.rate (r : Row) : Nat := r.evaluations * 1000000 / r.times.total

def showTime (n : Nat) : String := showDuration (Int64.ofNat n)

def Row.cells (r : Row) : List String :=
  [r.name, showTime r.times.average, showTime r.times.least, showTime r.times.p75,
    showTime r.times.p99, showTime r.times.greatest, withCommas r.evaluations, withCommas r.rate]

def header : List String :=
  ["BENCHMARK", "AVG", "MIN", "P75", "P99", "MAX", "EVALUATIONS", "EVALS/MS"]

/-! ## Printing -/

def spaces (n : Nat) : String := String.ofList (List.replicate n ' ')

def isNumeric (cell : String) : Bool := cell.toList.all fun c => c.isDigit || c = ','

def fill (heading : Bool) (width : Nat) (cell : String) : String :=
  let gap := width - cell.length
  if heading then spaces (gap / 2) ++ cell ++ spaces (gap - gap / 2)
  else if isNumeric cell then spaces gap ++ cell
  else cell ++ spaces gap

def rule (widths : List Nat) : String :=
  let dashes (n : Nat) : String := String.ofList (List.replicate (n + 2) '-')
  "+" ++ String.join (widths.map fun n => dashes n ++ "+") ++ "\n"

def line (heading : Bool) (widths : List Nat) (cells : List String) : String :=
  let filled := List.zipWith (fill heading) widths cells
  "|" ++ String.join (filled.map fun cell => s!" {cell} |") ++ "\n"

def render (header : List String) (rows : List (List String)) : String :=
  let widths := rows.foldl (fun ws row => List.zipWith (fun w c => max w c.length) ws row)
    (header.map String.length)
  rule widths ++ line true widths header ++ rule widths
    ++ String.join (rows.map (line false widths)) ++ rule widths

end ReactiveTree.Bench
