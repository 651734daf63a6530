/-!
# Benchmarks

A benchmark makes something, writes to it again and again, and counts the evaluations that
the writes cause.
-/

namespace ReactiveTree

structure Benchmark : Type 1 where
  State : Type
  start : Except String State
  write : (i : Nat) → State → Except String State
  evaluations : State → Nat

namespace Benchmark

def writes (b : Benchmark) : (n i : Nat) → b.State → Except String b.State
  | 0, _, s => .ok s
  | n + 1, i, s => do writes b n (i + 1) (← b.write i s)

def count (b : Benchmark) (n : Nat) : Except String Nat := do
  let s ← b.start
  let before := b.evaluations s
  return b.evaluations (← b.writes n 0 s) - before

end Benchmark

end ReactiveTree
