import ReactiveTree.Bench.Basic
import ReactiveTree.Cell.Act

/-!
# Propagation through chains

Chains of bindings hang on one source, and a tracker watches the end of each. Every write of
the source makes all trackers dirty, and each then works again, which evaluates its chain.
-/

namespace ReactiveTree.Bench

inductive ChainCode : Type → Type where
  | successor (c : CellId) : ChainCode Value
  | noteDirty (i : Nat) : ChainCode Unit

abbrev ChainM := Act (List Nat) ChainCode

def ChainCode.meaning {α : Type} : ChainCode α → ChainM α
  | .successor c => do return .int ((← Act.get c).asInt + 1)
  | .noteDirty i => Act.change (· ++ [i])

structure Chain where
  tracker : CellId
  leaf : CellId

namespace Chain

def extend (c : CellId) : (height : Nat) → ChainM CellId
  | 0 => return c
  | height + 1 => do extend (← Act.newBound "" (.successor c)) height

def create (source : CellId) (height i : Nat) : ChainM Chain := do
  let leaf ← extend source height
  return { tracker := ← Act.newTracker "" (some (.noteDirty i)), leaf }

def evaluate (c : Chain) : ChainM Unit := do
  let _ ← Act.track c.tracker (Act.get c.leaf)

def write (source : CellId) (chains : List Chain) : ChainM Unit := do
  Act.set source (.int ((← Act.peek source).asInt + 1))
  (← Act.ask id).forM fun i =>
    match chains[i]? with
    | some c => c.evaluate
    | none => pure ()
  Act.change fun _ => []

def setUp (width height : Nat) : ChainM (CellId × List Chain) := do
  let source ← Act.new "" (.int 1)
  let chains ← (List.range width).mapM (create source height)
  chains.forM evaluate
  return (source, chains)

end Chain

structure ChainState where
  world : World (List Nat) ChainCode
  source : CellId
  chains : List Chain

def propagate (width height : Nat) : Benchmark where
  State := ChainState
  start :=
    match (Chain.setUp width height).run ChainCode.meaning ⟨{}, []⟩ with
    | .ok (source, chains) world => .ok { world, source, chains }
    | .error stop _ => .error stop.message
  write _ s :=
    match (Chain.write s.source s.chains).run ChainCode.meaning s.world with
    | .ok () world => .ok { s with world }
    | .error stop _ => .error stop.message
  evaluations s := s.world.store.evaluations

end ReactiveTree.Bench
