import ReactiveTree.Scene.Meaning

/-!
# What a run leaves behind

The result of running a program in a scene, with the journal of the run.
-/

namespace ReactiveTree

def logLine (line : String) : String :=
  let cs := line.toList
  if cs.getLast? = some '\n' then String.ofList cs.dropLast else line

def Entry.text : Entry → Text
  | .log line => Text.ofString s!"log {logLine line}"
  | .report e => Text.ofString s!"report {(Fault.cycle e).label}: {e.message}"
  | .note t => t

structure Report (α : Type) where
  result : Except Stop α
  journal : List Entry

def Report.events {α : Type} (r : Report α) : List Text := r.journal.map Entry.text

variable {U X : Type} {α : Type}

def World.clear {S : Type} {K : Type → Type} (w : World S K) : World S K :=
  { w with store := { w.store with journal := [] } }

def SceneM.report (host : Host U X) (program : SceneM U X α) (w : World (Scene U X) (Code U)) :
    Report α × World (Scene U X) (Code U) :=
  match SceneM.run host program w.clear with
  | .ok a w => (⟨.ok a, w.store.journal.reverse⟩, w)
  | .error stop w => (⟨.error stop, w.store.journal.reverse⟩, w)

def Host.none : Host Empty Unit where
  value u := nomatch u
  model u := nomatch u
  peer u := nomatch u

end ReactiveTree
