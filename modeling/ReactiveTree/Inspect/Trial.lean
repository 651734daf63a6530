import ReactiveTree.Description.Load
import ReactiveTree.Inspect.Command
import ReactiveTree.Inspect.Journal

/-!
# Trying out a definition

An instance is made, shown and released again.
-/

namespace ReactiveTree

variable {U X : Type}

def Component.tryOut (d : Definition U) : SceneM U X (Except Fault String) := do
  match ← Component.instantiate d with
  | .error f => return .error f
  | .ok h =>
    let tree ← Component.dump (← Act.ask fun s => (s.handle h).component)
    Component.release h
    return .ok tree

def Definition.trial (d : Definition Empty) : Report (Except Fault String) :=
  (SceneM.report Host.none (Component.tryOut d) (World.start () false)).1

end ReactiveTree
