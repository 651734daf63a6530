import ReactiveTree.Proofs.Definition.Consistent
import ReactiveTree.Proofs.Scene.Composed

/-!
# Sessions

What a program at the top does with a scene: it makes instances, takes and releases handles,
updates repeaters and delivers events, and in between does whatever the code of bindings, handlers
and observers may do. What that is differs from one property to the next, so it is a parameter.
-/

namespace ReactiveTree

variable {U X : Type} {prim prim' : ⦃α : Type⦄ → SceneM U X α → Prop}

/-- All code of a host is composed of some programs. -/
structure Host.Uses (prim : ⦃α : Type⦄ → SceneM U X α → Prop) (host : Host U X) : Prop where
  value : ∀ u self args, Act.Composed prim (host.value u self args)
  model : ∀ u self, Act.Composed prim (host.model u self)
  peer : ∀ u change, Act.Composed prim (host.peer u change)

theorem Host.Uses.mono {host : Host U X}
    (h : ∀ ⦃α : Type⦄ (act : SceneM U X α), prim act → prim' act) (hhost : host.Uses prim) :
    host.Uses prim' :=
  ⟨fun u self args => (hhost.value u self args).mono h, fun u self => (hhost.model u self).mono h,
    fun u change => (hhost.peer u change).mono h⟩

/-- The handle is to an instance that no repeater made: programs get no others. -/
def Scene.Held (s : Scene U X) (h : HandleId) : Prop :=
  h < s.handles.size ∧ (s.component (s.handle h).component).outer = none

instance (s : Scene U X) (h : HandleId) :
    Decidable (s.Held h) := inferInstanceAs (Decidable (_ ∧ _))

/-- What a program at the top may do next. Weak references are made from handles. -/
inductive Deed (prim : ⦃α : Type⦄ → SceneM U X α → Prop) (s : Scene U X) :
    SceneM U X Unit → Prop where
  | instantiate {d : Definition U} (made : d.Made) (source : Option Nat) :
      Deed prim s (discard (Component.instantiate d source))
  | retain {h : HandleId} (held : s.Held h) : Deed prim s (discard (Component.retain h))
  | release {h : HandleId} (held : s.Held h) : Deed prim s (Component.release h)
  | upgrade {h : HandleId} (held : s.Held h) :
      Deed prim s (discard (Component.upgrade (s.handle h).component))
  | update {r : RepeaterId} (hr : r < s.repeaters.size) : Deed prim s (Repeater.ensureUpdated r)
  | focusNext (c : ComponentId) : Deed prim s (discard (Window.focusNext c))
  | pointer (c : ComponentId) (kind : Window.PointerKind) (x y : Float) :
      Deed prim s (discard (Window.pointer c kind x y))
  | key (c : ComponentId) (key : Window.Key) : Deed prim s (discard (Window.key c key))
  | other {act : SceneM U X Unit} (h : Act.Composed prim act) : Deed prim s act

/-- Every act of the session is one that is possible when its turn comes. -/
def Deeds (prim : ⦃α : Type⦄ → SceneM U X α → Prop) (host : Host U X) (depth : Nat) :
    List (SceneM U X Unit) → World (Scene U X) (Code U) → Prop
  | [], _ => True
  | act :: acts, w => Deed prim w.host act ∧
      Deeds prim host depth acts (Act.outcome (act.runTo (Code.meaning host) depth w))

theorem Deed.mono {s : Scene U X} {act : SceneM U X Unit}
    (h : ∀ ⦃α : Type⦄ (act : SceneM U X α), prim act → prim' act) (hact : Deed prim s act) :
    Deed prim' s act := by
  cases hact with
  | instantiate made source => exact .instantiate made source
  | retain held => exact .retain held
  | release held => exact .release held
  | upgrade held => exact .upgrade held
  | update hr => exact .update hr
  | focusNext c => exact .focusNext c
  | pointer c kind x y => exact .pointer c kind x y
  | key c key => exact .key c key
  | other hact => exact .other (hact.mono h)

theorem Deeds.mono {host : Host U X} {depth : Nat} {acts : List (SceneM U X Unit)}
    {w : World (Scene U X) (Code U)} (h : ∀ ⦃α : Type⦄ (act : SceneM U X α), prim act → prim' act)
    (hacts : Deeds prim host depth acts w) : Deeds prim' host depth acts w := by
  induction acts generalizing w with
  | nil => exact trivial
  | cons act acts ih => exact ⟨hacts.1.mono h, ih hacts.2⟩

/-- The acts of a session that is told are possible one after the other. -/
theorem Deeds.told {host : Host U X} {depth : Nat} {act : SceneM U X Unit}
    {acts : List (SceneM U X Unit)} {w : SceneTale U X}
    (h : Deeds prim host depth (act :: acts) w.untold) : Deeds prim host depth acts
      (Act.outcome (act.tell (Act.toldTo (Code.meaning host) depth) w)).untold := by
  have hplain := Act.tell_echoes (Act.toldTo_echoes (Code.meaning host) depth) act w
  rw [Act.outcome_untold, hplain]
  exact h.2

end ReactiveTree
