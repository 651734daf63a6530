import ReactiveTree.Proofs.Scene.Teardown

/-!
# Windows and lifetimes

A window points only at items of instances that live in it (`Scene.Houses`). Every program that
moves the focus, the pointer or the hover asks for this first, or takes the item from a walk
through the instances of the window. What such a walk finds is a hypothesis here
(`living_pointer`, `living_focusNext`).
-/

namespace ReactiveTree

open Store

variable {α β U X : Type} {falling : ComponentId → Prop} {giving : RepeaterId → Prop}
variable {c : ComponentId} {it : ItemRef} {s : Scene U X} {f : Window → Window}

/-- The instance of the item lives, in the window of `c`. -/
def Scene.Houses (s : Scene U X) (c : ComponentId) (it : ItemRef) : Prop :=
  it.component < s.components.size ∧ (s.component it.component).destroyed = false ∧
    (s.component it.component).window = (s.component c).window

theorem Scene.Houses.stays {t : Scene U X} (h : s.Houses c it)
    (hle : s.Stays t) : t.Houses c it := by
  unfold Houses component
  rw [hle.components]
  exact h

/-- An instance is in the window of the outermost one around it. -/
theorem Scene.Tree.window_top (hs : s.Tree) (c : ComponentId) :
    (s.component (s.top c)).window = (s.component c).window := by
  suffices h : ∀ limit, (s.component (s.topTo limit c)).window = (s.component c).window from h _
  intro limit
  induction limit generalizing c with
  | zero => rfl
  | succ limit ih =>
    unfold topTo
    split
    · exact (ih _).trans (hs.window ‹_›).symm
    · rfl

/-- A window that points only where it did, or at items it houses. -/
theorem Living.modifyWindow {store : Store (Code U)} (h : Living falling giving store s)
    (hf : ∀ it, (f (s.window c)).PointsAt it → (s.window c).PointsAt it ∨ s.Houses c it) :
    Living falling giving store (s.modifyWindow c f) := by
  refine ⟨{ h.tree with }, { h.counts with pointer := fun {i it} hit => ?_ }, { h.motion with },
    { h.fallen with }⟩
  unfold Scene.windowAt Scene.modifyWindow at hit
  rw [getD_modify] at hit
  split at hit
  · rename_i heq
    obtain ⟨rfl, -⟩ := heq
    rcases hf it hit with hold | hnew
    · exact h.counts.pointer hold
    · exact hnew
  · exact h.counts.pointer hit

section

variable {nested : SceneNested U X} {w : SceneTale U X}

theorem lasting_modifyWindow (hw : w.Sound)
    (hf : ∀ it, (f (w.host.1.window c)).PointsAt it →
      (w.host.1.window c).PointsAt it ∨ w.host.1.Houses c it) :
    lasting.Keeps nested () w (Window.modify c f) :=
  lasting_change hw (hw.modifyWindow hf) (Scene.stays_aside ..)

theorem lasting_modifyRepeater (hw : w.Sound) (r : RepeaterId)
    {f : Repeater U → Repeater U} (hf : ∀ x, Repeater.Like x (f x)) :
    lasting.Keeps nested () w (Repeater.modify r f) := by
  refine lasting_change hw ?_ ?_
  · exact Living.quiet (fun x => ⟨(hf x).host, (hf x).sub, (hf x).flag, (hf x).tracker⟩) hw
      (fun x => (hf x).released) fun x => (hf x).instances
  · refine { Scene.Stays.refl w.host.1 with
      repeaters := Array.size_modify, repeater := fun q _ => ?_ }
    rw [Scene.repeater_modify]
    split
    · exact hf _
    · exact ⟨rfl, rfl, rfl, rfl, rfl, rfl⟩

/-- What programs that neither release nor build are put together from. -/
inductive Gentle : ⦃α : Type⦄ → SceneM U X α → Prop where
  | get (c : CellId) : Gentle (.get c)
  | write (spot : Spot) (v : Value) : Gentle (Component.write spot v)
  | handle (h : Handler U) (args : List Value) : Gentle (.perform (.handle h args))
  | peer (u : U) (change : Change) : Gentle (.perform (.peer u change))
  | markStale (r : RepeaterId) : Gentle (Repeater.markStale r)
  | staleRows (r : RepeaterId) (f : Array Bool → Array Bool) : Gentle (Act.change fun s =>
      s.modifyRepeater r fun x => { x with staleRows := x.staleRows.change f })
  | aside {α : Type} {act : SceneM U X α} (h : act.AsideOnly) : Gentle act

theorem Gentle.vectors (f : Scene U X → α × Scene U X)
    (hf : ∀ s, ∃ vectors, (f s).2 = { s with vectors }) : Gentle (.host f) := by
  refine .aside ⟨f, rfl, fun s => ?_⟩
  obtain ⟨vectors, heq⟩ := hf s
  exact ⟨vectors, s.peers, s.user, heq⟩

variable (hN : lasting.Obeys nested)
include hN

section

variable (hw : w.Sound)
include hw

theorem lasting_write (spot : Spot) (v : Value) :
    lasting.Keeps nested () w (Component.write spot v) := by
  refine .ask hw fun hn => ?_
  dsimp only
  cases v.coerceTo ((w.host.1.table spot.component spot.node).decls.getD spot.slot
    default).kind with
  | error e => exact .view_then hn fun hn => .ret hn trivial
  | ok v =>
    refine .view_then hn fun hn => .ask hn fun hn => ?_
    split
    · rename_i a hlookup
      have hmem := (hw.motion.moved (mem_of_lookup hlookup)).1
      exact .seq_ret (lasting_setTransition hN hn hmem v)
    · exact .seq_ret (lasting_set hN hn _ v)

theorem lasting_markStale (r : RepeaterId) :
    lasting.Keeps nested () w (Repeater.markStale r) := by
  refine .ask hw fun hn => ?_
  split
  · exact .ret hn trivial
  · exact lasting_set hN hn ..

omit hw in
theorem lasting_gentle {act : SceneM U X α} (h : Gentle act) (hw : w.Sound) :
    lasting.Keeps nested () w act := by
  cases h with
  | get c => exact lasting_get hN hw c
  | write spot v => exact lasting_write hN hw spot v
  | handle h args => exact .perform hN hw fun _ => trivial
  | peer u change => exact .perform hN hw fun _ => trivial
  | markStale r => exact lasting_markStale hN hw r
  | staleRows r f => exact lasting_modifyRepeater hw r fun _ => ⟨rfl, rfl, rfl, rfl, rfl, rfl⟩
  | aside h => exact lasting_asideOnly h hw

omit hw in
theorem lasting_gently {act : SceneM U X α} (h : Act.Composed Gentle act)
    (hw : w.Sound) : lasting.Keeps nested () w act :=
  .composed (fun _ => trivial) (fun h hw => lasting_gentle hN h hw) h hw

/-! ## Focus and hover -/

omit hN in
omit hw in
theorem Scene.houses_of_focusable
    (h : ((s.item it).kind.caps.has .focusable && !(s.component it.component).destroyed
      && decide ((s.component it.component).window = (s.component c).window)) = true) :
    s.Houses c it := by
  simp only [Bool.and_eq_true, Bool.not_eq_true', decide_eq_true_eq] at h
  refine ⟨?_, h.1.2, h.2⟩
  by_contra hge
  have hdefault : s.component it.component = default := getD_of_size_le (not_lt.1 hge) _
  have hitem : s.item it = default := by
    rw [Scene.item, hdefault]
    exact getD_of_size_le (Nat.zero_le _) _
  rw [hitem] at h
  exact absurd h.1.1 (by decide)

theorem lasting_setFocus (c : ComponentId) (it : Option ItemRef) :
    lasting.Keeps nested () w (Window.setFocus c it) := by
  unfold Window.setFocus
  extract_lets finish move
  have hmove : ∀ {w1 : SceneTale U X} (accepted : Bool), w1.Sound →
      (accepted = true → ∀ x, it = some x → w1.host.1.Houses c x) →
      lasting.Keeps nested () w1 (move accepted) := by
    intro w1 accepted hw1 hhoused
    cases accepted with
    | false => exact .ret hw1 trivial
    | true =>
      refine .ask hw1 fun hn => ?_
      extract_lets previous
      split
      · exact .ret hn trivial
      refine .seq (lasting_gently hN (.withdraw .write ..) hn)
        fun _ w2 _ hle hw2 _ => ?_
      refine .seq (lasting_modifyWindow hw2 fun x hx => ?_)
        fun _ w3 _ _ hw3 _ => ?_
      · rcases hx with hx | hx | hx
        · exact .inr ((hhoused rfl x hx).stays hle.scene)
        · exact .inl (.inr (.inl hx))
        · exact .inl (.inr (.inr hx))
      · cases it with
        | none => exact .ret hw3 trivial
        | some it =>
          exact .seq_ret (lasting_gently hN (.setIfPresent .write it ..) hw3)
  cases it with
  | none => exact .pure_then hw fun hn => hmove _ hn nofun
  | some it =>
    refine .ask hw fun hn => hmove _ hn fun haccepted x hx => ?_
    cases hx
    exact Scene.houses_of_focusable haccepted

theorem lasting_setHover {it : Option ItemRef}
    (hhoused : ∀ x, it = some x → w.host.1.Houses c x) :
    lasting.Keeps nested () w (Window.setHover c it) := by
  refine .ask hw fun hn => ?_
  dsimp only
  split
  · exact .ret hn trivial
  refine .seq (lasting_gently hN (.withdraw .write ..) hn)
    fun _ w1 _ hle hw1 _ => ?_
  refine .seq (lasting_modifyWindow hw1 fun x hx => ?_) fun _ w2 _ _ hw2 _ => ?_
  · rcases hx with hx | hx | hx
    · exact .inl (.inl hx)
    · exact .inl (.inr (.inl hx))
    · exact .inr ((hhoused x hx).stays hle.scene)
  · cases it with
    | none => exact .ret hw2 trivial
    | some it => exact lasting_gently hN (.setIfPresent .write it ..) hw2

omit hN in
theorem lasting_letGo
    (hf : ∀ x it, (f x).PointsAt it → x.PointsAt it) :
    lasting.Keeps nested () w (Window.modify c f) :=
  lasting_modifyWindow hw fun it hit => .inl (hf _ it hit)

omit hN in
omit hw in
theorem Window.pointsAt_release {x : Window}
    (h : { x with grabber := none }.PointsAt it) : x.PointsAt it := by
  rcases h with h | h | h
  · exact .inl h
  · cases h
  · exact .inr (.inr h)

theorem lasting_pointerExit (c : ComponentId) :
    lasting.Keeps nested () w (Window.pointerExit c) := by
  refine .ask hw fun hn => ?_
  extract_lets finish
  cases (w.host.1.window c).grabber with
  | none => exact lasting_setHover hN hn nofun
  | some g =>
    refine .seq (lasting_gently hN (.setIfPresent .write g ..) hn)
      fun _ _ _ _ hw1 _ => ?_
    exact .seq (lasting_letGo hw1 fun _ _ => Window.pointsAt_release)
      fun _ _ _ _ hw2 _ => lasting_setHover hN hw2 nofun

theorem lasting_pointerGrabbed (c : ComponentId) (g : ItemRef)
    (kind : Window.PointerKind) (x y : Float) :
    lasting.Keeps nested () w (Window.pointerGrabbed c g kind x y) := by
  refine .seq (lasting_gently hN (.absolute .get g) hw) fun _ _ r _ hw1 _ => ?_
  refine .seq (lasting_gently hN (.setMouse .write g ..) hw1)
    fun _ _ _ _ hw2 _ => ?_
  split
  · refine .seq (lasting_letGo hw2 fun _ _ => Window.pointsAt_release)
      fun _ _ _ _ hw3 _ => ?_
    refine .seq (lasting_gently hN (.setIfPresent .write g ..) hw3)
      fun _ _ _ _ hw4 _ => ?_
    exact lasting_gently hN (.asks fun cb =>
      .ite (.discard (.item_emit .handle g ..)) (.pure _)) hw4
  · exact .ret hw2 trivial

theorem lasting_activate (c : ComponentId) :
    lasting.Keeps nested () w (Window.activate c) := by
  refine .ask hw fun hn => .ask hn fun hn => ?_
  split
  · exact .ret hn trivial
  refine .seq (lasting_letGo hn fun _ _ h => h) fun _ w1 _ _ hw1 _ => ?_
  refine .ask hw1 fun hn => ?_
  split
  · exact .seq_ret (lasting_setFocus hN hn ..)
  · exact .ret hn trivial

end

/-! ## Events -/

section Events

variable {le : WorldOrder U X} [Onward le]

theorem living_focusNext (hfocusables : ∀ {w : SceneTale U X} (c : ComponentId),
      w.Sound → (living le).Keeps nested () w (Window.focusables c))
    (hw : w.Sound) (c : ComponentId) :
    (living le).Keeps nested () w (Window.focusNext c) := by
  refine .ask hw fun hn => .seq (hfocusables _ hn) fun _ w1 all _ hw1 _ => ?_
  refine .ask hw1 fun hn => ?_
  split
  · exact .ret hn trivial
  · exact living_lasting (lasting_setFocus hN hn ..)

theorem living_key (hfocusables : ∀ {w : SceneTale U X} (c : ComponentId),
      w.Sound → (living le).Keeps nested () w (Window.focusables c))
    (hw : w.Sound) (c : ComponentId) (key : Window.Key) :
    (living le).Keeps nested () w (Window.key c key) := by
  refine .ask hw fun hn => ?_
  cases key with
  | tab => exact living_focusNext hN hfocusables hn _
  | escape =>
    refine living_then (lasting_gently hN (.focusItem _) hn) fun w1 it _ hw1 _ => ?_
    split
    · exact .ret hw1 trivial
    · exact living_lasting (lasting_setFocus hN hw1 ..)
  | _ =>
    refine living_lasting (lasting_gently hN (.bind (.focusItem _) fun it => ?_) hn)
    cases it with
    | none => exact .pure _
    | some it =>
      exact .asks fun keyboard => .ite (.pure _) (.bind (.isEnabled .get it) fun enabled =>
        .ite (.pure _) (.keyTo .get .write .handle it _))

/-- An item that was hit gets the hover and, on a press, the pointer and the focus. -/
theorem lasting_hit (hw : w.Sound) {top : ComponentId} {target : Option ItemRef}
    (hhoused : ∀ it, target = some it → w.host.1.Houses top it) (kind : Window.PointerKind)
    (x y : Float) : lasting.Runs nested () w (do
      Window.setHover top target
      match target with
      | none => return false
      | some it =>
        let r ← Item.absolute it
        Window.setMouse it (x - r.x) (y - r.y)
        if kind = .press then
          Window.modify top fun w => { w with grabber := some it }
          Item.setIfPresent it "pressed" (.bool true)
          if ← Item.has it .focusable then discard <| Window.setFocus top (some it)
        return true : SceneM U X Bool) fun _ _ _ => True := by
  refine .seq (lasting_setHover hN hw hhoused) fun _ w1 _ hle1 hw1 _ => ?_
  cases target with
  | none => exact .ret hw1 trivial
  | some it =>
    refine .seq (lasting_gently hN (.absolute .get it) hw1)
      fun _ w2 r hle2 hw2 _ => ?_
    refine .seq (lasting_gently hN (.setMouse .write it ..) hw2)
      fun _ w3 _ hle3 hw3 _ => ?_
    split
    · have hhouses := (((hhoused it rfl).stays hle1.scene).stays hle2.scene).stays hle3.scene
      refine .seq (lasting_modifyWindow hw3 fun z hz => ?_)
        fun _ w4 _ _ hw4 _ => ?_
      · rcases hz with hz | hz | hz
        · exact .inl (.inl hz)
        · cases hz
          exact .inr hhouses
        · exact .inl (.inr (.inr hz))
      refine .seq (lasting_gently hN (.setIfPresent .write it ..) hw4)
        fun _ _ _ _ hw5 _ => .ask hw5 fun hn => ?_
      split
      · refine .seq (P := fun _ _ _ => True) (.seq
          (lasting_setFocus hN hn ..) fun _ _ _ _ hw6 _ => .ret hw6 trivial)
          fun _ _ _ _ hw7 _ => ?_
        exact .ret hw7 trivial
      · exact .ret hn trivial
    · exact .ret hw3 trivial

theorem living_pointer (x y : Float)
    (hitemAt : ∀ {w : SceneTale U X} (c : ComponentId), w.Sound →
      (living le).Runs nested () w (Window.itemAt c x y) fun _ w' target =>
        ∀ it, target = some it → w'.host.1.Houses c it)
    (hw : w.Sound) (c : ComponentId) (kind : Window.PointerKind) :
    (living le).Keeps nested () w (Window.pointer c kind x y) := by
  refine .ask hw fun hn => .ask hn fun hn => ?_
  generalize w.host.1.top c = top
  extract_lets finish route
  have hroute {w : SceneTale U X} (hw : w.Sound) :
      (living le).Keeps nested () w (route ()) := by
    dsimp only [route]
    split
    · exact living_then (lasting_pointerExit hN hw _) fun _ _ _ hw1 _ => .ret hw1 trivial
    refine .ask hw fun hn => ?_
    split
    · exact living_then (lasting_pointerGrabbed hN hn _ _ kind x y) fun _ _ _ hw1 _ =>
        .ret hw1 trivial
    · exact .seq (hitemAt top hn) fun _ w1 target _ hw1 hhoused =>
        living_lasting (lasting_hit hN hw1 hhoused kind x y)
  split
  · refine .ask hn fun hn => ?_
    split
    · exact living_then (lasting_letGo hn fun _ _ => Window.pointsAt_release)
        fun _ _ _ hw1 _ => hroute hw1
    · exact hroute hn
  · exact hroute hn

end Events

end

/-! ## Two flags at once -/

namespace Form

/-- Three inputs in a window. -/
def form : Definition Unit :=
  ({ name := "Form" } : Definition Unit).root 0 "window"
    |>.child "window" 5 "first" |>.child "window" 5 "second" |>.child "window" 5 "third"

/-- Code that moves the focus to the third input. -/
def host : Host Unit Unit := .ofValue fun _ => do
  discard (Window.setFocus 0 (some ⟨0, 3⟩))
  pure .void

def observe (it : ItemRef) : SceneM Unit Unit Unit := do
  if let some c ← Item.cell? it "has_focus" then discard (.observe c (.effect () none))

/-- The world after some acts on a form. -/
def ended (acts : List (SceneM Unit Unit Unit)) : World (Scene Unit Unit) (Code Unit) :=
  Act.session (Code.meaning host) 9 (discard (Component.instantiate form) :: acts)
    (World.start () false)

def focused (w : World (Scene Unit Unit) (Code Unit)) (it : ItemRef) : Bool :=
  match (Item.get it "has_focus").runTo (Code.meaning host) 9 w with
  | .ok v _ => v.asBool
  | .error .. => false

end Form

/-- An observer of the input that loses the focus gives it to the third one, before the second
has it. -/
theorem two_inputs_focused :
    let w := Form.ended [discard (Window.setFocus 0 (some ⟨0, 1⟩)), Form.observe ⟨0, 1⟩,
      discard (Window.setFocus 0 (some ⟨0, 2⟩))]
    (w.host.window 0).focus = some ⟨0, 2⟩ ∧ Form.focused w ⟨0, 2⟩ = true ∧
      Form.focused w ⟨0, 3⟩ = true := by
  decide +kernel

end ReactiveTree
