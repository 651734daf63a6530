import ReactiveTree.Proofs.Definition.Naming
import ReactiveTree.Proofs.Scene.LinkedInstances

/-!
# Names in instances

A definition resolves names by its declarations, while calls are still being made; an instance
resolves them by its tables. Both agree (`names_resolve_alike`): a name means the same declaration
in both, and what a call named is found when an instance is built, at the node that the call
recorded. That a build never misses a name is said by giving it something else to do in that case:
whatever that is, the build does not change.
-/

namespace ReactiveTree

open Store Definition

variable {α β U X : Type}
variable {n node : Option Nat} {decl : PropDecl} {prop : String}

namespace Definition

theorem lookup?_eq_some {d : Definition U} {id : String} :
    d.lookup? id prop = some decl ↔ ∃ n, d.resolve id prop = .ok (n, decl) := by
  unfold lookup? resolve
  cases d.node? id with
  | none => simp
  | some m =>
    dsimp only
    cases d.find? m prop with
    | none => simp
    | some found =>
      obtain ⟨n, decl'⟩ := found
      simp

theorem callbackDecl?_eq_find? (d : Definition U) (n : Option Nat) (name : String) :
    d.callbackDecl? n name = (d.outlineOf n).2.find? (·.name == name) := by
  cases n with
  | none => rfl
  | some n =>
    simp only [callbackDecl?, outlineOf]
    cases d.nodes[n]? <;> rfl

end Definition

namespace Scene

/-- The callbacks of an element, or those of the component itself. -/
def callbacksAt (s : Scene U X) (c : ComponentId) : Option Nat → List Callback
  | none => (s.component c).callbacks
  | some n => (s.item ⟨c, n⟩).callbacks

/-- `id.prop` of the instance `c` is the property `decl` of a node: it is found there, under its
own name and in its own cell. -/
structure Denotes (s : Scene U X) (c : ComponentId) (id prop : String) (node : Option Nat)
    (decl : PropDecl) (x : CellId) : Prop where
  spot : ∃ slot, s.lookup c id prop = .ok ⟨c, node, slot⟩ ∧
    (s.table c node).slot? prop = some slot ∧ (s.table c node).decls[slot]? = some decl ∧
      (s.table c node).cells[slot]? = some x
  cell : s.property c id prop = .ok x

variable {s : Scene U X} {store : Store (Code U)} {c : ComponentId} {id prop : String}

namespace Laid

variable (h : s.Laid store)
include h

theorem slot?_of_decl? (hdecl : (s.component c).definition.decl? node prop = some decl) :
    ∃ slot x, (s.table c node).slot? prop = some slot ∧
      (s.table c node).decls[slot]? = some decl ∧ (s.table c node).cells[slot]? = some x := by
  obtain ⟨x, hx⟩ := h.cellOf_of_decl? hdecl
  obtain ⟨slot, hslot, hcell⟩ := cellOf_eq_some.1 hx
  rw [decl?_eq_find?, ← h.decls c node] at hdecl
  obtain ⟨i, hi, hdecl⟩ := index?_of_find? hdecl
  cases hslot.symm.trans hi
  exact ⟨slot, x, hslot, hdecl, hcell⟩

theorem slot?_eq_none (hdecl : (s.component c).definition.decl? n prop = none) :
    (s.table c n).slot? prop = none := by
  rw [decl?_eq_find?, ← h.decls c n] at hdecl
  refine Option.eq_none_iff_forall_ne_some.2 fun slot hslot => ?_
  obtain ⟨decl, hmem, hname⟩ := name_of_index? hslot
  exact List.find?_eq_none.1 hdecl decl (List.mem_of_getElem? hmem) (by simp [hname])

theorem callback_of_decl? {name : String} {decl : CallbackDecl}
    (hdecl : (s.component c).definition.callbackDecl? node name = some decl) :
    ∃ cb, Callback.find? (s.callbacksAt c node) name = some cb ∧ cb.decl = decl := by
  have houtline : (s.callbacksAt c node).map (·.decl) =
      ((s.component c).definition.outlineOf node).2 := by
    rw [← h.outline c]
    cases node <;> rfl
  rw [callbackDecl?_eq_find?, ← houtline, List.find?_map] at hdecl
  exact Option.map_eq_some_iff.1 hdecl

omit h in
theorem lookup_of_itemNamed? (hid : id ≠ "") : s.lookup c id prop =
    match s.itemNamed? c id with
    | some it =>
      match (s.item it).table.slot? prop with
      | some i => .ok ⟨c, some it.index, i⟩
      | none => .error (.within s!"{id}.{prop}" .noSuchProperty)
    | none => .error (.within (s.component c).definition.name (.noSuchItem id)) := by
  unfold lookup itemNamed
  rw [if_neg hid]
  dsimp only
  cases s.itemNamed? c id <;> rfl

/-- The component's own names are looked up in its scope, then at the root. -/
theorem lookup_own (hroot : (s.component c).definition.nodes ≠ []) : s.lookup c "" prop =
    match (s.component c).scope.slot? prop with
    | some i => .ok ⟨c, none, i⟩
    | none =>
      match (s.item ⟨c, 0⟩).table.slot? prop with
      | some i => .ok ⟨c, some 0, i⟩
      | none => .error (.within s!"{(s.item ⟨c, 0⟩).id}.{prop}" .noSuchProperty) := by
  have hnamed : s.itemNamed? c (s.item ⟨c, 0⟩).id = some ⟨c, 0⟩ := by
    have hid : (s.item ⟨c, 0⟩).id = ((s.component c).definition.outlineOf (some 0)).1 :=
      congrArg (fun f => (f (some 0)).1) (h.outline c)
    unfold itemNamed?
    rw [hid]
    cases hnodes : (s.component c).definition.nodes with
    | nil => exact absurd hnodes hroot
    | cons node nodes => simp [List.findIdx?_cons, outlineOf, hnodes]
  unfold lookup itemNamed
  rw [if_pos rfl]
  dsimp only
  generalize s.itemNamed? c (s.item ⟨c, 0⟩).id = found at hnamed ⊢
  subst hnamed
  rfl

variable (hroot : (s.component c).definition.nodes ≠ [])
include hroot

/-- An instance finds what its definition resolves, at the same node, and nothing else. -/
theorem lookup_resolve : (∀ n decl, (s.component c).definition.resolve id prop = .ok (n, decl) →
      ∃ slot, s.lookup c id prop = .ok ⟨c, n, slot⟩ ∧ (s.table c n).slot? prop = some slot) ∧
    (∀ f, (s.component c).definition.resolve id prop = .error f →
      ∃ f', s.lookup c id prop = .error f') := by
  have hfound {n : Option Nat} {decl : PropDecl}
      (hdecl : (s.component c).definition.decl? n prop = some decl) :
      ∃ slot, (s.table c n).slot? prop = some slot :=
    (h.slot?_of_decl? hdecl).imp fun _ ⟨_, hslot, _⟩ => hslot
  unfold Definition.resolve node?
  by_cases hid : id = ""
  · subst hid
    rw [if_pos rfl, h.lookup_own hroot]
    dsimp only [find?]
    cases hdeclared : (s.component c).definition.declared.find? (·.name == prop) with
    | some decl =>
      obtain ⟨slot, hslot⟩ := hfound (n := none) hdeclared
      rw [show (s.component c).scope.slot? prop = some slot from hslot]
      refine ⟨?_, nofun⟩
      rintro _ _ ⟨⟩
      exact ⟨slot, rfl, hslot⟩
    | none =>
      rw [show (s.component c).scope.slot? prop = none from h.slot?_eq_none (n := none) hdeclared]
      cases helement : (s.component c).definition.elementProp? 0 prop with
      | some decl =>
        obtain ⟨slot, hslot⟩ := hfound (n := some 0) helement
        rw [show (s.item ⟨c, 0⟩).table.slot? prop = some slot from hslot]
        refine ⟨?_, nofun⟩
        rintro _ _ ⟨⟩
        exact ⟨slot, rfl, hslot⟩
      | none =>
        rw [show (s.item ⟨c, 0⟩).table.slot? prop = none from h.slot?_eq_none
          (n := some 0) helement]
        exact ⟨nofun, fun _ _ => ⟨_, rfl⟩⟩
  · rw [if_neg hid, lookup_of_itemNamed? hid, itemNamed?]
    cases (s.component c).definition.nodes.findIdx? (·.id == id) with
    | none => exact ⟨nofun, fun _ _ => ⟨_, rfl⟩⟩
    | some m =>
      dsimp only [Option.map, find?]
      cases helement : (s.component c).definition.elementProp? m prop with
      | some decl =>
        obtain ⟨slot, hslot⟩ := hfound (n := some m) helement
        rw [show (s.item ⟨c, m⟩).table.slot? prop = some slot from hslot]
        refine ⟨?_, nofun⟩
        rintro _ _ ⟨⟩
        exact ⟨slot, rfl, hslot⟩
      | none =>
        rw [show (s.item ⟨c, m⟩).table.slot? prop = none from h.slot?_eq_none
          (n := some m) helement]
        exact ⟨nofun, fun _ _ => ⟨_, rfl⟩⟩

theorem denotes_of_resolve (hresolve : (s.component c).definition.resolve id prop = .ok (n, decl)) :
    ∃ x, s.Denotes c id prop n decl x := by
  obtain ⟨slot, x, hslot, hdecl, hcell⟩ := h.slot?_of_decl? (decl?_of_resolve hresolve)
  obtain ⟨i, hlookup, hi⟩ := (h.lookup_resolve hroot).1 n decl hresolve
  cases hslot.symm.trans hi
  refine ⟨x, ⟨slot, hlookup, hslot, hdecl, hcell⟩, ?_⟩
  rw [Scene.property, hlookup]
  show Except.ok (((s.table c n).cells[slot]?).getD 0) = _
  rw [hcell]
  rfl

/-- A name means the same declaration in a definition and in its instances, and is unknown to both
or to none. -/
theorem denotes_iff (id prop : String) :
    (∀ decl, (s.component c).definition.lookup? id prop = some decl ↔
      ∃ n x, s.Denotes c id prop n decl x) ∧
    ((s.component c).definition.lookup? id prop = none ↔ ∃ f, s.property c id prop = .error f) := by
  cases hresolve : (s.component c).definition.resolve id prop with
  | ok found =>
    obtain ⟨n, decl⟩ := found
    obtain ⟨x, hx⟩ := h.denotes_of_resolve hroot hresolve
    have hlookup := lookup?_eq_some.2 ⟨n, hresolve⟩
    refine ⟨fun decl' => ⟨fun hdecl => ?_, fun hdenotes => ?_⟩, by simp [hlookup, hx.cell]⟩
    · cases hlookup.symm.trans hdecl
      exact ⟨n, x, hx⟩
    · obtain ⟨_, _, ⟨⟨_, hspot', -, hdecl', -⟩, -⟩⟩ := hdenotes
      obtain ⟨_, hspot, -, hdecl, -⟩ := hx.spot
      cases hspot.symm.trans hspot'
      cases hdecl.symm.trans hdecl'
      exact hlookup
  | error f =>
    obtain ⟨f', hf'⟩ := (h.lookup_resolve hroot).2 f hresolve
    have hlookup : (s.component c).definition.lookup? id prop = none := by
      refine Option.eq_none_iff_forall_ne_some.2 fun decl hdecl => ?_
      obtain ⟨n, hn⟩ := lookup?_eq_some.1 hdecl
      rw [hresolve] at hn
      cases hn
    refine ⟨fun decl => ⟨fun hdecl => ?_, fun hdenotes => ?_⟩, ?_⟩
    · rw [hlookup] at hdecl
      cases hdecl
    · obtain ⟨_, _, ⟨⟨_, hspot, -⟩, -⟩⟩ := hdenotes
      rw [hf'] at hspot
      cases hspot
    · simp [hlookup, Scene.property, hf', Except.map]

theorem own_of_denotes {x : CellId} (hx : s.Denotes c "" prop n decl x) :
    n = none ↔ ∃ decl ∈ (s.component c).definition.declared, decl.name = prop := by
  obtain ⟨slot, hspot, hslot, -⟩ := hx.spot
  rw [h.lookup_own hroot] at hspot
  have hscope : (s.component c).scope.decls = (s.component c).definition.declared := h.decls c none
  cases hown : (s.component c).scope.slot? prop with
  | some i =>
    rw [hown] at hspot
    cases hspot
    obtain ⟨decl, hdecl, hname⟩ := name_of_index? hown
    exact ⟨fun _ => ⟨decl, hscope ▸ List.mem_of_getElem? hdecl, hname⟩, fun _ => rfl⟩
  | none =>
    rw [hown] at hspot
    dsimp only at hspot
    split at hspot
    · cases hspot
      refine ⟨nofun, fun ⟨decl, hdecl, hname⟩ => ?_⟩
      have hnone := List.findIdx?_eq_none_iff.1 hown decl (hscope ▸ hdecl)
      simp [hname] at hnone
    · cases hspot

end Laid

end Scene

/-! ## Builds that miss a name -/

namespace Component

variable (lost : ComponentId → Option Nat → String → SceneM U X Spot)
  (mute : HandlerDef U → SceneM U X Unit)

/-- Finds a spot, and does `lost` if there is none. -/
def spotOr (c : ComponentId) (node : Option Nat) (prop : String) : SceneM U X Spot := do
  match ← Act.ask fun s => (s.table c node).slot? prop with
  | some slot => return ⟨c, node, slot⟩
  | none => lost c node prop

def attachBindingsOr (c : ComponentId) :
    List (BindDef U) → SceneM U X (List (TransitionId × Code U Value))
  | [] => return []
  | b :: rest => do
    let spot ← spotOr lost c b.node b.prop
    let (table, cell) ← Act.ask fun s => (s.table c spot.node, s.cellAt spot)
    let name ← SceneM.cellName cell
    let kind := (table.decls.getD spot.slot default).kind
    let code := Code.coerced name kind (← tieBinding c b.template)
    match table.transition? spot.slot with
    | some a => return (a, code) :: (← attachBindingsOr c rest)
    | none =>
      .setBinding cell code
      attachBindingsOr c rest

/-- Installs a handler, and does `mute` if its callback is missing. -/
def attachHandlerOr (c : ComponentId) (h : HandlerDef U) : SceneM U X Unit := do
  let callbacks ← Act.ask fun s =>
    match h.node with
    | none => (s.component c).callbacks
    | some n => (s.item ⟨c, n⟩).callbacks
  let handler ← tieHandler c h.template
  match Callback.find? callbacks h.name with
  | some cb => Act.change fun s => s.setHandler cb.signal handler
  | none => mute h

/-- A build that does `lost` or `mute` where a name is missing. -/
def buildOr (d : Definition U) (host : Option ItemRef) (source : Option Nat) :
    SceneM U X ComponentId := do
  let c ← found d host source
  d.sets.forM fun x => do
    let spot ← spotOr lost c x.node x.prop
    .set (← Act.ask fun s => s.cellAt spot) x.v
  d.anims.forM fun x => do
    animate (← spotOr lost c x.node x.prop) x.spec
  d.links.forM fun l => do
    let a ← spotOr lost c l.node l.prop
    let b ← spotOr lost c l.other l.otherProp
    let (a, b) ← Act.ask fun s => (s.cellAt a, s.cellAt b)
    discard <| Act.link a b
  let animated ← attachBindingsOr lost c d.binds
  animated.forM fun (a, code) => Transition.setBinding a code
  d.handlers.forM (attachHandlerOr mute c)
  d.repeats.forM fun (n, sub, model) => addRepeater ⟨c, n⟩ sub model
  return c

end Component

section

variable {nested : SceneNested U X}
  {w : SceneTale U X} {g : CellId → Prop} {c : ComponentId} {d : Definition U}

theorem Act.tell_ask_bind (f : Scene U X → β) (k : β → SceneM U X α) :
    (Act.ask f >>= k).tell nested w = (k (f w.host.1)).tell nested w.beat := rfl

/-- The runs of a session in which user code may bind and link what it likes. -/
abbrev loose {U X : Type} : Regime (Scene U X) (Code U) (CellId → Prop) :=
  woven (fun _ => True) fun _ => False

/-- An instance of `d`, in a scene that is laid out. -/
structure Instance (d : Definition U) (c : ComponentId) (g : CellId → Prop)
    (w : Tale (Scene U X) (Code U)) : Prop where
  woven : Woven (fun _ => True) g w.store w.host.1
  lt : c < w.host.1.components.size
  definition : (w.host.1.component c).definition = d

theorem Instance.later {g' : CellId → Prop} {w' : SceneTale U X} (h : Instance d c g w)
    (hle : loose.le g w g' w') (hw' : loose.holds g' w') : Instance d c g' w' :=
  ⟨hw', h.lt.trans_le hle.size, (hle.definition c h.lt).trans h.definition⟩

variable {lost : ComponentId → Option Nat → String → SceneM U X Spot}
  {mute : HandlerDef U → SceneM U X Unit}

theorem Instance.tell_spotOr (h : Instance d c g w)
    (hdecl : ∃ decl, d.decl? node prop = some decl) :
    (Component.spotOr lost c node prop).tell nested w = (Component.spotOf c node prop).tell
      nested w := by
  obtain ⟨decl, hdecl⟩ := hdecl
  rw [← h.definition] at hdecl
  obtain ⟨slot, -, hslot, -, -⟩ := h.woven.laid.slot?_of_decl? hdecl
  unfold Component.spotOr Component.spotOf
  rw [Act.tell_ask_bind, Act.tell_ask_bind, hslot]

theorem Instance.tell_bind {P : (CellId → Prop) → SceneTale U X → β → Prop}
    {x y : SceneM U X β} {f f' : β → SceneM U X α} (h : Instance d c g w)
    (hxy : x.tell nested w = y.tell nested w) (hy : loose.Runs nested g w y P)
    (hf : ∀ g' w' b, Instance d c g' w' → (f b).tell nested w' = (f' b).tell nested w') :
    (x >>= f).tell nested w = (y >>= f').tell nested w := by
  cases hx : y.tell nested w with
  | ok b u =>
    obtain ⟨g', hle, hw', -⟩ := Regime.Goes.of_ok hy hx
    rw [Act.tell_bind_of_ok hx, Act.tell_bind_of_ok (hxy.trans hx), hf g' u b (h.later hle hw')]
  | error stop u => rw [Act.tell_bind_of_error hx, Act.tell_bind_of_error (hxy.trans hx)]

variable (hN : loose.Obeys nested)
include hN

theorem Instance.tell_spotOr_bind (h : Instance d c g w)
    (hdecl : ∃ decl, d.decl? node prop = some decl) {f f' : Spot → SceneM U X α}
    (hf : ∀ g' w' spot, Instance d c g' w' → (f spot).tell nested w' = (f' spot).tell nested w') :
    (Component.spotOr lost c node prop >>= f).tell nested w =
      (Component.spotOf c node prop >>= f').tell nested w :=
  h.tell_bind (h.tell_spotOr hdecl) (woven_composed hN (.spotOf c node prop) h.woven) hf

theorem Instance.tell_forM_bind {xs : List β} {f f' : β → SceneM U X PUnit}
    {k k' : PUnit → SceneM U X α} (h : Instance d c g w)
    (hf : ∀ x ∈ xs, ∀ g' w', Instance d c g' w' → (f x).tell nested w' = (f' x).tell nested w')
    (hcalm : ∀ x, Act.Composed (Weaves fun _ => True) (f' x))
    (hk : ∀ g' w', Instance d c g' w' → (k ⟨⟩).tell nested w' = (k' ⟨⟩).tell nested w') :
    (xs.forM f >>= k).tell nested w = (xs.forM f' >>= k').tell nested w := by
  refine h.tell_bind ?_ (woven_composed hN (.forM fun x _ => hcalm x) h.woven) fun g' w' _ h' =>
    hk g' w' h'
  clear hk
  induction xs generalizing g w with
  | nil => rfl
  | cons x xs ih =>
    exact h.tell_bind (hf x (by simp) g w h) (woven_composed hN (hcalm x) h.woven)
      fun g' w' _ h' => ih h' fun y hy => hf y (by simp [hy])

theorem Instance.tell_attachBindingsOr {binds : List (BindDef U)} (h : Instance d c g w)
    (hbinds : ∀ b ∈ binds, b ∈ d.binds) (hmade : d.Made) :
    (Component.attachBindingsOr lost c binds).tell nested w =
      (Component.attachBindings c binds).tell nested w := by
  induction binds generalizing g w with
  | nil => rfl
  | cons b rest ih =>
    obtain ⟨hb, hrest⟩ := List.forall_mem_cons.1 hbinds
    refine h.tell_spotOr_bind hN (hmade.consistent.binds b hb) fun g1 w1 spot h1 => ?_
    refine h1.tell_bind rfl (woven_composed hN (.ask _) h1.woven) fun g2 w2 at' h2 => ?_
    refine h2.tell_bind rfl (woven_composed hN (.view _) h2.woven) fun g3 w3 name h3 => ?_
    refine h3.tell_bind rfl (woven_composed hN (.tieBinding c b.template) h3.woven)
      fun g4 w4 code h4 => ?_
    cases at'.1.transition? spot.slot with
    | some a =>
      refine h4.tell_bind (ih h4 hrest) (woven_attachBindings hN h4.lt (fun y hy => ?_) h4.woven)
        fun _ _ _ _ => rfl
      rw [h4.definition]
      exact hrest y hy
    | none =>
      exact h4.tell_bind rfl (woven_composed hN (.prim (.setBinding trivial _)) h4.woven)
        fun g5 w5 _ h5 => ih h5 hrest

omit hN in
theorem Instance.tell_attachHandlerOr (h : Instance d c g w) {x : HandlerDef U}
    (hdecl : ∃ decl, d.callbackDecl? x.node x.name = some decl) :
    (Component.attachHandlerOr mute c x).tell nested w =
      (Component.attachHandler c x).tell nested w := by
  obtain ⟨decl, hdecl⟩ := hdecl
  rw [← h.definition] at hdecl
  obtain ⟨cb, hcb, -⟩ := h.woven.laid.callback_of_decl? hdecl
  obtain ⟨node, name, template⟩ := x
  unfold Component.attachHandlerOr Component.attachHandler
  rw [Act.tell_ask_bind, Act.tell_ask_bind]
  cases node with
  | none =>
    dsimp only [Scene.callbacksAt] at hcb ⊢
    rw [hcb]
  | some n =>
    dsimp only [Scene.callbacksAt] at hcb ⊢
    rw [hcb]

theorem tell_buildOr (hw : Woven (fun _ => True) g w.store w.host.1) (hmade : d.Made)
    (host : Option ItemRef) (source : Option Nat) :
    (Component.buildOr lost mute d host source).tell nested w =
      (Component.build d host source).tell nested w := by
  have hd := hmade.consistent
  rw [Component.tell_build]
  unfold Component.buildOr
  cases hfound : (Component.found d host source).tell nested w with
  | error stop u => rw [Act.tell_bind_of_error hfound, Act.tell_bind_of_error hfound]
  | ok c u =>
    rw [Act.tell_bind_of_ok hfound, Act.tell_bind_of_ok hfound]
    obtain ⟨g1, -, hw1, hc, hdef, -⟩ :=
      Regime.Goes.of_ok (woven_found (T := fun _ => False) hN hw hmade host source) hfound
    have h1 : Instance d c g1 u := ⟨hw1, hc, hdef⟩
    refine h1.tell_forM_bind hN (fun x hx _ _ h => h.tell_spotOr_bind hN
      ((hd.sets x hx).imp fun _ h => h.1) fun _ _ _ _ => rfl)
      (fun x => .bind (.spotOf c x.node x.prop) fun _ => .asks fun _ => .prim (.set ..))
      fun g2 w2 h2 => ?_
    refine h2.tell_forM_bind hN (fun x hx _ _ h => h.tell_spotOr_bind hN (hd.anims x hx)
      fun _ _ _ _ => rfl)
      (fun x => .bind (.spotOf c x.node x.prop) fun spot => .animate Weaves.host .get spot x.spec)
      fun g3 w3 h3 => ?_
    refine h3.tell_forM_bind hN (fun l hl _ _ h => ?_)
      (fun l => .bind (.spotOf c l.node l.prop) fun _ => .bind
        (.spotOf c l.other l.otherProp) fun _ =>
        .asks fun _ => .discard (.prim (.link trivial _)))
      fun g4 w4 h4 => ?_
    · obtain ⟨a, b, ha, hb, -⟩ := hd.links l hl
      exact h.tell_spotOr_bind hN ⟨a, ha⟩ fun _ _ _ h => h.tell_spotOr_bind hN
        ⟨b, hb⟩ fun _ _ _ _ => rfl
    have hbinds : ∀ b ∈ d.binds, b ∈ (w4.host.1.component c).definition.binds := by
      rw [h4.definition]
      exact fun _ hb => hb
    refine h4.tell_bind (h4.tell_attachBindingsOr hN (fun _ hb => hb) hmade)
      (woven_attachBindings hN h4.lt hbinds h4.woven) fun g5 w5 animated h5 => ?_
    refine h5.tell_forM_bind hN (fun _ _ _ _ _ => rfl) (fun y => .bindTransition Weaves.host .set
      .drop .newTracker .track y.1 y.2) fun g6 w6 h6 => ?_
    exact h6.tell_forM_bind hN (fun x hx _ _ h => h.tell_attachHandlerOr (hd.handlers x hx))
      (fun x => .attachHandler Weaves.host c x) fun _ _ _ => rfl

end

/-- In a scene that is laid out nothing is tied but by user code. -/
theorem Scene.Laid.woven {s : Scene U X} {store : Store (Code U)} (h : s.Laid store) :
    Woven (fun _ => True) (fun _ => False) store s := by
  refine ⟨h, fun _ => .inl trivial, False.elim, fun {c} _ hfree _ l hl => ?_⟩
  obtain ⟨a, -, ha, -⟩ := (h.made c).consistent.links l hl
  obtain ⟨x, hx⟩ := h.cellOf_of_decl? ha
  exact absurd trivial (hfree _ x (mem_of_cellOf hx))

theorem Modest.tame {act : SceneM U X α} (h : Modest act) : Tame (fun _ => True) act :=
  ⟨h, fun _ _ => trivial⟩

theorem laid_build {host : Host U X} (hhost : host.Uses (Tame fun _ => True)) {depth : Nat}
    {d : Definition U} (hmade : d.Made) {v v' : World (Scene U X) (Code U)}
    (hv : v.host.Laid v.store) {under : Option ItemRef} {source : Option Nat} {c : ComponentId}
    (hrun : (Component.build d under source).runTo (Code.meaning host) depth v = .ok c v') :
    v'.host.Laid v'.store ∧ (v'.host.component c).definition = d := by
  have hecho := Act.tell_echoes (Act.toldTo_echoes (Code.meaning host) depth)
    (Component.build d under source : SceneM U X _) ⟨v.store, v.host, []⟩
  have htold := woven_build (w := ⟨v.store, v.host, []⟩)
    (toldTo_woven hhost depth) hv.woven (fun _ _ => trivial) hmade under source
  cases hr : (Component.build d under source : SceneM U X _).tell
      (Act.toldTo (Code.meaning host) depth) ⟨v.store, v.host, []⟩ with
  | error stop u =>
    rw [hr] at hecho
    cases hecho.trans hrun
  | ok a u =>
    rw [hr] at hecho
    cases hecho.trans hrun
    obtain ⟨_, -, hwoven, -, hd, -⟩ := Regime.Goes.of_ok htold hr
    exact ⟨Woven.laid hwoven, hd⟩

/-- Names mean the same in a definition and in its instances. The builder calls are any that leave
no fault and a root, and the worlds those of a session, or any in which scenes are laid out as they
are there, in the midst of an act too. In every instance a name denotes what it does in the
definition, and is unknown to both or to none; a declared property hides that of the root element.
What a call named keeps its meaning as more calls are made, and denotes it in the instance, at the
node that the call recorded. A build finds all these names: it does not matter what it would do
otherwise. -/
theorem names_resolve_alike (host : Host U X) (hhost : host.Uses Modest) (depth : Nat)
    (name : String) (calls : List (Call U)) (hsound : ∀ k ∈ calls, k.Sound)
    (hfault : (ofCalls name calls).fault = none) (hroot : (ofCalls name calls).nodes ≠ []) :
    (∀ user reports acts, Deeds Modest host depth acts (World.start user reports) →
      let w := Act.session (Code.meaning host) depth acts (World.start user reports)
      w.host.Laid w.store) ∧
    ∀ v : World (Scene U X) (Code U), v.host.Laid v.store →
    (∀ c, (v.host.component c).definition = ofCalls name calls →
      (∀ id prop, (∀ decl, (ofCalls name calls).lookup? id prop = some decl ↔
          ∃ n x, v.host.Denotes c id prop n decl x) ∧
        ((ofCalls name calls).lookup? id prop = none ↔ ∃ f, v.host.property c id prop = .error f)) ∧
      (∀ prop n decl x, v.host.Denotes c "" prop n decl x →
        (n = none ↔ ∃ decl ∈ (ofCalls name calls).declared, decl.name = prop)) ∧
      (∀ before k after, calls = before ++ k :: after → ∀ y ∈ k.names, ∃ n decl x,
        (ofCalls name before).resolve y.1 y.2 = .ok (n, decl) ∧
        (n, y.2) ∈ (ofCalls name calls).recorded ∧ v.host.Denotes c y.1 y.2 n decl x) ∧
      (∀ before id callback template after,
        calls = before ++ .onCallback id callback template :: after → ∃ n decl cb,
          (ofCalls name before).node? id = some n ∧
          (ofCalls name before).callbackDecl? n callback = some decl ∧ ⟨n, callback, template⟩ ∈
          (ofCalls name calls).handlers ∧ Callback.find?
            (v.host.callbacksAt c n) callback = some cb ∧ cb.decl = decl)) ∧
    ∀ under source,
      (∀ lost mute,
        (Component.buildOr lost mute (ofCalls name calls) under source).runTo
          (Code.meaning host) depth v = (Component.build (ofCalls name calls) under source).runTo
            (Code.meaning host) depth v) ∧
      ∀ c v', (Component.build (ofCalls name calls) under source).runTo
          (Code.meaning host) depth v = .ok c v' →
        v'.host.Laid v'.store ∧ (v'.host.component c).definition = ofCalls name calls := by
  have hmade := made_ofCalls name hsound
  have htame : host.Uses (Tame fun _ => True) := hhost.mono fun _ _ h => h.tame
  refine ⟨fun user reports acts hacts => ?_, fun v hv => ⟨fun c hc => ?_, fun under source =>
    ⟨fun lost mute => ?_, fun c v' hrun => laid_build htame hmade hv hrun⟩⟩⟩
  · obtain ⟨g, hwoven⟩ := toldSession_woven htame depth (w := Tale.start user reports)
      (woven_start user reports) (hacts.mono fun _ _ h => h.tame)
    rw [show World.start user reports = (Tale.start user reports).untold from rfl,
      ← Act.untold_toldSession]
    exact hwoven.laid
  · rw [← hc] at hroot
    rw [← hc]
    refine ⟨fun id prop => hv.denotes_iff hroot id prop,
      fun prop n decl x hx => hv.own_of_denotes hroot hx, ?_, ?_⟩
    · rintro before k after rfl y hy
      obtain ⟨n, decl, hresolve, hmem, hfinal⟩ := ofCalls_recorded hfault y hy
      rw [← hc] at hmem hfinal
      obtain ⟨x, hx⟩ := hv.denotes_of_resolve hroot hfinal
      exact ⟨n, decl, x, hresolve, hmem, hx⟩
    · rintro before id callback template after rfl
      obtain ⟨n, decl, hn, hdecl, hmem, hfinal⟩ := ofCalls_handler hfault
      rw [← hc] at hmem hfinal
      obtain ⟨cb, hcb, rfl⟩ := hv.callback_of_decl? hfinal
      exact ⟨n, _, cb, hn, hdecl, hmem, hcb, rfl⟩
  · have hrun (act : SceneM U X ComponentId) :=
      Act.tell_echoes (Act.toldTo_echoes (Code.meaning host) depth) act ⟨v.store, v.host, []⟩
    exact (hrun _).symm.trans ((congrArg _ (tell_buildOr (w := ⟨v.store, v.host, []⟩)
      (toldTo_woven htame depth) hv.woven hmade under source)).trans (hrun _))

namespace Late

/-- The width is named before anything is declared, the title after. -/
def calls : List (Call Unit) :=
  [.root 1 "root", .set "" "width" (.float 10), .declare "title" .string (.string "none"),
    .set "" "title" (.string "late"), .declareCallback "closed" [], .onCallback "" "closed" .absent]

def built : EStateM.Result Stop (World (Scene Unit Unit) (Code Unit)) ComponentId :=
  (Component.build (ofCalls "Late" calls) none none).runTo (Code.meaning Roster.host) 9
    (World.start () false)

end Late

/-- The instance has a title, and nothing that is called like its callback. -/
theorem names_resolve_alike_late : ∃ c v, Late.built = .ok c v ∧
    (∃ n decl x, v.host.Denotes c "" "title" n decl x) ∧ ∃ f, v.host.property c ""
      "closed" = .error f := by
  have hsound : ∀ k ∈ Late.calls, k.Sound := by simp [Late.calls, Call.Sound]
  have hfault : (ofCalls "Late" Late.calls).fault = none :=
    Option.isNone_iff_eq_none.1 (by decide +kernel)
  have hroot :
      (ofCalls "Late" Late.calls).nodes ≠ [] := List.ne_nil_of_length_pos (by decide +kernel)
  have hnames := (names_resolve_alike Roster.host (X := Unit) ⟨fun _ _ _ => .pure _,
    fun _ _ => .pure _, fun _ _ => .pure _⟩ 9 "Late" Late.calls hsound hfault hroot).2
  have hok : (match Late.built with
      | .ok _ _ => true
      | .error _ _ => false) = true := by decide +kernel
  generalize hbuilt : Late.built = r at hok
  match r with
  | .error stop v => cases hok
  | .ok c v =>
    obtain ⟨hlaid, hc⟩ := ((hnames _ (.start () _)).2 none none).2 c v hbuilt
    obtain ⟨hnames, -⟩ := (hnames v hlaid).1 c hc
    obtain ⟨decl, hdecl⟩ := Option.isSome_iff_exists.1
      (show ((ofCalls "Late" Late.calls).lookup? "" "title").isSome = true by decide +kernel)
    obtain ⟨n, x, hx⟩ := ((hnames "" "title").1 decl).1 hdecl
    exact ⟨c, v, rfl, ⟨n, decl, x, hx⟩,
      (hnames "" "closed").2.1 (Option.isNone_iff_eq_none.1 (by decide +kernel))⟩

end ReactiveTree
