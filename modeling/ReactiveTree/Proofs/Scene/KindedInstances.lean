import ReactiveTree.Proofs.Scene.KindedMotion

/-!
# Instances keep kinds

Building an instance gives every cell the role that the definition declares for it, and
whatever is then written, bound, linked or animated there was found through the same
declarations. Teardown drops cells and trackers but changes no value.
-/

namespace ReactiveTree

open Store

variable {U X : Type} {g g' : List Role} {w w' : SceneTale U X}
variable {c : ComponentId} {d : Definition U} {decls : List PropDecl} {node : Option Nat}
  {decl : PropDecl} {spot : Spot} {prop : String}

/-! ## Changes of the scene -/

/-- The scenes differ in nothing that has to do with kinds. -/
structure Scene.Apart (s t : Scene U X) : Prop where
  clock : t.clock.cell = s.clock.cell
  running : t.clock.running = s.clock.running
  transitions : t.transitions = s.transitions
  repeaters : t.repeaters = s.repeaters
  components : t.components = s.components
  handles : t.handles = s.handles

namespace KindedTale

variable (hw : KindedTale g w)
include hw

theorem apart {t : Scene U X} (h : w.host.1.Apart t) :
    KindedTale g (w.withHost t) ∧ KindedLater g w g (w.withHost t) := by
  obtain ⟨clock, transitions, signals, vectors, peers, repeaters, components, handles, windows,
    user⟩ := t
  obtain ⟨cell, running, ticking⟩ := clock
  obtain ⟨hcell, hrunning, htransitions, hrepeaters, hcomponents, hhandles⟩ := h
  subst hcell hrunning htransitions hrepeaters hcomponents hhandles
  exact hw.withHost (hw.scene.aside ticking signals vectors peers windows user)
    (Scene.later_aside g _ ticking signals vectors peers windows user) hw.alive

/-- Components change or are added: the cells of those there are stay, and all tables and
transitions are in order. -/
theorem setComponents {components : Array (Component U)}
    (hsize : w.host.1.components.size ≤ components.size)
    (htables : ∀ c node, { w.host.1 with components }.table c node = w.host.1.table c node ∨
      (c < w.host.1.components.size →
        ({ w.host.1 with components }.table c node).decls = (w.host.1.table c node).decls ∧
        ({ w.host.1 with components }.table c node).cells = (w.host.1.table c node).cells) ∧
      ({ w.host.1 with components }.table c node).Kinded g w.host.1.transitions)
    (hmoves : ∀ c x a, (x, a) ∈ (components.getD c default).transitions →
      (x, a) ∈ (w.host.1.component c).transitions ∨ Moves w a x) :
    KindedTale g (w.withHost { w.host.1 with components }) ∧
      KindedLater g w g (w.withHost { w.host.1 with components }) := by
  have hlater : w.host.1.Later g { w.host.1 with components } := by
    refine ⟨Nat.le_refl _, fun _ _ => rfl, fun _ _ _ h => h, hsize, fun c hc node => ?_,
      fun c hc node => ?_, Nat.le_refl _, fun _ _ => rfl⟩
    · rcases htables c node with heq | ⟨hsame, -⟩
      · rw [heq]
      · exact (hsame hc).1
    · rcases htables c node with heq | ⟨hsame, -⟩
      · rw [heq]
      · exact (hsame hc).2
  exact hw.withHost (hw.scene.change hlater rfl hw.scene.running
    (fun c node => (htables c node).imp_right And.right) hmoves (fun _ => .inl rfl)
    fun _ => .inl rfl) hlater hw.alive

theorem modifyComponent (c : ComponentId) {f : Component U → Component U}
    (hitems : ∀ x, (f x).items = x.items) (hscope : ∀ x, (f x).scope = x.scope)
    (hmoves : ∀ y x a, (x, a) ∈ (f y).transitions → (x, a) ∈ y.transitions ∨ Moves w a x) :
    KindedTale g (w.withHost (w.host.1.modifyComponent c f)) ∧
      KindedLater g w g (w.withHost (w.host.1.modifyComponent c f)) := by
  refine hw.setComponents (Nat.le_of_eq Array.size_modify.symm)
    (fun e node => .inl (w.host.1.table_modifyComponent c hitems hscope e node)) fun e x a h => ?_
  have hget := w.host.1.component_modify c e f
  rw [show (w.host.1.components.modify c f).getD e default = _ from hget] at h
  split at h
  · exact hmoves _ x a h
  · exact .inl h

theorem modifyItem (it : ItemRef) {f : Item → Item}
    (htable : (f (w.host.1.item it)).table = (w.host.1.item it).table ∨
      (f (w.host.1.item it)).table.decls = (w.host.1.item it).table.decls ∧
      (f (w.host.1.item it)).table.cells = (w.host.1.item it).table.cells ∧
      (f (w.host.1.item it)).table.Kinded g w.host.1.transitions) :
    KindedTale g (w.withHost (w.host.1.modifyItem it f)) ∧
      KindedLater g w g (w.withHost (w.host.1.modifyItem it f)) := by
  refine hw.setComponents (Nat.le_of_eq Array.size_modify.symm) (fun c node => ?_) fun e x a h => ?_
  · have hget := w.host.1.table_modifyItem it f c node
    rw [show Scene.table { w.host.1 with components := _ } c node = _ from hget]
    split
    · rename_i h
      obtain ⟨rfl, rfl, -⟩ := h
      rcases htable with heq | ⟨hdecls, hcells, hkinded⟩
      · exact .inl heq
      · exact .inr ⟨fun _ => ⟨hdecls, hcells⟩, hkinded⟩
    · exact .inl rfl
  · have hget : (w.host.1.modifyItem it f).component e = _ := w.host.1.component_modifyItem it f e
    have h : (x, a) ∈ ((w.host.1.modifyItem it f).component e).transitions := h
    rw [hget] at h
    exact .inl h

theorem modifyScope (c : ComponentId) {f : Table → Table}
    (hdecls : ∀ t, (f t).decls = t.decls) (hcells : ∀ t, (f t).cells = t.cells)
    (hkinded : (f (w.host.1.table c none)).Kinded g w.host.1.transitions) :
    KindedTale g (w.withHost (w.host.1.modifyComponent c fun x => { x with scope := f x.scope })) ∧
      KindedLater g w g
        (w.withHost (w.host.1.modifyComponent c fun x => { x with scope := f x.scope })) := by
  refine hw.setComponents (Nat.le_of_eq Array.size_modify.symm) (fun e node => ?_) fun e x a h => ?_
  · have hget := w.host.1.table_modifyScope c f e node
    rw [show Scene.table { w.host.1 with components := _ } e node = _ from hget]
    split
    · rename_i h
      obtain ⟨rfl, rfl, -⟩ := h
      exact .inr ⟨fun _ => ⟨hdecls _, hcells _⟩, hkinded⟩
    · exact .inl rfl
  · rw [getD_modify] at h
    split at h <;> exact .inl h

theorem pushComponent {x : Component U} (hscope : x.scope.Kinded g w.host.1.transitions)
    (hitems : ∀ n, (x.items.getD n default).table.Kinded g w.host.1.transitions)
    (hmoves : x.transitions = []) :
    KindedTale g (w.withHost { w.host.1 with components := w.host.1.components.push x }) ∧
      KindedLater g w g
        (w.withHost { w.host.1 with components := w.host.1.components.push x }) := by
  have hget : ∀ c, Scene.component { w.host.1 with components := w.host.1.components.push x } c =
      if c = w.host.1.components.size then x else w.host.1.component c := fun c => getD_push ..
  refine hw.setComponents (by simp) (fun c node => ?_) fun c y a h => ?_
  · by_cases hc : c = w.host.1.components.size
    · refine .inr ⟨fun hlt => absurd hc hlt.ne, ?_⟩
      cases node with
      | none =>
        simp only [Scene.table, hget, if_pos hc]
        exact hscope
      | some n =>
        simp only [Scene.table, Scene.item, hget, if_pos hc]
        exact hitems n
    · left
      cases node <;> simp only [Scene.table, Scene.item, hget, if_neg hc]
  · rw [getD_push] at h
    split at h
    · rw [hmoves] at h
      cases h
    · exact .inl h

theorem setHandles (handles : Array Handle) (hsize : w.host.1.handles.size ≤ handles.size)
    (hcomp : ∀ h < w.host.1.handles.size,
      (handles.getD h default).component = (w.host.1.handle h).component) :
    KindedTale g (w.withHost { w.host.1 with handles }) ∧
      KindedLater g w g (w.withHost { w.host.1 with handles }) := by
  have hlater : w.host.1.Later g { w.host.1 with handles } :=
    ⟨Nat.le_refl _, fun _ _ => rfl, fun _ _ _ h => h, Nat.le_refl _, fun _ _ _ => rfl,
      fun _ _ _ => rfl, hsize, hcomp⟩
  exact hw.withHost (hw.scene.change hlater rfl hw.scene.running (fun _ _ => .inl rfl)
    (fun _ _ _ h => .inl h) (fun _ => .inl rfl) fun _ => .inl rfl) hlater hw.alive

theorem setRepeaters (repeaters : Array (Repeater U))
    (h : ∀ r, repeaters.getD r default = w.host.1.repeater r ∨
      (repeaters.getD r default).Kinded g w.host.1.IsRow) :
    KindedTale g (w.withHost { w.host.1 with repeaters }) ∧
      KindedLater g w g (w.withHost { w.host.1 with repeaters }) := by
  have hlater : w.host.1.Later g { w.host.1 with repeaters } :=
    ⟨Nat.le_refl _, fun _ _ => rfl, fun _ _ _ h => h, Nat.le_refl _, fun _ _ _ => rfl,
      fun _ _ _ => rfl, Nat.le_refl _, fun _ _ => rfl⟩
  exact hw.withHost (hw.scene.change hlater rfl hw.scene.running (fun _ _ => .inl rfl)
    (fun _ _ _ h => .inl h) (fun _ => .inl rfl) h) hlater hw.alive

theorem modifyRepeater (r : RepeaterId) {f : Repeater U → Repeater U}
    (h : (f (w.host.1.repeater r)).Kinded g w.host.1.IsRow) :
    KindedTale g (w.withHost (w.host.1.modifyRepeater r f)) ∧
      KindedLater g w g (w.withHost (w.host.1.modifyRepeater r f)) := by
  refine hw.setRepeaters _ fun q => ?_
  have hget := w.host.1.repeater_modify r q f
  rw [show (w.host.1.repeaters.modify r f).getD q default = _ from hget]
  split
  · rename_i hq
    rw [hq.1]
    exact .inr h
  · exact .inl rfl

theorem pushTransition {cell : CellId} {target : Value} (spec : Spec) (h : FitsAt g cell target) :
    KindedTale g (w.withHost { w.host.1 with
      transitions := w.host.1.transitions.push
        { cell, spec, interpolate := Lerp.value, target } }) ∧
    KindedLater g w g (w.withHost { w.host.1 with
      transitions := w.host.1.transitions.push
        { cell, spec, interpolate := Lerp.value, target } }) ∧
    Moves (w.withHost { w.host.1 with
      transitions := w.host.1.transitions.push
        { cell, spec, interpolate := Lerp.value, target } }) w.host.1.transitions.size cell := by
  set s : Scene U X := { w.host.1 with
    transitions := w.host.1.transitions.push { cell, spec, interpolate := Lerp.value, target } }
  have hget : ∀ a, s.transition a = if a = w.host.1.transitions.size
      then { cell, spec, interpolate := Lerp.value, target } else w.host.1.transition a :=
    fun a => getD_push ..
  have hsize : w.host.1.transitions.size ≤ s.transitions.size := by simp [s]
  have hlater : w.host.1.Later g s := by
    refine ⟨hsize, fun a ha => ?_, fun a ha _ hs => ?_, Nat.le_refl _, fun _ _ _ => rfl,
      fun _ _ _ => rfl, Nat.le_refl _, fun _ _ => rfl⟩
    · rw [hget, if_neg ha.ne]
    · rw [hget, if_neg ha.ne]
      exact hs
  have hmoves : Moves (w.withHost s) w.host.1.transitions.size cell := by
    refine ⟨by simp [World.withHost, s], ?_⟩
    show (s.transition _).cell = cell
    rw [hget, if_pos rfl]
  refine and_assoc.1 ⟨hw.withHost (hw.scene.change hlater rfl
    (fun a ha => (hw.scene.running a ha).trans_le hsize) (fun _ _ => .inl rfl)
    (fun _ _ _ h => .inl h) (fun a => ?_) fun _ => .inl rfl) hlater fun a c hc => ?_, hmoves⟩
  · rw [hget]
    split
    · exact .inr ⟨h.1, rfl, h.2, nofun, nofun, nofun⟩
    · exact .inl rfl
  · rw [hget] at hc
    split at hc
    · cases hc
    · exact hw.alive a c hc

end KindedTale

/-! ## Spots -/

/-- The spot is there and declares `decl`. -/
def Declares (w : Tale (Scene U X) (Code U)) (spot : Spot) (decl : PropDecl) : Prop :=
  spot.component < w.host.1.components.size ∧
    (w.host.1.table spot.component spot.node).decls[spot.slot]? = some decl

theorem KindedLater.declares (h : KindedLater g w g' w')
    (hs : Declares w spot decl) : Declares w' spot decl := by
  refine ⟨hs.1.trans_le h.scene.components, ?_⟩
  rw [h.scene.decls _ hs.1]
  exact hs.2

theorem KindedLater.cellAt (h : KindedLater g w g' w')
    (hs : spot.component < w.host.1.components.size) :
    w'.host.1.cellAt spot = w.host.1.cellAt spot := by
  unfold Scene.cellAt Table.cell?
  rw [h.scene.cells _ hs]

namespace KindedTale

/-- Every spot has a cell of the kind that it declares. A spot that is not there stands for the
clock, which takes anything. -/
theorem kind_cellAt (hw : KindedTale g w) (spot : Spot) : w.host.1.cellAt spot < g.length ∧
      kindAt g (w.host.1.cellAt spot) =
        ((w.host.1.table spot.component spot.node).decls.getD spot.slot default).kind := by
  have htable := hw.scene.tables spot.component spot.node
  set t := w.host.1.table spot.component spot.node with ht
  have hcellAt : w.host.1.cellAt spot = (t.cells[spot.slot]?).getD 0 := rfl
  rw [hcellAt, List.getD_eq_getElem?_getD]
  by_cases hlt : spot.slot < t.cells.length
  · have hdecl := List.getElem?_eq_getElem (htable.length ▸ hlt : spot.slot < t.decls.length)
    have hcell := List.getElem?_eq_getElem hlt
    obtain ⟨hg, hrole⟩ := htable.cells _ _ _ hcell hdecl
    rw [hcell, hdecl]
    exact ⟨hg, congrArg Role.kind hrole⟩
  · have hge := not_lt.1 hlt
    rw [List.getElem?_eq_none hge, List.getElem?_eq_none (htable.length ▸ hge)]
    exact ⟨hw.store.pos, congrArg Role.kind hw.store.roleAt_zero⟩

theorem kind_declared (hw : KindedTale g w) (h : Declares w spot decl) :
    w.host.1.cellAt spot < g.length ∧ kindAt g (w.host.1.cellAt spot) = decl.kind := by
  have hkind := hw.kind_cellAt spot
  rw [List.getD_eq_getElem?_getD, h.2] at hkind
  exact hkind

theorem enter (hw : KindedTale g w) {a : TransitionId}
    (h : Declares w spot decl) (ha : Moves w a (w.host.1.cellAt spot)) :
    Table.Kinded g w.host.1.transitions { w.host.1.table spot.component spot.node with
      transitions := (w.host.1.table spot.component spot.node).transitions ++
        [(spot.slot, a)] } := by
  have htable := hw.scene.tables spot.component spot.node
  set t := w.host.1.table spot.component spot.node
  have hlt : spot.slot < t.cells.length := by
    rw [htable.length]
    exact (List.getElem?_eq_some_iff.1 h.2).1
  have hcell := List.getElem?_eq_getElem hlt
  have hcellAt : w.host.1.cellAt spot = t.cells[spot.slot] := by
    show (t.cells[spot.slot]?).getD 0 = _
    rw [hcell]
    rfl
  refine ⟨htable.length, htable.cells, fun i b hb => ?_⟩
  rcases List.mem_append.1 hb with hb | hb
  · exact htable.moves i b hb
  · cases List.mem_singleton.1 hb
    refine ⟨ha.1, hcell.trans ?_⟩
    rw [← hcellAt, ← ha.2]
    rfl

theorem addMotion (hw : KindedTale g w) {a : TransitionId}
    {cell : CellId} (h : Declares w spot decl) (hcell : w.host.1.cellAt spot = cell)
    (ha : Moves w a cell) : KindedTale g (w.withHost (w.host.1.addMotion spot cell a)) ∧
      KindedLater g w g (w.withHost (w.host.1.addMotion spot cell a)) := by
  unfold Scene.addMotion
  extract_lets s extend
  have hstep : KindedTale g (w.withHost s) ∧ KindedLater g w g (w.withHost s) := by
    refine hw.modifyComponent spot.component (fun _ => rfl) (fun _ => rfl) fun y x b hb => ?_
    rcases List.mem_append.1 hb with hb | hb
    · exact .inl hb
    · cases List.mem_singleton.1 hb
      exact .inr ha
  obtain ⟨hs, hle⟩ := hstep
  have hcell' := (hle.cellAt h.1).trans hcell
  have hkinded := hs.enter (hle.declares h) (hcell'.symm ▸ hle.moves ha)
  have hfinal {t : Scene U X} (ht : KindedTale g ((w.withHost s).withHost t) ∧
      KindedLater g (w.withHost s) g ((w.withHost s).withHost t)) :
      KindedTale g (w.withHost t) ∧ KindedLater g w g (w.withHost t) :=
    ⟨ht.1, kinding_ok.trans hle ht.2⟩
  obtain ⟨c, node, slot⟩ := spot
  cases node with
  | none => exact hfinal (hs.modifyScope c (fun _ => rfl) (fun _ => rfl) hkinded)
  | some n => exact hfinal (hs.modifyItem ⟨c, n⟩ (.inr ⟨rfl, rfl, hkinded⟩))

end KindedTale

/-! ## Building -/

/-- The component is an instance of `d`. -/
def Shaped (d : Definition U) (w : Tale (Scene U X) (Code U)) (c : ComponentId) : Prop :=
  c < w.host.1.components.size ∧ ∀ node, (w.host.1.table c node).decls = d.declsOf node

theorem KindedLater.shaped (h : KindedLater g w g' w') (hc : Shaped d w c) : Shaped d w' c := by
  refine ⟨hc.1.trans_le h.scene.components, fun node => ?_⟩
  rw [h.scene.decls _ hc.1]
  exact hc.2 node

section Building

variable {α : Type} {nested : SceneNested U X} {Q : List Role → SceneTale U X → α → Prop}

theorem kinding_apart {f : Scene U X → α × Scene U X} (h : ∀ s : Scene U X, s.Apart (f s).2)
    (hw : KindedTale g w) : kinding.Keeps nested g w (.host f) :=
  .host hw fun hn =>
    ⟨g, (KindedTale.apart hn (h _)).2, (KindedTale.apart hn (h _)).1, trivial⟩

/-- A change of the scene that has nothing to do with kinds. -/
def Act.ApartOnly (act : SceneM U X α) : Prop :=
  ∃ f : Scene U X → α × Scene U X, act = .host f ∧ ∀ s : Scene U X, s.Apart (f s).2

theorem runs_apartOnly {act : SceneM U X α} (h : act.ApartOnly) (hw : KindedTale g w) :
    kinding.Keeps nested g w act := by
  obtain ⟨f, rfl, hf⟩ := h
  exact kinding_apart hf hw

theorem kinding_idle {act : SceneM U X α} (h : Act.Composed (fun _ _ => False) act)
    (hw : KindedTale g w) : kinding.Keeps nested g w act :=
  .composed (fun _ => trivial) nofun h hw

theorem kinding_createCallback (hw : KindedTale g w) (decl : CallbackDecl) :
    kinding.Keeps nested g w (Callback.create decl) :=
  .seq_ret (kinding_apart (fun _ => ⟨rfl, rfl, rfl, rfl, rfl, rfl⟩) hw)

/-- A table whose cells have the declared roles, whatever the transitions are. -/
def Table.Built (g : List Role) (decls : List PropDecl) (t : Table) : Prop :=
  t.decls = decls ∧ t.Kinded g (#[] : Array (Transition Unit))

theorem Table.Built.kinded {t : Table} (h : t.Built g decls)
    (transitions : Array (Transition U)) : t.Kinded g transitions := by
  obtain ⟨-, hlength, hcells, hmoves⟩ := h
  exact ⟨hlength, hcells, fun i a ha => absurd (hmoves i a ha).1 (Nat.not_lt_zero _)⟩

theorem Table.Built.mono (hg : g <+: g') {t : Table} (h : t.Built g decls) : t.Built g' decls :=
  ⟨h.1, h.2.mono hg (Nat.le_refl _) fun _ _ => rfl⟩

theorem Table.built_nil (g : List Role) : ({} : Table).Built g [] :=
  ⟨rfl, rfl, fun i cell decl h => by simp at h, nofun⟩

theorem kinding_buildTable (hw : KindedTale g w) (owner : String)
    (h : ∀ decl ∈ decls, decl.default.Fits decl.kind) :
    kinding.Runs nested g w (Component.buildTable owner decls) fun g' _ t =>
      t.Built g' decls := by
  have hcells : kinding.Runs nested g w
      (decls.mapM fun d => Act.new s!"{owner}.{d.name}" d.default) fun g' _ cells =>
      List.Forall₂ (fun decl c => c < g'.length ∧ roleAt g' c = .holds decl.kind) decls cells := by
    refine .mapM (fun decl g w g' w' c hle hc => ?_) hw
      fun decl hdecl g' w' _ hw' => kinding_new hw' _ (h decl hdecl)
    have hroles : g <+: g' := hle.roles
    exact ⟨hc.1.trans_le hroles.length_le, (roleAt_extend hroles hc.1).trans hc.2⟩
  refine .seq hcells fun g' w' cells _ hw' hcells => ?_
  refine .ret hw' ⟨rfl, hcells.length_eq.symm, fun i cell decl hcell hdecl => ?_,
    nofun⟩
  exact rel_of_forall₂ hcells hdecl hcell

theorem kinding_buildItem (hw : KindedTale g w) (owner : String) (node : NodeDef) :
    kinding.Runs nested g w (Component.buildItem owner node) fun g' _ it =>
      it.table.Built g' node.kind.layout.props := by
  refine .seq (kinding_buildTable hw _ node.kind.default_fits)
    fun g1 w1 table _ hw1 htable => ?_
  refine .seq (.mapM (fun _ => Regime.stable_true) hw1
    fun decl _ _ _ _ hw' => kinding_createCallback hw' decl) fun g2 w2 callbacks hle2 hw2 _ => ?_
  exact .ret hw2 (htable.mono hle2.roles)

theorem kinding_buildItems (hw : KindedTale g w) (owner : String) (nodes : List NodeDef) :
    kinding.Runs nested g w (nodes.mapM (Component.buildItem owner)) fun g' _ items =>
      List.Forall₂ (fun node it => it.table.Built g' node.kind.layout.props) nodes items :=
  .mapM
    (fun _ _ _ _ _ _ hle h => Table.Built.mono hle.roles h) hw
    fun node _ _ _ _ hw' => kinding_buildItem hw' owner node

/-- The items of an instance declare what the nodes of its definition do. -/
theorem built_declsOf {items : List Item}
    (h : List.Forall₂ (fun node it => it.table.Built g node.kind.layout.props) d.nodes items)
    (n : Nat) : (items.toArray.getD n default).table.Built g (d.declsOf (some n)) := by
  have hlen := h.length_eq
  simp only [Definition.declsOf, Array.getD_eq_getD_getElem?, List.getElem?_toArray]
  by_cases hlt : n < d.nodes.length
  · have hnode := List.getElem?_eq_getElem hlt
    have hitem := List.getElem?_eq_getElem (hlen ▸ hlt : n < items.length)
    rw [hnode, hitem]
    exact rel_of_forall₂ h hnode hitem
  · have hge := not_lt.1 hlt
    rw [List.getElem?_eq_none hge, List.getElem?_eq_none (hlen ▸ hge)]
    exact Table.built_nil g

/-- A property that the definition has is found in its instances. -/
theorem kinding_spotOf (hw : KindedTale g w) (hc : Shaped d w c)
    (h : d.decl? node prop = some decl) :
    kinding.Runs nested g w (Component.spotOf c node prop) fun _ w' spot =>
      spot.component = c ∧ spot.node = node ∧ Declares w' spot decl := by
  rw [d.decl?_eq_find?, ← hc.2 node] at h
  obtain ⟨slot, hslot, hdecl⟩ := index?_of_find? h
  refine .ask hw fun hn => ?_
  dsimp only [Table.slot?]
  rw [hslot]
  exact .ret hn ⟨rfl, rfl, hc.1, hdecl⟩

section Nested

variable (hN : kinding.Obeys nested)
include hN

section

variable (hw : KindedTale g w)
include hw

theorem kinding_create (c : CellId) (spec : Spec) :
    kinding.Runs nested g w (Transition.create c spec Lerp.value) fun _ w' a =>
      Moves w' a c := by
  refine .seq (kinding_peek hN hw c) fun g1 w1 target _ hw1 htarget => ?_
  refine .host hw1 fun hn => ?_
  obtain ⟨hs, hle, hmoves⟩ := KindedTale.pushTransition hn spec htarget
  exact ⟨g1, hle, hs, hmoves⟩

theorem kinding_animate (h : Declares w spot decl) (spec : Spec) :
    kinding.Keeps nested g w (Component.animate spot spec) := by
  refine .ask hw fun hn => .ask hn fun hn => ?_
  split
  · refine .seq (kinding_create hN hn _ spec) fun g1 w1 a hle1 hw1 ha => ?_
    have hle1 : KindedLater g w g1 w1 := ⟨hle1.roles, hle1.kept, hle1.scene⟩
    have h1 := hle1.declares h
    have hcell := hle1.cellAt h.1
    refine .change hw1 fun hn => ?_
    exact KindedTale.addMotion hn h1 hcell ha
  · exact .ret hn trivial

/-- The animated bindings that are left over convert to the kinds of their cells. -/
theorem kinding_attachBindings (hc : Shaped d w c) {binds : List (BindDef U)}
    (h : ∀ b ∈ binds, ∃ decl, d.decl? b.node b.prop = some decl) :
    kinding.Runs nested g w (Component.attachBindings c binds) fun g' w' animated =>
      ∀ x ∈ animated, ∃ cell < g'.length, Moves w' x.1 cell ∧ x.2.Yields (kindAt g' cell) := by
  induction binds generalizing g w with
  | nil => exact .ret hw nofun
  | cons b rest ih =>
    obtain ⟨⟨decl, hdecl⟩, hrest⟩ := List.forall_mem_cons.1 h
    refine .seq (kinding_spotOf hw hc hdecl)
      fun g1 w1 spot hle1 hw1 ⟨hcomp, _, hspot⟩ => ?_
    subst hcomp
    obtain ⟨hlt, hkind⟩ := hw1.kind_declared hspot
    have hmoves := (hw1.scene.tables spot.component spot.node).moves
    refine .ask hw1 fun hn => .view_then hn fun hn => ?_
    refine .seq (kinding_idle (.tieBinding spot.component b.template) hn)
      fun g2 w2 code hle2 hw2 _ => ?_
    have hle2 : KindedLater g1 w1 g2 w2 := ⟨hle2.roles, hle2.kept, hle2.scene⟩
    have hc2 := hle2.shaped (hle1.shaped hc)
    rw [List.getD_eq_getElem?_getD, hspot.2]
    have hkind2 : kindAt g2 (w1.host.1.cellAt spot) = decl.kind :=
      (kindAt_extend hle2.roles hlt).trans hkind
    split
    · rename_i a ha
      have hmove : Moves w2 a (w1.host.1.cellAt spot) := by
        obtain ⟨hlt, hcell⟩ := hmoves _ _ (mem_of_lookup ha)
        refine hle2.moves ⟨hlt, ?_⟩
        show _ = ((w1.host.1.table spot.component spot.node).cells[spot.slot]?).getD 0
        rw [hcell]
        rfl
      refine .seq (ih hw2 hc2 hrest) fun g3 w3 animated hle3 hw3 h3 => ?_
      refine .ret hw3 (List.forall_mem_cons.2 ⟨?_, h3⟩)
      have hlt2 := hlt.trans_le hle2.roles.length_le
      have hroles : g2 <+: g3 := hle3.roles
      refine ⟨_, hlt2.trans_le hroles.length_le, KindedLater.moves hle3 hmove, ?_⟩
      rw [kindAt_extend hroles hlt2, hkind2]
      exact .inr ⟨_, _, rfl⟩
    · refine .seq (kinding_setBinding hN hw2 ?_) fun g3 w3 _ hle3 hw3 _ =>
        ih hw3 (KindedLater.shaped hle3 hc2) hrest
      exact .inr ⟨_, _, by rw [hkind2]; rfl⟩

omit hN in
theorem kinding_attachHandler (c : ComponentId) (h : HandlerDef U) :
    kinding.Keeps nested g w (Component.attachHandler c h) := by
  refine .ask hw fun hn => ?_
  refine .seq (kinding_idle (.tieHandler c h.template) hn)
    fun g1 w1 handler _ hw1 _ => ?_
  split
  · exact kinding_apart (fun _ => ⟨rfl, rfl, rfl, rfl, rfl, rfl⟩) hw1
  · exact .panic hw1 trivial

omit hN in
theorem kinding_addRepeater (host : ItemRef) {sub : Definition U}
    (hmade : sub.Made) (hdeclared : RowDecls sub.declared) (hrowed : sub.Rowed)
    (model : Option (ModelTemplate U)) :
    kinding.Keeps nested g w (Component.addRepeater host sub model) := by
  refine .ask hw fun hn => ?_
  extract_lets add
  have hadd : ∀ {g' w'} expression, KindedTale g' w' →
      kinding.Keeps nested g' w' (add expression) := by
    intro g1 w1 expression hw1
    refine .ask hw1 fun hn => ?_
    refine .seq (kinding_new hn _ (Value.fits_void _))
      fun g2 w2 flag _ hw2 hflag => ?_
    refine .seq (kinding_newTracker (x := .counts) hw2 _ rfl trivial)
      fun g3 w3 tracker hle3 hw3 htracker => ?_
    obtain ⟨rfl, -, rfl, -⟩ := htracker
    have hroles : g2 <+: g2 ++ [.counts] := List.prefix_append ..
    refine .change hw3 fun hn => ?_
    obtain ⟨hs, hle⟩ := KindedTale.modifyItem hn host
      (f := fun it => { it with repeaters := it.repeaters ++ [w1.host.1.repeaters.size] })
        (.inl rfl)
    have hpush := KindedTale.setRepeaters hs (w3.host.1.repeaters.push
      { owner := host.component, host, sub, expression, tracker := g2.length, flag }) fun r => by
        rw [getD_push]
        split
        · refine .inr ⟨⟨hflag.1.trans_le hroles.length_le, ?_⟩, ⟨by simp, fun a => ?_⟩,
            hmade, hdeclared, hrowed, nofun⟩
          · exact (roleAt_extend hroles hflag.1).trans hflag.2
          · rw [roleAt_append]
            nofun
        · exact .inl rfl
    exact ⟨hpush.1, kinding_ok.trans hle hpush.2⟩
  cases model with
  | none => exact .pure_then hn fun hn => hadd none hn
  | some template =>
    refine .seq (P := fun _ _ _ => True) (.seq
      (.composed (fun _ => trivial) runs_apartOnly
      (Act.Composed.tieModel (fun _ => ⟨_, rfl, fun _ => ⟨rfl, rfl, rfl, rfl, rfl, rfl⟩⟩)
        host.component template) hn) fun _ _ _ _ hw' _ =>
      .ret hw' trivial) fun _ _ expression _ hw' _ => hadd expression hw'

theorem kinding_setSpot (hc : Shaped d w c)
    (h : d.decl? node prop = some decl) {v : Value} (hv : v.Fits decl.kind) :
    kinding.Keeps nested g w (do
      let spot ← Component.spotOf c node prop
      .set (← Act.ask fun s => s.cellAt spot) v) := by
  refine .seq (kinding_spotOf hw hc h) fun g1 w1 spot _ hw1 hspot => ?_
  obtain ⟨hlt, hkind⟩ := hw1.kind_declared hspot.2.2
  refine .ask hw1 fun hn => kinding_set hN hn ⟨hlt, ?_⟩
  rw [hkind]
  exact hv

theorem kinding_linkSpots
    (hc : Shaped d w c) {other : Option Nat} {otherProp : String} {a b : PropDecl}
    (ha : d.decl? node prop = some a) (hb : d.decl? other otherProp = some b)
    (hkind : a.kind = b.kind) : kinding.Keeps nested g w (do
      let a ← Component.spotOf c node prop
      let b ← Component.spotOf c other otherProp
      let (a, b) ← Act.ask fun s => (s.cellAt a, s.cellAt b)
      discard <| Act.link a b) := by
  refine .seq (kinding_spotOf hw hc ha) fun g1 w1 x hle1 hw1 hx => ?_
  refine .seq (kinding_spotOf hw1 (KindedLater.shaped hle1 hc) hb)
    fun g2 w2 y hle2 hw2 hy => ?_
  obtain ⟨hlt, hk⟩ := hw2.kind_declared (KindedLater.declares hle2 hx.2.2)
  obtain ⟨hlt', hk'⟩ := hw2.kind_declared hy.2.2
  refine .ask hw2 fun hn => ?_
  exact .seq_ret (kinding_link hN hn hlt hlt' (hk.trans (hkind.trans hk'.symm)))

theorem kinding_build (hmade : d.Made) (hrowed : d.Rowed)
    (host : Option ItemRef) (source : Option Nat) :
    kinding.Runs nested g w (Component.build d host source) fun _ w' c =>
      c < w'.host.1.components.size ∧ (w'.host.1.component c).scope.decls = d.declared := by
  have hd := hmade.consistent
  refine .seq (kinding_apart (fun s => ?_) hw)
    fun g1 w1 window _ hw1 _ => ?_
  · split <;> exact ⟨rfl, rfl, rfl, rfl, rfl, rfl⟩
  refine .seq (kinding_buildItems hw1 d.name d.nodes)
    fun g2 w2 items _ hw2 hitems => ?_
  refine .seq (kinding_buildTable hw2 d.name hd.declared)
    fun g3 w3 scope hle3 hw3 hscope => ?_
  refine .seq (.mapM (fun _ => Regime.stable_true) hw3
    fun decl _ _ _ _ hw' => kinding_createCallback hw' decl) fun g4 w4 callbacks hle4 hw4 _ => ?_
  have hscope := hscope.mono hle4.roles
  have hbuilt (n : Nat) : (items.toArray.getD n default).table.Built g4 (d.declsOf (some n)) :=
    (built_declsOf hitems n).mono (hle3.roles.trans hle4.roles)
  refine .host_then hw4 g4 (fun hn => KindedTale.pushComponent hn
    (hscope.kinded _) (fun n => (hbuilt n).kinded _) rfl) fun hw5 => ?_
  generalize hw5eq : w4.beat.withHost _ = w5 at hw5 ⊢
  have hc : Shaped d w5 w4.host.1.components.size := by
    subst hw5eq
    refine ⟨by simp [World.withHost], fun node => ?_⟩
    cases node with
    | none =>
      simp only [World.withHost, Scene.table, Scene.component, getD_push, if_true]
      exact hscope.1
    | some n =>
      simp only [World.withHost, Scene.table, Scene.item, Scene.component, getD_push, if_true]
      exact (hbuilt n).1
  generalize w4.host.1.components.size = c at hc ⊢
  -- what is attached to the new cells was found by name in the declarations
  refine .seq (.forM hw5 fun x hx g' w' hle hw' => ?_)
    fun g6 w6 _ hle6 hw6 _ => ?_
  · obtain ⟨decl, hdecl, hv⟩ := hd.sets x hx
    exact kinding_setSpot hN hw' (KindedLater.shaped hle hc) hdecl hv
  have hc := KindedLater.shaped hle6 hc
  refine .seq (.forM hw6 fun x hx g' w' hle hw' => ?_)
    fun g7 w7 _ hle7 hw7 _ => ?_
  · obtain ⟨decl, hdecl⟩ := hd.anims x hx
    exact .seq (kinding_spotOf hw' (KindedLater.shaped hle hc) hdecl)
      fun _ _ spot _ hw'' hspot => kinding_animate hN hw'' hspot.2.2 x.spec
  have hc := KindedLater.shaped hle7 hc
  refine .seq (.forM hw7 fun l hl g' w' hle hw' => ?_)
    fun g8 w8 _ hle8 hw8 _ => ?_
  · obtain ⟨a, b, ha, hb, hkind⟩ := hd.links l hl
    exact kinding_linkSpots hN hw' (KindedLater.shaped hle hc) ha hb hkind
  have hc := KindedLater.shaped hle8 hc
  refine .seq (kinding_attachBindings hN hw8 hc hd.binds)
    fun g9 w9 animated hle9 hw9 hanimated => ?_
  have hc := KindedLater.shaped hle9 hc
  refine .seq (.forM hw9 fun x hx g' w' hle hw' => ?_)
    fun g10 w10 _ hle10 hw10 _ => ?_
  · obtain ⟨cell, hlt, hmoves, hyields⟩ := hanimated x hx
    refine kinding_setTransitionBinding hN hw' (KindedLater.moves hle hmoves) ?_
    rw [kindAt_extend hle.roles hlt]
    exact hyields
  have hc := KindedLater.shaped hle10 hc
  refine .seq (.forM hw10 fun h _ g' w' _ hw' =>
    kinding_attachHandler hw' c h) fun g11 w11 _ hle11 hw11 _ => ?_
  have hc := KindedLater.shaped hle11 hc
  refine .seq (.forM hw11 fun x hx g' w' _ hw' => ?_)
    fun g12 w12 _ hle12 hw12 _ => ?_
  · obtain ⟨hrow, hrowed'⟩ := hrowed.rows x hx
    exact kinding_addRepeater hw' ⟨c, x.1⟩ (hd.repeats x hx).2 hrow hrowed' x.2.2
  have hc := KindedLater.shaped hle12 hc
  exact .ret hw12 ⟨hc.1, hc.2 none⟩

end

end Nested

end Building

end ReactiveTree
