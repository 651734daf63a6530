import ReactiveTree.Proofs.Scene.Teardown

/-!
# The plan of a scene

The plan of a scene are its instances with the definitions and the tables they were built from, and
which of them ever had a handle. Only building an instance and taking a first handle to it change
the plan; most of the rest does not even touch the instances (`Scene.Tweaks`). `Scene.Laid` says
how a plan is laid out: every table has one cell for each declaration, and no cell is in two places.
-/

namespace ReactiveTree

open Store

variable {α U X : Type}

/-- The second scene has the same instances, with the same tables. -/
structure Scene.SameTables (s t : Scene U X) : Prop where
  size : t.components.size = s.components.size
  definition : ∀ c, (t.component c).definition = (s.component c).definition
  decls : ∀ c node, (t.table c node).decls = (s.table c node).decls
  cells : ∀ c node, (t.table c node).cells = (s.table c node).cells
  outline : ∀ c, (t.component c).outlineOf = (s.component c).outlineOf
  sub : ∀ r, (t.repeater r).sub = (s.repeater r).sub

/-- In addition no more of them ever had a handle. -/
structure Scene.SamePlan (s t : Scene U X) : Prop extends s.SameTables t where
  handed : ∀ {c}, t.Handed c → s.Handed c

namespace Scene.SamePlan

variable {s t u : Scene U X}

theorem trans (h : s.SamePlan t) (h' : t.SamePlan u) : s.SamePlan u where
  size := h'.size.trans h.size
  definition c := (h'.definition c).trans (h.definition c)
  decls c node := (h'.decls c node).trans (h.decls c node)
  cells c node := (h'.cells c node).trans (h.cells c node)
  outline c := (h'.outline c).trans (h.outline c)
  sub r := (h'.sub r).trans (h.sub r)
  handed hc := h.handed (h'.handed hc)

theorem of_eq (hc : t.components = s.components) (hh : t.handles = s.handles)
    (hsub : ∀ r, (t.repeater r).sub = (s.repeater r).sub) :
    s.SamePlan t := by
  have hcomponent (c : ComponentId) : t.component c = s.component c := by
    rw [component, component, hc]
  have htable (c : ComponentId) (node : Option Nat) : t.table c node = s.table c node := by
    rw [table_eq, table_eq, hcomponent]
  refine ⟨⟨by rw [hc], fun c => by rw [hcomponent], fun c node => by rw [htable],
    fun c node => by rw [htable], fun c => by rw [hcomponent], hsub⟩, ?_⟩
  rintro c ⟨h, hlt, hcomp⟩
  refine ⟨h, hh ▸ hlt, ?_⟩
  rw [handle, ← hh]
  exact hcomp

theorem refl (s : Scene U X) : s.SamePlan s := of_eq rfl rfl fun _ => rfl

/-- A change of an instance that keeps its definition, its names and its tables, apart from their
transitions. -/
theorem modifyComponent (s : Scene U X) (c : ComponentId) {f : Component U → Component U}
    (hdefinition : ∀ x, (f x).definition = x.definition)
    (htables : ∀ x node, ((f x).tableOf node).decls = (x.tableOf node).decls ∧
      ((f x).tableOf node).cells = (x.tableOf node).cells)
    (houtline : ∀ x, (f x).outlineOf = x.outlineOf) :
    s.SamePlan (s.modifyComponent c f) := by
  refine ⟨⟨Array.size_modify, fun e => ?_, fun e node => ?_, fun e node => ?_, fun e => ?_,
    fun _ => rfl⟩, fun h => h⟩
  · rw [component_modify]
    split
    · exact hdefinition _
    · rfl
  · rw [table_eq, table_eq, component_modify]
    split
    · exact (htables _ node).1
    · rfl
  · rw [table_eq, table_eq, component_modify]
    split
    · exact (htables _ node).2
    · rfl
  · rw [component_modify]
    split
    · exact houtline _
    · rfl

/-- A change of an item that keeps its names and its table, apart from its transitions. -/
theorem modifyItem (s : Scene U X) (it : ItemRef) {f : Item → Item}
    (htable : ∀ x, (f x).table.decls = x.table.decls ∧ (f x).table.cells = x.table.cells)
    (hnames : ∀ x, (f x).id = x.id ∧ (f x).callbacks = x.callbacks) :
    s.SamePlan (s.modifyItem it f) := by
  refine modifyComponent s it.component (fun _ => rfl) (fun x node => ?_) fun x => ?_
  · cases node with
    | none => exact ⟨rfl, rfl⟩
    | some n =>
      show ((x.items.modify it.index f).getD n default).table.decls = _ ∧
        ((x.items.modify it.index f).getD n default).table.cells = _
      rw [getD_modify]
      split
      · exact htable _
      · exact ⟨rfl, rfl⟩
  · funext node
    cases node with
    | none => rfl
    | some n =>
      show (((x.items.modify it.index f).getD n default).id,
        ((x.items.modify it.index f).getD n default).callbacks.map _) = _
      rw [getD_modify]
      split
      · rw [(hnames _).1, (hnames _).2]
        rfl
      · rfl

theorem freeHandle (s : Scene U X) (h : HandleId) (c : ComponentId) {f : Component U → Component U}
    (hf : ∀ x, f x = { x with refs := (f x).refs }) :
    s.SamePlan { s.modifyComponent c f with
      handles := s.handles.modify h fun x => { x with released := true } } := by
  have hsame : s.SamePlan (s.modifyComponent c f) := by
    refine modifyComponent s c (fun x => ?_) (fun x node => ?_) fun x => ?_
    · rw [hf]
    · rw [hf]
      cases node <;> exact ⟨rfl, rfl⟩
    · rw [hf]
      rfl
  refine ⟨⟨hsame.size, hsame.definition, hsame.decls, hsame.cells, hsame.outline, fun _ => rfl⟩, ?_⟩
  rintro e ⟨k, hk, hcomp⟩
  refine ⟨k, Nat.lt_of_lt_of_eq hk Array.size_modify, ?_⟩
  have hcomp : ((s.handles.modify h fun x => { x with released := true }).getD k default).component
    = e := hcomp
  rw [getD_modify] at hcomp
  split at hcomp
  · exact hcomp
  · exact hcomp

theorem addMotion (s : Scene U X) (spot : Spot) (cell : CellId) (a : TransitionId) :
    s.SamePlan (s.addMotion spot cell a) := by
  obtain ⟨c, node, slot⟩ := spot
  have hfirst : s.SamePlan (s.modifyComponent c fun x =>
      { x with transitions := x.transitions ++ [(cell, a)] }) :=
    modifyComponent s c (fun _ => rfl)
      (fun x node => by cases node <;> exact ⟨rfl, rfl⟩) fun _ => rfl
  cases node with
  | none =>
    refine hfirst.trans (modifyComponent _ c (fun _ => rfl) (fun x node => ?_) fun _ => rfl)
    cases node <;> exact ⟨rfl, rfl⟩
  | some n => exact hfirst.trans (modifyItem _ ⟨c, n⟩ (fun _ => ⟨rfl, rfl⟩) fun _ => ⟨rfl, rfl⟩)

end Scene.SamePlan

/-! ## Changes beside the instances -/

/-- A repeater as it was made: all that an update of it leaves alone. -/
structure Repeater.Framed (x y : Repeater U) : Prop where
  owner : y.owner = x.owner
  host : y.host = x.host
  sub : y.sub = x.sub
  expression : y.expression = x.expression
  tracker : y.tracker = x.tracker
  flag : y.flag = x.flag

/-- A change beside the instances, the windows and the handles. Transitions and repeaters stay
where they are, and neither a transition nor a signal gets code that it did not have. -/
structure Scene.Tweaks (s t : Scene U X) : Prop where
  components : t.components = s.components
  windows : t.windows = s.windows
  handles : t.handles = s.handles
  clock : t.clock.cell = s.clock.cell
  cell : ∀ a, (t.transition a).cell = (s.transition a).cell
  binding :
      ∀ a, (t.transition a).binding = none ∨ (t.transition a).binding = (s.transition a).binding
  repeater : ∀ r, (s.repeater r).Framed (t.repeater r)
  handler : ∀ i, (t.signal i).handler = none ∨ (t.signal i).handler = (s.signal i).handler

namespace Scene.Tweaks

variable {s t : Scene U X}

/-- A change of the clock, of models and of what user code keeps. -/
theorem aside (s : Scene U X) (running : List TransitionId) (ticking : Bool)
    (vectors : Array VectorModel) (peers : Array (UserPeer U)) (user : X) :
    s.Tweaks { s with clock := { s.clock with running, ticking }, vectors, peers, user } :=
  ⟨rfl, rfl, rfl, rfl, fun _ => rfl, fun _ => .inr rfl, fun _ => ⟨rfl, rfl, rfl, rfl, rfl, rfl⟩,
    fun _ => .inr rfl⟩

theorem refl (s : Scene U X) : s.Tweaks s := aside s ..

theorem modifyTransition (s : Scene U X) (a : TransitionId) {f : Transition U → Transition U}
    (running : List TransitionId) (hcell : ∀ x, (f x).cell = x.cell)
    (hbinding : ∀ x, (f x).binding = none ∨ (f x).binding = x.binding) :
    s.Tweaks { s.modifyTransition a f with clock := { s.clock with running } } := by
  refine { refl s with cell := fun b => ?_, binding := fun b => ?_ }
  · show ((s.modifyTransition a f).transition b).cell = _
    rw [transition_modify]
    split
    · exact hcell _
    · rfl
  · show ((s.modifyTransition a f).transition b).binding = _ ∨
      ((s.modifyTransition a f).transition b).binding = _
    rw [transition_modify]
    split
    · exact hbinding _
    · exact .inr rfl

theorem modifyRepeater (s : Scene U X) (r : RepeaterId) {f : Repeater U → Repeater U}
    (hf : ∀ x, Repeater.Framed x (f x)) : s.Tweaks (s.modifyRepeater r f) := by
  refine { refl s with repeater := fun q => ?_ }
  rw [repeater_modify]
  split
  · exact hf _
  · exact ⟨rfl, rfl, rfl, rfl, rfl, rfl⟩

theorem of_signals (s : Scene U X) {signals : Array (Signal U)}
    (h : ∀ i, (signals.getD i default).handler = none ∨
      (signals.getD i default).handler = (s.signal i).handler) :
    s.Tweaks { s with signals } := { refl s with handler := h }

theorem samePlan (h : s.Tweaks t) : s.SamePlan t :=
  .of_eq h.components h.handles fun r => (h.repeater r).sub

end Scene.Tweaks

/-! ## The layout of a plan -/

/-- Every instance has the tables of its definition, whose cells are in no other place. -/
structure Scene.Laid (store : Store (Code U)) (s : Scene U X) : Prop where
  made : ∀ c, (s.component c).definition.Made
  sub : ∀ r, (s.repeater r).sub.Made
  decls : ∀ c node, (s.table c node).decls = (s.component c).definition.declsOf node
  outline : ∀ c, (s.component c).outlineOf = (s.component c).definition.outlineOf
  lengths : ∀ c node, (s.table c node).cells.length = (s.table c node).decls.length
  property : ∀ {c node x}, x ∈ (s.table c node).cells → store.IsProperty x
  place : ∀ {c node d mode} {i j : Nat} {x : CellId}, (s.table c node).cells[i]? = some x →
    (s.table d mode).cells[j]? = some x → c = d ∧ node = mode ∧ i = j
  handed : ∀ {c}, s.Handed c → c < s.components.size

namespace Scene.Laid

variable {store store' : Store (Code U)} {s t : Scene U X}

theorem sameTables (h : s.Laid store) (hst : s.SameTables t)
    (hhanded : ∀ {c}, t.Handed c → c < s.components.size) : t.Laid store where
  made c := hst.definition c ▸ h.made c
  sub r := hst.sub r ▸ h.sub r
  decls c node := by rw [hst.decls, hst.definition, h.decls]
  outline c := by rw [hst.outline, hst.definition, h.outline]
  lengths c node := by rw [hst.cells, hst.decls, h.lengths]
  property hx := h.property (hst.cells _ _ ▸ hx)
  place hi hj := h.place (hst.cells _ _ ▸ hi) (hst.cells _ _ ▸ hj)
  handed hc := hst.size ▸ hhanded hc

theorem kept (h : s.Laid store) (hk : Kept store store') : s.Laid store' :=
  { h with property := fun hx => (h.property hx).kept hk }

theorem start (user : X) (store : Store (Code U)) : Scene.Laid store ({ user } : Scene U X) where
  made _ := .new ""
  sub _ := .new ""
  decls _ node := by cases node <;> rfl
  outline _ := by funext node; cases node <;> rfl
  lengths _ node := by cases node <;> rfl
  property {_ node _} hx := by cases node <;> cases hx
  place {_ node _ _ _ _ _} hi := by cases node <;> cases hi
  handed := by
    rintro c ⟨h, hlt, -⟩
    cases hlt

/-- A new instance whose cells are nobody else's. -/
theorem push (h : s.Laid store) {x : Component U} (hmade : x.definition.Made)
    (hdecls : ∀ node, (x.tableOf node).decls = x.definition.declsOf node)
    (houtline : x.outlineOf = x.definition.outlineOf)
    (hlengths : ∀ node, (x.tableOf node).cells.length = (x.tableOf node).decls.length)
    (hcells : ∀ node, ∀ y ∈ (x.tableOf node).cells, store.IsProperty y ∧
      ∀ c mode, y ∉ (s.table c mode).cells)
    (hplace : ∀ {node mode} {i j : Nat} {y : CellId}, (x.tableOf node).cells[i]? = some y →
      (x.tableOf mode).cells[j]? = some y → node = mode ∧ i = j) : (s.pushComponent x).Laid
        store where
  made c := by
    rw [component_push]
    split
    · exact hmade
    · exact h.made c
  sub := h.sub
  decls c node := by
    rw [table_push, component_push]
    split
    · exact hdecls node
    · exact h.decls c node
  outline c := by
    rw [component_push]
    split
    · exact houtline
    · exact h.outline c
  lengths c node := by
    rw [table_push]
    split
    · exact hlengths node
    · exact h.lengths c node
  property {c node y} hy := by
    rw [table_push] at hy
    split at hy
    · exact (hcells node y hy).1
    · exact h.property hy
  place {c node d mode i j y} hi hj := by
    rw [table_push] at hi hj
    split at hi
    · rename_i hc
      split at hj
      · rename_i hd
        obtain ⟨rfl, rfl⟩ := hplace hi hj
        exact ⟨hc.trans hd.symm, rfl, rfl⟩
      · exact absurd (List.mem_of_getElem? hj) ((hcells node y (List.mem_of_getElem? hi)).2 _ _)
    · split at hj
      · exact absurd (List.mem_of_getElem? hi) ((hcells mode y (List.mem_of_getElem? hj)).2 _ _)
      · exact h.place hi hj
  handed hc := (h.handed hc).trans_le (by simp [pushComponent])

theorem pushRepeater (h : s.Laid store) {x : Repeater U} (hsub : x.sub.Made) :
    Scene.Laid store { s with repeaters := s.repeaters.push x } := by
  refine ⟨h.made, fun r => ?_, h.decls, h.outline, h.lengths, h.property, h.place, h.handed⟩
  show ((s.repeaters.push x).getD r default).sub.Made
  rw [getD_push]
  split
  · exact hsub
  · exact h.sub r

end Scene.Laid

namespace Act.Composed

variable {prim : ⦃α : Type⦄ → SceneM U X α → Prop}

section

variable
  (hhost : ∀ {α : Type} (f : Scene U X → α × Scene U X),
    (∀ s : Scene U X, s.Tweaks (f s).2) → prim (.host f))

include hhost

/-- A change of the host beside the instances. -/
theorem change {f : Scene U X → Scene U X} (h : ∀ s : Scene U X, s.Tweaks (f s)) :
    Composed prim (Act.change f) := .prim (hhost _ h)

theorem modifyTransition (a : TransitionId) {f : Transition U → Transition U}
    (hf : ∀ x, (f x).cell = x.cell ∧ ((f x).binding = none ∨ (f x).binding = x.binding)) :
    Composed prim (Transition.modify a f) :=
  change hhost fun s =>
    .modifyTransition s a s.clock.running (fun x => (hf x).1) fun x => (hf x).2

theorem modifyRepeater (r : RepeaterId) {f : Repeater U → Repeater U}
    (hf : ∀ x, Repeater.Framed x (f x)) :
    Composed prim (Repeater.modify r f) :=
  change hhost fun s => .modifyRepeater s r hf

theorem schedule (a : TransitionId) : Composed prim (Transition.schedule a) := by
  refine change hhost fun s => ?_
  split
  · exact .refl s
  · exact .modifyTransition s a _ (fun _ => rfl) fun _ => .inr rfl

theorem retarget (a : TransitionId) : Composed prim (Transition.retarget a) :=
  .bind (modifyTransition hhost a fun _ => ⟨rfl, .inr rfl⟩) fun _ => schedule hhost a

theorem attachModel (m : Model) (p : Peer) : Composed prim (m.attach p) := by
  cases m with
  | vector m =>
    refine attach (fun f hf => hhost f fun s => ?_) m p
    obtain ⟨vectors, h⟩ := hf s
    rw [h]
    exact .aside s ..
  | count n => exact .pure _
  | cyclic n vs => exact .pure _

/-! ## Transitions -/

section

variable (hdrop : ∀ c, prim (.drop c))
include hdrop

theorem clearBinding (a : TransitionId) : Composed prim (Transition.clearBinding a) := by
  have hclear : Composed prim (Transition.modify a fun t =>
      { t with tracker := none, binding := none, bindingChanged := false }) :=
    modifyTransition hhost a fun _ => ⟨rfl, .inl rfl⟩
  refine .asks fun tracker => ?_
  cases tracker with
  | none => exact hclear
  | some t => exact .bind (.prim (hdrop t)) fun _ => hclear

theorem stop (a : TransitionId) : Composed prim (Transition.stop a) :=
  .bind (clearBinding hhost hdrop a) fun _ => modifyTransition hhost a fun _ => ⟨rfl, .inr rfl⟩

theorem setTransition (hanimateTo : ∀ a v, Composed prim (Transition.animateTo a v))
    (a : TransitionId) (v : Value) : Composed prim (Transition.set a v) :=
  .asks fun _ => .ite (.bind (clearBinding hhost hdrop a) fun _ => hanimateTo a v)
    (hanimateTo a v)

end

section

variable (hget : ∀ c, prim (.get c)) (hset : ∀ c v, prim (.set c v))

include hget hset in
theorem animateTo (a : TransitionId) (v : Value) : Composed prim (Transition.animateTo a v) := by
  refine .asks fun cell => .bind (.view _) fun dropped => .ite (.pure _) ?_
  refine .bind (modifyTransition hhost a fun _ => ⟨rfl, .inr rfl⟩) fun _ => .bind
    (peek (hget cell)) fun current =>
    .asks fun t => .ite (.pure _) (.ite ?_ ?_)
  · exact .bind (modifyTransition hhost a fun _ => ⟨rfl, .inr rfl⟩) fun _ => .prim (hset cell v)
  · exact .bind (modifyTransition hhost a fun _ => ⟨rfl, .inr rfl⟩) fun _ => .asks fun clock =>
      .bind (peek (hget clock)) fun started =>
        .bind (modifyTransition hhost a fun _ => ⟨rfl, .inr rfl⟩) fun _ => schedule hhost a

variable (htrack : ∀ {α : Type} (t : CellId) (code : Code U α), prim (.track t (.perform code)))

omit hhost in
include htrack in
theorem evaluateBinding (a : TransitionId) : Composed prim (Transition.evaluateBinding a) := by
  refine .asks fun t => ?_
  split
  · refine .bind (.prim (htrack ..)) fun result => ?_
    cases result with
    | done v => exact .pure _
    | skipped => exact .pure _
    | failed e => exact .bind (.view _) fun name => .bind (log _) fun _ => .pure _
  · exact .pure _

include hget hset htrack

theorem step (a : TransitionId) (now : Int64) : Composed prim (Transition.step a now) := by
  unfold Transition.step
  extract_lets
  refine .asks fun changed => ?_
  have hmove : Composed prim (do
      let t ← Transition.read a id
      if !t.running then return true
      let elapsed := now - t.started - t.spec.delay
      if elapsed < 0 then return false
      if t.spec.duration ≤ elapsed then
        Transition.modify a fun t => { t with running := false }
        Act.set t.cell t.target
        return true
      let progress := Number.ofInt64 elapsed / Number.ofInt64 t.spec.duration
      Act.set t.cell (t.interpolate t.source t.target (t.spec.easing progress))
      return false : SceneM U X Bool) := by
    refine .asks fun t => .ite (.pure _) (.ite (.pure _) (.ite ?_ ?_))
    · exact .bind (modifyTransition hhost a fun _ => ⟨rfl, .inr rfl⟩) fun _ =>
        .bind (.prim (hset ..)) fun _ => .pure _
    · exact .bind (.prim (hset ..)) fun _ => .pure _
  refine .ite (.bind (modifyTransition hhost a fun _ => ⟨rfl, .inr rfl⟩) fun _ =>
    .bind (evaluateBinding htrack a) fun v => ?_) hmove
  cases v with
  | none => exact hmove
  | some v => exact .bind (animateTo hhost hget hset a v) fun _ => hmove

end

/-- A write to a property, which may start a transition. -/
theorem write (hget : ∀ c, prim (.get c)) (hset : ∀ c v, prim (.set c v))
    (hdrop : ∀ c, prim (.drop c)) (spot : Spot) (v : Value) :
    Composed prim (Component.write spot v) := by
  refine .asks fun place => ?_
  dsimp only
  split
  · exact .bind (.view _) fun name => .pure _
  · refine .bind (.view _) fun root => .asks fun a => ?_
    cases a with
    | none => exact .bind (.prim (hset ..)) fun _ => .pure _
    | some a =>
      exact .bind (setTransition hhost hdrop (animateTo hhost hget hset) a _) fun _ => .pure _

/-! ## Building -/

omit hhost in
theorem buildTable (hnew : ∀ name v, prim (.new name v)) (owner : String) (decls : List PropDecl) :
    Composed prim (Component.buildTable owner decls) :=
  .bind (mapM fun _ _ => .prim (hnew ..)) fun _ => .pure _

theorem createCallback (decl : CallbackDecl) : Composed prim (Callback.create decl) := by
  refine .bind (.prim (hhost _ fun s => .of_signals s fun i => ?_)) fun _ => .pure _
  rw [getD_push]
  split
  · exact .inl rfl
  · exact .inr rfl

theorem buildItem (hnew : ∀ name v, prim (.new name v)) (owner : String) (node : NodeDef) :
    Composed prim (Component.buildItem owner node) :=
  .bind (buildTable hnew ..) fun _ => .bind (mapM fun decl _ => createCallback hhost decl) fun _ =>
    .pure _

omit hhost in
theorem spotOf (c : ComponentId) (node : Option Nat) (prop : String) :
    Composed prim (Component.spotOf c node prop) := by
  refine .asks fun slot => ?_
  cases slot with
  | some slot => exact .pure _
  | none => exact .asks fun _ => .panic _

/-! ## The end of instances -/

section

variable (hdrop : ∀ c, prim (.drop c))

include hdrop in
theorem dropTable (t : Table) : Composed prim (Component.dropTable t) := by
  refine .bind (forM fun i _ => ?_) fun _ => forM fun x _ => .prim (hdrop x)
  cases t.transition? i with
  | none => exact .pure _
  | some a => exact stop hhost hdrop a

theorem clearHandlers (callbacks : List Callback) :
    Composed prim (Component.clearHandlers callbacks) := by
  refine change hhost fun s => ?_
  obtain ⟨signals, heq, -, hhandler, -⟩ := s.clearHandlers_eq callbacks
  rw [heq]
  exact .of_signals s hhandler

variable {destroy : ComponentId → SceneM U X Unit} (hdestroy : ∀ c, Composed prim (destroy c))
  (hfree : ∀ h c, prim (Act.change fun s : Scene U X =>
    { s.modifyComponent c fun x => { x with refs := x.refs - 1 } with
      handles := s.handles.modify h fun x => { x with released := true } }))
include hdestroy hfree

omit hhost in
theorem releaseWith (h : HandleId) : Composed prim (Component.releaseWith destroy h) := by
  refine .asks fun handle => .ite (.pure _) (.bind (.prim (hfree h _)) fun _ => ?_)
  exact .asks fun refs => .ite (hdestroy _) (.pure _)

include hdrop

theorem endRepeater (r : RepeaterId) : Composed prim (Component.endRepeater destroy r) := by
  refine .asks fun repeater => .ite (.pure _) ?_
  refine .bind (forM fun h _ => releaseWith hdestroy hfree h) fun _ => ?_
  refine .bind (modifyRepeater hhost r fun _ => ⟨rfl, rfl, rfl, rfl, rfl, rfl⟩) fun _ => ?_
  exact .bind (.prim (hdrop _)) fun _ => .bind (.prim (hdrop _)) fun _ =>
    modifyRepeater hhost r fun _ => ⟨rfl, rfl, rfl, rfl, rfl, rfl⟩

theorem endItem (it : Item) : Composed prim (Component.endItem destroy it) :=
  .bind (forM fun r _ => endRepeater hhost hdrop hdestroy hfree r) fun _ =>
    .bind (clearHandlers hhost _) fun _ => dropTable hhost hdrop _

end

/-! ## Repeaters -/

omit hhost in
theorem markStale (hset : ∀ c v, prim (.set c v)) (r : RepeaterId) :
    Composed prim (Repeater.markStale r) :=
  .asks fun _ => .ite (.pure _) (.prim (hset ..))

omit hhost in
theorem evaluateModel
    (htrack : ∀ {α : Type} (t : CellId) (code : Code U α), prim (.track t (.perform code)))
    (r : RepeaterId) : Composed prim (Repeater.evaluateModel r) := by
  refine .asks fun _ => ?_
  split
  · exact .pure _
  · refine .bind (.prim (htrack ..)) fun result => ?_
    cases result with
    | done m => exact .pure _
    | skipped => exact .pure _
    | failed e => exact .asks fun id => .bind (log _) fun _ => .ask _

theorem refreshModel (hmodel : ∀ r, Composed prim (Repeater.evaluateModel r)) (r : RepeaterId) :
    Composed prim (Repeater.refreshModel r) := by
  refine .asks fun tracker => .bind (.view _) fun stale => .ite ?_ (.pure _)
  refine .bind (hmodel r) fun m => .asks fun old => .ite (.pure _) ?_
  refine .bind (modifyRepeater hhost r fun _ => ⟨rfl, rfl, rfl, rfl, rfl, rfl⟩) fun _ => ?_
  cases m with
  | none => exact modifyRepeater hhost r fun _ => ⟨rfl, rfl, rfl, rfl, rfl, rfl⟩
  | some m => exact .bind (attachModel hhost m _) fun _ =>
    modifyRepeater hhost r fun _ => ⟨rfl, rfl, rfl, rfl, rfl, rfl⟩

theorem shrink (hrelease : ∀ h, Composed prim (Component.release h)) (r : RepeaterId) (n : Nat) :
    Composed prim (Repeater.shrink r n) :=
  .asks fun _ => .ite (.bind (forM fun h _ => hrelease h) fun _ =>
    modifyRepeater hhost r fun _ => ⟨rfl, rfl, rfl, rfl, rfl, rfl⟩) (.pure _)

omit hhost in
theorem rowCell (c : ComponentId) (name : String) : Composed prim (Repeater.rowCell c name) := by
  refine .asks fun component => ?_
  split
  · exact .pure _
  · exact .panic _

theorem refreshRow (hset : ∀ c v, prim (.set c v)) (r : RepeaterId) (i : Nat) :
    Composed prim (Repeater.refreshRow r i) := by
  refine .asks fun repeater => ?_
  split
  · exact .panic _
  · rename_i h _
    have hindex (c : ComponentId) : Composed prim (do
        Act.set (← Repeater.rowCell c "index") (.int (Int64.ofNat i))
        let n ← Repeater.read r (·.staleRows.size)
        if i < n then
          Repeater.modify r fun x =>
            { x with staleRows := x.staleRows.change (·.setIfInBounds i false) }
        else SceneM.outOfRange i n : SceneM U X Unit) :=
      .bind (rowCell c _) fun cell => .bind (.prim (hset cell _)) fun _ => .asks fun n =>
        .ite (modifyRepeater hhost r fun _ => ⟨rfl, rfl, rfl, rfl, rfl, rfl⟩) (.panic _)
    refine .asks fun c => .bind (rowCell c _) fun data => ?_
    split
    · exact .bind (.panic _) fun _ => hindex c
    · exact .asks fun v => .bind (.prim (hset data v)) fun _ => hindex c

omit hhost in
theorem refreshRows (hrow : ∀ r i, Composed prim (Repeater.refreshRow r i)) (r : RepeaterId) :
    Composed prim (Repeater.refreshRows r) :=
  .asks fun _ => forM fun i _ => .asks fun _ => .ite (hrow r i) (.pure _)

theorem update (hmodel : ∀ r, Composed prim (Repeater.evaluateModel r))
    (hrelease : ∀ h, Composed prim (Component.release h))
    (hgrow : ∀ r n limit, Composed prim (Repeater.grow r n limit))
    (hrow : ∀ r i, Composed prim (Repeater.refreshRow r i)) (r : RepeaterId) :
    Composed prim (Repeater.update r) :=
  .bind (refreshModel hhost hmodel r) fun _ => .asks fun n =>
    .bind (shrink hhost hrelease r n) fun _ => .bind (hgrow r n _) fun _ => refreshRows hrow r

omit hhost in
theorem ensureUpdated (hget : ∀ c, prim (.get c)) (hset : ∀ c v, prim (.set c v))
    (hupdate : ∀ r, Composed prim (Repeater.update r)) (r : RepeaterId) :
    Composed prim (Repeater.ensureUpdated r) := by
  refine .asks fun repeater => .ite (.pure _) (.bind (peek (hget _)) fun stale => ?_)
  exact .ite (.bind (hupdate r) fun _ => .bind (.prim (hset ..)) fun _ => discard (.prim (hget _)))
    (discard (.prim (hget _)))

end

/-! ## Changes of instances -/

section

variable
  (hplan : ∀ {α : Type} (f : Scene U X → α × Scene U X),
    (∀ s : Scene U X, s.SamePlan (f s).2) → prim (.host f))
include hplan

theorem animate (hget : ∀ c, prim (.get c)) (spot : Spot) (spec : Spec) :
    Composed prim (Component.animate spot spec) := by
  refine .asks fun cell => .asks fun _ => .ite ?_ (.pure _)
  refine .bind
    (.bind (peek (hget cell)) fun _ => .prim (hplan _ fun _ => .of_eq rfl rfl fun _ => rfl))
      fun a => ?_
  exact .prim (hplan _ fun s => .addMotion s spot cell a)

theorem bindTransition (hset : ∀ c v, prim (.set c v))
    (hdrop : ∀ c, prim (.drop c)) (hnewTracker : ∀ name code, prim (.newTracker name (some code)))
    (htrack : ∀ {α : Type} (t : CellId) (code : Code U α), prim (.track t (.perform code)))
    (a : TransitionId) (code : Code U Value) : Composed prim (Transition.setBinding a code) := by
  refine .bind (clearBinding (fun f hf => hplan f fun s => (hf s).samePlan) hdrop a) fun _ =>
    .asks fun cell => ?_
  refine .bind (.view _) fun _ => .bind (.prim (hnewTracker ..)) fun _ => ?_
  refine .bind (.prim (hplan _ fun _ => .of_eq rfl rfl fun _ => rfl)) fun _ =>
    .bind (evaluateBinding htrack a) fun v => ?_
  cases v with
  | none => exact .pure _
  | some v =>
    exact .bind (.prim (hplan _ fun _ => .of_eq rfl rfl fun _ => rfl)) fun _ => .prim (hset cell v)

theorem attachHandler (c : ComponentId) (h : HandlerDef U) :
    Composed prim (Component.attachHandler c h) := by
  refine .asks fun callbacks => .bind (tieHandler c h.template) fun handler => ?_
  split
  · exact .prim (hplan _ fun _ => .of_eq rfl rfl fun _ => rfl)
  · exact .panic _

variable (hdrop : ∀ c, prim (.drop c))
include hdrop

theorem destroyTo (limit : Nat) (c : ComponentId) :
    Composed prim (Component.destroyTo limit c) := by
  have hhost {α : Type} (f : Scene U X → α × Scene U X) (hf : ∀ s : Scene U X, s.Tweaks (f s).2) :
      prim (.host f) := hplan f fun s => (hf s).samePlan
  induction limit generalizing c with
  | zero => exact .pure _
  | succ limit ih =>
    have hmark (s : Scene U X) :
        s.SamePlan (s.modifyComponent c fun x => { x with destroyed := true }) :=
      .modifyComponent s c (fun _ => rfl)
        (fun x node => by cases node <;> exact ⟨rfl, rfl⟩) fun _ => rfl
    refine .asks fun component => .ite (.pure _) (.bind (.prim (hplan _ hmark)) fun _ => ?_)
    refine .bind (.prim (hplan _ fun _ => .of_eq rfl rfl fun _ => rfl)) fun _ => ?_
    refine .bind (forM fun it _ => endItem hhost hdrop ih (fun h c => hplan _ fun s =>
      .freeHandle s h c fun _ => rfl) it) fun _ => ?_
    exact .bind (clearHandlers hhost _) fun _ => .bind (dropTable hhost hdrop _) fun _ => log _

theorem release (h : HandleId) : Composed prim (Component.release h) :=
  .asks fun limit => releaseWith (destroyTo hplan hdrop limit)
    (fun h c => hplan _ fun s => .freeHandle s h c fun _ => rfl) h

end

end Act.Composed

end ReactiveTree
