import ReactiveTree.Proofs.Scene.Lifespans
import ReactiveTree.Proofs.Scene.WovenRuns

/-!
# The links of instances

Two-way links are checked against each other as a definition is built, and made one by one, in the
order of the calls, when an instance of it is. Both come to the same: in every instance, at any
time until it ends, the root of a cell is the cell at the end of the chain of links in the
definition (`links_form_forest_realised`).
-/

namespace ReactiveTree

open Store Definition

variable {α β U X : Type} {W T g : CellId → Prop}
variable {d : Definition U} {host : Host U X} {act : SceneM U X α}

/-! ## Building -/

section

variable {nested : SceneNested U X} {w : SceneTale U X}

theorem Weft.push {store : Store (Code U)} {s : Scene U X} (x : Component U) :
    Weft T g store s g store (s.pushComponent x) := by
  refine ⟨.refl _, fun _ h => h, fun _ h => .inl h, by simp [Scene.pushComponent], fun c hc => ?_,
    fun c hc node => ?_, fun c hc node => ?_⟩
  · rw [Scene.component_push, if_neg hc.ne]
  · rw [Scene.table_push, if_neg hc.ne]
  · rw [Scene.table_push, if_neg hc.ne]

/-- The table of each node is that of its declarations, and it has its id and callbacks. -/
theorem tableOf_built {x : Component U} {items : List Item}
    (hx : x.items = items.toArray) (hitems : List.Forall₂ Item.Bare d.nodes items)
    (hdecls : x.scope.decls = d.declared) (hlength : x.scope.cells.length = x.scope.decls.length)
    (hcallbacks : x.callbacks.map (·.decl) = d.callbacks)
    (node : Option Nat) : (x.tableOf node).decls = d.declsOf node ∧
      (x.tableOf node).cells.length = (x.tableOf node).decls.length ∧
      x.outlineOf node = d.outlineOf node := by
  cases node with
  | none => exact ⟨hdecls, hlength, congrArg _ hcallbacks⟩
  | some n =>
    simp only [Component.tableOf, hx, Array.getD_eq_getD_getElem?, List.getElem?_toArray, declsOf,
      Component.outlineOf, outlineOf]
    by_cases hlt : n < d.nodes.length
    · have hnode := List.getElem?_eq_getElem hlt
      have hitem := List.getElem?_eq_getElem (hitems.length_eq ▸ hlt : n < items.length)
      have hbare := rel_of_forall₂ hitems hnode hitem
      rw [hnode, hitem]
      exact ⟨hbare.decls, hbare.lengths, Prod.ext hbare.id hbare.callbacks⟩
    · have hge := not_lt.1 hlt
      rw [List.getElem?_eq_none hge, List.getElem?_eq_none (hitems.length_eq ▸ hge)]
      exact ⟨rfl, rfl, rfl⟩

theorem woven_newHandle (hw : w.Woven W g) {c : ComponentId}
    (hc : c < w.host.1.components.size)
    (hties : Ties W g w.host.1 c (w.host.1.component c).definition.links) :
    (woven W T).Keeps nested g w (Component.newHandle c) := by
  refine .host hw fun hn => ?_
  have hsame :
      w.host.1.SamePlan (w.host.1.modifyComponent c fun x => { x with refs := x.refs + 1 }) :=
    .modifyComponent _ c (fun _ => rfl) (fun x node => by cases node <;> exact ⟨rfl, rfl⟩)
      fun _ => rfl
  have htables : w.host.1.SameTables
      { w.host.1.modifyComponent c fun x => { x with refs := x.refs + 1 } with
        handles := w.host.1.handles.push { component := c } } :=
    ⟨hsame.size, hsame.definition, hsame.decls, hsame.cells, hsame.outline, hsame.sub⟩
  refine ⟨g, .of_tables htables, Woven.tables hn htables fun {e} he => ?_, trivial⟩
  obtain ⟨h, hlt, hcomponent⟩ := he
  have hcomponent : ((w.host.1.handles.push { component := c }).getD h default).component = e :=
    hcomponent
  rw [getD_push] at hcomponent
  split at hcomponent
  · exact .inr (hcomponent ▸ ⟨hc, hties⟩)
  · rename_i hne
    have hlt : h < w.host.1.handles.size + 1 := Nat.lt_of_lt_of_eq hlt (Array.size_push ..)
    exact .inl ⟨h, Nat.lt_of_le_of_ne (Nat.le_of_lt_succ hlt) hne, hcomponent⟩

variable (hN : (woven W fun _ => False).Obeys nested)
include hN

theorem woven_calm (h : Act.Composed (Weaves W) act)
    (hw : w.Woven W g) : (woven W T).Runs nested g w act fun g' w' _ =>
      Weft (fun _ => False) g w.store w.host.1 g' w'.store w'.host.1 :=
  woven_mono nofun ((woven_composed hN h hw).mono fun _ _ _ hle _ _ => hle)

/-- A new instance has the definition it is made from, and its cells are new. -/
theorem woven_found (hw : w.Woven W g) (hmade : d.Made)
    (host : Option ItemRef) (source : Option Nat) :
    (woven W T).Runs nested g w (Component.found d host source) fun g' w' c =>
      c < w'.host.1.components.size ∧ (w'.host.1.component c).definition = d ∧
        ∀ node, ∀ y ∈ (w'.host.1.table c node).cells,
          w.store.cells.size ≤ y ∧ y < w'.store.cells.size ∧ ¬g' y := by
  have hwindow : Act.Composed (Weaves W)
      (.host (Scene.lodge (U := U) (X := X) (host.map (·.component)))) := by
    refine .prim (.host _ fun s => ?_)
    cases host.map (·.component) with
    | some o => exact .refl s
    | none => exact .of_eq rfl rfl fun _ => rfl
  refine .seq (woven_composed hN hwindow hw) fun g1 w1 window hle1 hw1 _ => ?_
  have hnew : w.store.cells.size ≤ w1.store.cells.size := (Weft.kept hle1).size
  refine .seq ((buildItems_completes d.name d.nodes).and_runs (woven_composed hN
    (.mapM fun node _ => .buildItem Weaves.tweak .new _ node) hw1)) fun g2 w2 items _ hw2 h => ?_
  obtain ⟨⟨hbare, hcells2, hplacid2, -, hmore2⟩, -⟩ := h
  refine .seq ((buildTable_completes d.name d.declared).and_runs (woven_composed hN
    (.buildTable .new ..) hw2)) fun g3 w3 scope _ hw3 h => ?_
  obtain ⟨⟨hdecls, hlength, -, hcells3, hplacid3, hhost3⟩, -⟩ := h
  refine .seq ((createCallbacks_completes d.callbacks).and_runs (woven_composed hN
    (.mapM fun decl _ => .createCallback Weaves.tweak decl) hw3)) fun g4 w4 callbacks _ hw4 h => ?_
  obtain ⟨⟨hcallbacks, -, hstore4, hmore4⟩, -⟩ := h
  have hmore : w1.host.1.MoreSignals w4.host.1 := hmore2.trans (hhost3 ▸ hmore4)
  have hcells : NewCells w1.store.cells.size w4.store
      (items.flatMap (·.table.cells) ++ scope.cells) := by
    rw [hstore4]
    exact hcells2.append hcells3 hplacid3 hplacid2.kept.size
  set x : Component U :=
    { definition := d, source, items := items.toArray, scope, callbacks,
      outer := host.map (·.component), host, window } with hx
  have htable := tableOf_built (x := x) rfl hbare hdecls (hlength.trans (congrArg _ hdecls.symm))
    hcallbacks
  have hmem {node : Option Nat} {y : CellId} (hy : y ∈ (x.tableOf node).cells) :=
    mem_of_tableOf rfl hy
  -- the new cells are in no table yet
  have hapart (c : ComponentId) (mode : Option Nat) {y : CellId} (hy : w1.store.cells.size ≤ y) :
      y ∉ (w4.host.1.table c mode).cells := by
    intro hold
    have hsame : w4.host.1.table c mode = w1.host.1.table c mode := by
      rw [hmore.only]
      rfl
    rw [hsame] at hold
    exact hy.not_gt (hw1.laid.property hold).1
  have hlaid : (w4.host.1.pushComponent x).Laid w4.store := by
    refine hw4.laid.push hmade (fun node => (htable node).1) (funext fun node => (htable node).2.2)
      (fun node => (htable node).2.1)
      (fun node y hy => ?_) (fun hi hj => place_of_built rfl hcells.nodup hi hj)
    exact ⟨hcells.property y (hmem hy), fun c mode => hapart c mode (hcells.since y (hmem hy))⟩
  refine .host hw4 fun hn => ⟨g4, Weft.push x, Woven.push hn hlaid,
    Nat.lt_of_lt_of_eq (Nat.lt_succ_self _) (Array.size_push ..).symm, ?_, fun node y hy => ?_⟩
  · show ((w4.host.1.pushComponent x).component _).definition = d
    rw [Scene.component_push, if_pos rfl]
  · have hy : y ∈ ((w4.host.1.pushComponent x).table w4.host.1.components.size node).cells := hy
    rw [Scene.table_push, if_pos rfl] at hy
    have hsince := hcells.since y (hmem hy)
    refine ⟨hnew.trans hsince, (hcells.property y (hmem hy)).1, fun hg => ?_⟩
    obtain ⟨e, -, -, ⟨l, -, hl⟩, -⟩ := hw4.tied hg
    exact hapart e _ hsince (Scene.mem_of_cellOf hl)

/-- A build ties the links of the instance, as far as they can be. -/
theorem woven_build (hw : w.Woven W g) (hT : ∀ x, w.store.cells.size ≤ x → T x)
    (hmade : d.Made) (host : Option ItemRef) (source : Option Nat) :
    (woven W T).Runs nested g w (Component.build d host source) fun g' w' c =>
      c < w'.host.1.components.size ∧ (w'.host.1.component c).definition = d ∧
        Ties W g' w'.host.1 c d.links := by
  have hd := hmade.consistent
  show (woven W T).Goes ..
  rw [Component.tell_build]
  refine Regime.Runs.seq (woven_found hN hw hmade host source) fun g5 w5 c hle5 hw5 h5 => ?_
  obtain ⟨hc5, hd5, hfresh⟩ := h5
  -- what is attached before the links ties nothing
  refine .seq (woven_calm hN (.forM fun y _ => .bind (.spotOf c y.node y.prop) fun spot =>
    .asks fun cell => .prim (.set cell y.v)) hw5) fun g6 w6 _ _ hw6 hle6 => ?_
  refine .seq (woven_calm hN (.forM fun y _ => .bind (.spotOf c y.node y.prop) fun spot =>
    .animate Weaves.host .get spot y.spec) hw6) fun g7 w7 _ _ hw7 hle7 => ?_
  have hle7 := hle6.trans hle7
  have hc7 := hc5.trans_le hle7.size
  have hd7 : (w7.host.1.component c).definition = d := (hle7.definition c hc5).trans hd5
  refine .seq (woven_links hN hc7 (fun node y hy => ?_) (fun l hl => hd7 ▸ hl)
    hmade.forest.single hw7 fun l _ y hy hg => ?_) fun g8 w8 _ hle8 hw8 hties8 => ?_
  · rw [hle7.cells c hc5] at hy
    exact hT y (hfresh node y hy).1
  · rw [hle7.cellOf hc5] at hy
    obtain ⟨-, hlt, hopen⟩ := hfresh _ y (Scene.mem_of_cellOf hy)
    rcases hle7.only y hg with hg | hno | hsize
    · exact hopen hg
    · exact hno
    · exact hsize.not_gt hlt
  have hc8 := hc7.trans_le hle8.size
  have hd8 : (w8.host.1.component c).definition = d := (hle8.definition c hc7).trans hd7
  -- what is attached after them leaves them tied
  refine .seq (woven_attachBindings hN hc8 (fun b hb => hd8 ▸ hb) hw8)
    fun g9 w9 animated hle9 hw9 _ => ?_
  refine .seq (woven_composed hN (.forM fun y _ => .bindTransition Weaves.host .set .drop
    .newTracker .track y.1 y.2) hw9) fun g10 w10 _ hle10 hw10 _ => ?_
  refine .seq (woven_composed hN (.forM fun y _ => .attachHandler Weaves.host c y) hw10)
    fun g11 w11 _ hle11 hw11 _ => ?_
  refine .seq (.forM hw11 fun y hy _ w' _ hw' =>
    woven_addRepeater hN hw' ⟨c, y.1⟩ (hd.repeats y hy).2 y.2.2) fun g12 w12 _ hle12 hw12 _ => ?_
  have hle : Weft T g8 w8.store w8.host.1 g12 w12.store w12.host.1 :=
    Weft.trans (Weft.trans (Weft.trans hle9 hle10) hle11) hle12
  exact .ret hw12 ⟨hc8.trans_le hle.size, (hle.definition c hc8).trans hd8,
    hties8.later hc8 hle⟩

theorem woven_buildHandle (hw : w.Woven W g) (hmade : d.Made)
    (host : Option ItemRef) (source : Option Nat) :
    (woven W T).Keeps nested g w (do Component.newHandle (← Component.build d host source)) := by
  refine woven_mono (fun x hx => .inr hx) ?_
  refine .seq (woven_build hN hw (fun _ h => h) hmade host source)
    fun _ _ c _ hw1 h => ?_
  obtain ⟨hc, hd, hties⟩ := h
  exact woven_newHandle hw1 hc (hd ▸ hties)

theorem woven_grow (hw : w.Woven W g) (r : RepeaterId) (n limit : Nat) :
    (woven W T).Keeps nested g w (Repeater.grow r n limit) := by
  induction limit generalizing g w with
  | zero => exact .ret hw trivial
  | succ limit ih =>
    refine .ask hw fun hn => ?_
    split
    swap
    · exact .ret hn trivial
    show (woven W T).Goes _ _ _ (Act.tell nested (_ >>= fun c => _ >>= _) _)
    rw [← Act.tell_bind_assoc]
    refine Regime.Runs.seq (woven_buildHandle hN hn (hw.laid.sub r) _ _) fun g1 w1 h _ hw1 _ => ?_
    refine .seq (woven_composed hN (.modifyRepeater Weaves.tweak r
      fun _ => ⟨rfl, rfl, rfl, rfl, rfl, rfl⟩) hw1)
      fun g2 w2 _ _ hw2 _ => ih hw2

end

/-! ## Code -/

inductive Act.Rewires : ⦃α : Type⦄ → SceneM U X α → CellId → Prop where
  | setBinding (c : CellId) (code : Code U Value) : Rewires (.setBinding c code) c
  | link (a b : CellId) : Rewires (.link a b) a

/-- What user code may do: it neither makes nor ends instances, and the cells that it binds and
links itself are among `W`. -/
def Tame (W : CellId → Prop) ⦃α : Type⦄ (act : SceneM U X α) : Prop :=
  Modest act ∧ ∀ c, Act.Rewires act c → W c

/-- Programs over cells and the plan, and the growth of repeaters. -/
inductive Toils (W : CellId → Prop) : ⦃α : Type⦄ → SceneM U X α → Prop where
  | weaves {α : Type} {act : SceneM U X α} (h : Act.Composed (Weaves W) act) : Toils W act
  | grow (r : RepeaterId) (n limit : Nat) : Toils W (Repeater.grow r n limit)

theorem composed_gentle (h : Gentle act) : Act.Composed (Weaves W) act := by
  cases h with
  | get c => exact .prim (.get c)
  | write spot v => exact .write Weaves.tweak .get .set .drop spot v
  | handle h args => exact .prim (.perform _)
  | peer u change => exact .prim (.perform _)
  | markStale r => exact .markStale .set r
  | staleRows r f => exact .modifyRepeater Weaves.tweak r fun _ => ⟨rfl, rfl, rfl, rfl, rfl, rfl⟩
  | aside h =>
    obtain ⟨f, rfl, hf⟩ := h
    refine .prim (.host f fun s => ?_)
    obtain ⟨vectors, peers, user, heq⟩ := hf s
    rw [heq]
    exact .of_eq rfl rfl fun _ => rfl

theorem composed_ensureUpdated (r : RepeaterId) :
    Act.Composed (Toils W) (Repeater.ensureUpdated (U := U) (X := X) r) :=
  .ensureUpdated (fun c => .weaves (.prim (.get c))) (fun c v => .weaves (.prim (.set c v)))
    (.update (fun f hf => .weaves (.prim (.tweak f hf)))
      (fun r => .prim (.weaves (.evaluateModel .track r)))
      (fun h => .prim (.weaves (.release Weaves.host .drop h)))
      (fun r n limit => .prim (.grow r n limit))
      fun r i => .prim (.weaves (.refreshRow Weaves.tweak .set r i))) r

section

variable {nested : SceneNested U X} {w : SceneTale U X} (hN : (woven W fun _ => False).Obeys nested)
include hN

theorem woven_gently (h : Act.Composed Gentle act)
    (hw : w.Woven W g) : (woven W T).Keeps nested g w act :=
  .composed (fun _ => trivial) (fun h hw => woven_composed hN (composed_gentle h) hw)
    h hw

theorem woven_toils (h : Act.Composed (Toils W) act)
    (hw : w.Woven W g) : (woven W T).Keeps nested g w act := by
  refine .composed (fun _ => trivial) (fun h hw => ?_) h hw
  cases h with
  | weaves h => exact woven_composed hN h hw
  | grow r n limit => exact woven_grow hN hw r n limit

theorem woven_windowed
    (h : Act.Composed (fun _ (act : SceneM U X _) => Act.Composed (Toils W) act) act)
    (hw : w.Woven W g) : (woven W T).Keeps nested g w act :=
  .composed (fun _ => trivial) (fun h hw => woven_toils hN h hw) h hw

theorem woven_ticks : (woven W T).Ticks nested fun _ _ => True where
  sober := woven_ok.toSober
  later _ _ := trivial
  listed _ _ := trivial
  step now hw _ := woven_composed hN (.step Weaves.tweak .get .set .track _ now) hw
  dismiss _ hw := woven_samePlan hw (.of_eq rfl rfl fun _ => rfl)
  setList hw _ := woven_samePlan hw (.of_eq rfl rfl fun _ => rfl)
  setTicking _ hw := woven_samePlan hw (.of_eq rfl rfl fun _ => rfl)
  setTime _ hw := woven_weaves hN (.set ..) hw
  peek c hw := woven_composed hN (.peek (.get c)) hw

theorem woven_tame (h : Tame W act) (hw : w.Woven W g) :
    (woven W T).Keeps nested g w act := by
  obtain ⟨h, hown⟩ := h
  cases h with
  | get c => exact woven_weaves hN (.get c) hw
  | tryGet c => exact woven_weaves hN (.tryGet c) hw
  | set c v => exact woven_weaves hN (.set c v) hw
  | setBinding c u self => exact woven_weaves hN (.setBinding (hown c (.setBinding c _)) _) hw
  | link a b => exact woven_weaves hN (.link (hown a (.link a b)) b) hw
  | new name v => exact woven_weaves hN (.new name v) hw
  | newBound name u self => exact woven_weaves hN (.newBound name _) hw
  | observe c u self => exact woven_weaves hN (.observe c _) hw
  | unobserve o => exact woven_weaves hN (.unobserve o) hw
  | setProperty c name v => exact woven_gently hN (.component_set .write c name v) hw
  | setItem it name v => exact woven_gently hN (.item_set .write it name v) hw
  | invoke c name args => exact woven_gently hN (.component_invoke .handle c name args) hw
  | emit it name args => exact woven_gently hN (.item_emit .handle it name args) hw
  | setRow m row v =>
    exact woven_gently hN (.setRow Gentle.vectors .staleRows .markStale .peer m row v) hw
  | pushRows m vs =>
    exact woven_gently hN (.push Gentle.vectors .staleRows .markStale .peer m vs) hw
  | insertRow m index v =>
    exact woven_gently hN (.insert Gentle.vectors .staleRows .markStale .peer m index v) hw
  | removeRow m index =>
    exact woven_gently hN (.remove Gentle.vectors .staleRows .markStale .peer m index) hw
  | activate c =>
    exact woven_windowed hN (.activate (fun _ _ => .prim (.weaves (composed_gentle (.write ..))))
      (fun _ _ => .prim (.weaves (.prim (.host _ fun _ => .of_eq rfl rfl fun _ => rfl)))) c) hw
  | setFocus c it =>
    exact woven_windowed hN (.setFocus (fun _ _ => .prim (.weaves (composed_gentle (.write ..))))
      (fun _ _ => .prim (.weaves (.prim (.host _ fun _ => .of_eq rfl rfl fun _ => rfl)))) c it) hw
  | tick now => exact (woven_ticks hN).moveTo now hw
  | aside h => exact woven_gently hN (.prim (.aside h)) hw

theorem woven_tamely (h : Act.Composed (Tame W) act)
    (hw : w.Woven W g) : (woven W T).Keeps nested g w act :=
  .composed (fun _ => trivial) (fun h hw => woven_tame hN h hw) h hw

theorem woven_meaning (hhost : host.Uses (Tame W)) (code : Code U α)
    (hw : w.Woven W g) : (woven W T).Keeps nested g w (code.meaning host) := by
  refine (Regime.Runs.meaning (C := fun _ => True) hhost.value hhost.model hhost.peer
    (fun h => woven_tamely hN h hw) (fun c => woven_weaves hN (.get c) hw)
    (fun a _ => woven_composed hN (.retarget Weaves.tweak a) hw)
    (fun r _ => woven_composed hN (.markStale .set r) hw)
    (fun _ => woven_gently hN (.forM fun step _ => .action_perform .get .write .handle step) hw)
    (fun _ => trivial) code trivial).keeps

end

theorem toldTo_woven (hhost : host.Uses (Tame W)) (depth : Nat) :
    (woven W fun _ => False).Obeys (Act.toldTo (Code.meaning host) depth) :=
  woven_ok.toldTo_obeys (fun hN _ code _ _ hw _ => woven_meaning hN hhost code hw) depth

/-! ## Sessions -/

section

variable {nested : SceneNested U X} {w : SceneTale U X}

theorem woven_anotherHandle (hw : w.Woven W g) {c : ComponentId}
    (hc : w.host.1.Handed c) : (woven W T).Keeps nested g w (Component.newHandle c) :=
  woven_newHandle hw (hw.laid.handed hc) fun hfree hunbound => hw.linked hc hfree hunbound

theorem woven_deed (hN : (woven W fun _ => False).Obeys nested) {act : SceneM U X Unit}
    (h : Deed (Tame W) w.host.1 act) (hw : w.Woven W g) :
    (woven W fun _ => False).Keeps nested g w act := by
  have hget (c : CellId) : Act.Composed (Toils W) (Act.get c : SceneM U X Value) :=
    .prim (.weaves (.prim (.get c)))
  have hwrite (spot : Spot) (v : Value) :
      Act.Composed (Toils W) (Component.write spot v : SceneM U X _) :=
    .prim (.weaves (composed_gentle (.write spot v)))
  have hhandle (h : Handler U) (args : List Value) :
      Act.Composed (Toils W) (.perform (.handle h args) : SceneM U X _) :=
    .prim (.weaves (.prim (.perform _)))
  have hwindow (c : ComponentId) (f : Window → Window) :
      Act.Composed (Toils W) (Window.modify c f : SceneM U X _) :=
    .prim (.weaves (.prim (.host _ fun _ => .of_eq rfl rfl fun _ => rfl)))
  cases h with
  | instantiate made source =>
    refine .seq_ret (P := fun _ _ _ => True) ?_
    unfold Component.instantiate
    split
    · exact .ret hw trivial
    split
    · exact .ret hw trivial
    show (woven W fun _ => False).Goes _ _ _ (Act.tell nested (_ >>= fun c => _ >>= _) _)
    rw [← Act.tell_bind_assoc]
    exact Regime.Runs.seq_ret (woven_buildHandle hN hw made none source)
  | @retain h held =>
    refine .seq_ret (P := fun _ _ _ => True) (.ask hw fun hn => .ask hn fun hn => ?_)
    split
    · exact .panic hn trivial
    · exact woven_anotherHandle hn ⟨h, held.1, rfl⟩
  | release held => exact woven_composed hN (.release Weaves.host .drop _) hw
  | @upgrade h held =>
    refine .seq_ret (P := fun _ _ _ => True) (.ask hw fun hn => ?_)
    split
    · exact .seq_ret (woven_anotherHandle hn ⟨h, held.1, rfl⟩)
    · exact .ret hn trivial
  | update hr => exact woven_toils hN (composed_ensureUpdated _) hw
  | focusNext c =>
    exact woven_windowed hN (.discard (.focusNext hget hwrite composed_ensureUpdated hwindow c)) hw
  | pointer c kind x y =>
    exact woven_windowed hN
      (.discard (.pointer hget hwrite hhandle composed_ensureUpdated hwindow c kind x y)) hw
  | key c key =>
    exact woven_windowed hN
      (.discard (.key hget hwrite hhandle composed_ensureUpdated hwindow c key)) hw
  | other h => exact woven_tamely hN h hw

end

theorem toldSession_woven (hhost : host.Uses (Tame W)) (depth : Nat)
    {acts : List (SceneM U X Unit)} {w : SceneTale U X}
    (hw : w.Woven W g) (hacts : Deeds (Tame W) host depth acts w.untold) :
    let w' := Act.toldSession (Code.meaning host) depth acts w
    ∃ g', w'.Woven W g' := by
  induction acts generalizing g w with
  | nil => exact ⟨g, hw⟩
  | cons act acts ih =>
    obtain ⟨g', hw'⟩ := (woven_deed (toldTo_woven hhost depth) hacts.1 hw).outcome trivial
    exact ih hw' hacts.told

/-- The links of a definition, however it was built, start from different properties and form no
cycle, and a link between two properties of one kind is refused exactly when it would spoil this.
In every instance that has not ended, in whose cells user code has no hand and whose linked
properties are not bound, the link root of a cell is the cell at the end of the chain of links. -/
theorem links_form_forest_realised (W : CellId → Prop) (host : Host U X)
    (hhost : host.Uses (Tame W)) (depth : Nat) (user : X) (reports : Bool)
    (acts : List (SceneM U X Unit))
    (hacts : Deeds (Tame W) host depth acts (World.start user reports)) :
      (∀ d : Definition U, d.Made → (d.links.map LinkDef.source).Nodup ∧
      (∀ k, ¬Follows d.links k k) ∧ (∀ k, Relation.ReflTransGen (Leads d.links) k (d.chainEnd k) ∧
        ∀ k', ¬Leads d.links (d.chainEnd k) k') ∧
      (d.fault = none → ∀ id prop otherId otherProp n o x y,
        d.resolve id prop = .ok (n, x) → d.resolve otherId otherProp = .ok (o, y) →
        x.kind = y.kind → ((d.twoWay id prop otherId otherProp).fault ≠ none ↔
          (∃ k, Leads d.links (n, prop) k) ∨ ((n, prop) : Key) = (o, otherProp) ∨
            Follows d.links (o, otherProp) (n, prop)))) ∧
    let w := Act.session (Code.meaning host) depth acts (World.start user reports)
    ∀ c, w.host.Handed c → (w.host.component c).destroyed = false → w.host.Free W c →
      let d := (w.host.component c).definition
      d.Made ∧ (d.Unbound → ∀ k x, w.host.cellOf c k = some x →
        w.host.cellOf c (d.chainEnd k) = some (w.store.linkRoot x)) := by
  refine ⟨fun d hd => ?_, fun c hhanded hlive hfree => ?_⟩
  · have hforest := hd.forest
    exact ⟨hforest.single, hforest.acyclic, hforest.chainEnd,
      fun hfault _ _ _ _ _ _ _ _ hx hy hkind => fault_twoWay_iff hforest hfault hx hy hkind⟩
  set w := Act.session (Code.meaning host) depth acts (World.start user reports)
  set told := Act.toldSession (Code.meaning host) depth acts (Tale.start user reports) with htold
  have hw : told.untold = w := Act.untold_toldSession ..
  obtain ⟨g, hwoven⟩ : ∃ g, Woven W g w.store w.host := by
    rw [← hw]
    exact toldSession_woven hhost depth (woven_start user reports) hacts
  have hsound : Sound w.store w.host := by
    have hmodest : ∀ ⦃α : Type⦄ (act : SceneM U X α), Tame W act → Modest act := fun _ _ h => h.1
    rw [← hw]
    exact (toldSession_sound (hhost.mono hmodest) depth (sound_start user reports)
      (hacts.mono hmodest)).1
  refine ⟨hwoven.laid.made c, fun hunbound k x hx => ?_⟩
  refine hwoven.cellOf_chainEnd hhanded hfree hunbound ?_ hx
  rintro ⟨node, y, hy, hdropped⟩
  rw [hsound.fallen.upright hlive node y hy] at hdropped
  cases hdropped

namespace Relay

/-- The middle of the chain is linked on after the first link has been made. -/
def relay : Definition Unit :=
  ({ name := "Relay" } : Definition Unit)
    |>.root 1 "root"
    |>.declare "first" .int (.int 1)
    |>.declare "second" .int (.int 2)
    |>.declare "third" .int (.int 3)
    |>.twoWay "" "first" "" "second"
    |>.twoWay "" "second" "" "third"

theorem made : relay.Made :=
  Definition.Made.new "Relay"
    |>.root 1 "root"
    |>.declare "first" .int _
    |>.declare "second" .int _
    |>.declare "third" .int _
    |>.twoWay "" "first" "" "second"
    |>.twoWay "" "second" "" "third"

def acts : List (SceneM Unit Unit Unit) := [discard (Component.instantiate relay)]

theorem deeds : Deeds (Tame fun _ => False) Roster.host 9 acts (World.start () false) :=
  ⟨.instantiate made none, trivial⟩

def ended : World (Scene Unit Unit) (Code Unit) :=
  Act.session (Code.meaning Roster.host) 9 acts (World.start () false)

end Relay

/-- The first cell stores where the third does, and closing the loop is refused. -/
theorem links_form_forest_realised_relay :
    (Relay.relay.twoWay "" "third" "" "first").fault ≠ none ∧
    ∃ x y, Relay.ended.host.cellOf 0 (none, "first") = some x ∧
      Relay.ended.host.cellOf 0 (none, "third") = some y ∧ Relay.ended.store.linkRoot x = y := by
  have hhost : Roster.host.Uses (Tame fun _ => False) :=
    ⟨fun _ _ _ => .pure _, fun _ _ => .pure _, fun _ _ => .pure _⟩
  obtain ⟨hforest, hrealised⟩ := links_form_forest_realised (fun _ => False) Roster.host hhost 9 ()
    false Relay.acts Relay.deeds
  obtain ⟨-, -, -, hrefused⟩ := hforest Relay.relay Relay.made
  obtain ⟨-, hroots⟩ := hrealised 0 ⟨0, by decide +kernel, by decide +kernel⟩ (by decide +kernel)
    fun _ _ _ h => h
  have hbinds : (Relay.ended.host.component 0).definition.binds = [] :=
    List.isEmpty_iff.1 (by decide +kernel)
  have hunbound : (Relay.ended.host.component 0).definition.Unbound := by
    intro b hb
    rw [hbinds] at hb
    cases hb
  have hroot : Relay.ended.host.cellOf 0 ((Relay.ended.host.component 0).definition.chainEnd
      (none, "first")) = some (Relay.ended.store.linkRoot 5) :=
    hroots hunbound (none, "first") 5 (by decide +kernel)
  have hend :
      (Relay.ended.host.component 0).definition.chainEnd (none, "first") = (none, "third") := by
    decide +kernel
  rw [hend] at hroot
  refine ⟨?_, 5, 7, by decide +kernel, by decide +kernel,
    Option.some.inj (hroot.symm.trans (by decide +kernel))⟩
  have hfault : Relay.relay.fault = none := Option.isNone_iff_eq_none.1 (by decide +kernel)
  have hthird : Relay.relay.resolve "" "third" = .ok (none, ⟨"third", .int, .int 3⟩) := by cbv
  have hfirst : Relay.relay.resolve "" "first" = .ok (none, ⟨"first", .int, .int 1⟩) := by cbv
  refine (hrefused hfault _ _ _ _ _ _ _ _ hthird hfirst rfl).2 (.inr (.inr ?_))
  exact .tail (.single ⟨⟨none, "first", none, "second"⟩, by decide +kernel, rfl, rfl⟩)
    ⟨⟨none, "second", none, "third"⟩, by decide +kernel, rfl, rfl⟩

end ReactiveTree
