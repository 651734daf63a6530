import ReactiveTree.Proofs.Scene.KindedInstances

/-!
# Handles, repeaters and writes keep kinds

Repeaters build and release instances, and write the data and the number of each row, which a
row declares as untyped and as an int. A release tears instances down: it drops cells and
trackers but changes no value. A write by name converts to the declared kind, which is also the
kind of the link root that the write goes to.
-/

namespace ReactiveTree

open Store

variable {U X α : Type} {g g' : List Role} {w w' : SceneTale U X} {nested : SceneNested U X}

/-! ## Handles -/

section

variable (hw : KindedTale g w)
include hw

theorem KindedTale.addHandle (c : ComponentId) :
    KindedTale g (w.withHost (w.host.1.addHandle c)) ∧
      KindedLater g w g (w.withHost (w.host.1.addHandle c)) := by
  obtain ⟨hs, hle⟩ := hw.modifyComponent c (f := fun x => { x with refs := x.refs + 1 })
    (fun _ => rfl) (fun _ => rfl) fun _ _ _ h => .inl h
  have hpush := hs.setHandles (w.host.1.handles.push { component := c })
    ((Nat.le_succ _).trans (Nat.le_of_eq (Array.size_push _).symm)) fun h hh => by
      have hne : h ≠ w.host.1.handles.size := hh.ne
      rw [getD_push, if_neg hne]
      rfl
  exact ⟨hpush.1, kinding_ok.trans hle hpush.2⟩

theorem KindedTale.freeHandle (h : HandleId) :
    KindedTale g (w.withHost (w.host.1.freeHandle h)) ∧
      KindedLater g w g (w.withHost (w.host.1.freeHandle h)) := by
  obtain ⟨hs, hle⟩ := hw.modifyComponent (w.host.1.handle h).component
    (f := fun c => { c with refs := c.refs - 1 }) (fun _ => rfl)
      (fun _ => rfl) fun _ _ _ h => .inl h
  have hset := hs.setHandles (w.host.1.handles.modify h fun x => { x with released := true })
    (Nat.le_of_eq Array.size_modify.symm) fun i _ => by
      rw [getD_modify]
      split <;> rfl
  exact ⟨hset.1, kinding_ok.trans hle hset.2⟩

theorem kinding_newHandle {c : ComponentId} {decls : List PropDecl}
    (hc : c < w.host.1.components.size) (hdecls : (w.host.1.component c).scope.decls = decls) :
    kinding.Runs nested g w (Component.newHandle c) fun _ w' h =>
      RowDecls decls → w'.host.1.IsRow h := by
  refine .host hw fun hn => ?_
  obtain ⟨hs, hle⟩ := KindedTale.addHandle hn c
  refine ⟨g, hle, hs, fun hrow => ?_⟩
  show (w.host.1.addHandle c).IsRow w.host.1.handles.size
  have hsame : ((w.host.1.addHandle c).component c).scope.decls = _ := hle.scene.decls c hc none
  rw [Scene.IsRow, Scene.handle_addHandle, if_pos rfl, hsame]
  refine ⟨?_, hc.trans_le hle.scene.components, hdecls ▸ hrow⟩
  exact Nat.lt_of_lt_of_eq (Nat.lt_succ_self _) (Array.size_push _).symm

omit hw in
theorem kinding_instantiate (hN : kinding.Obeys nested) (hw : KindedTale g w)
    {d : Definition U} (hmade : d.Made) (hrowed : d.Rowed) (source : Option Nat) :
    kinding.Keeps nested g w (Component.instantiate d source) := by
  unfold Component.instantiate
  cases d.fault with
  | some f => exact .ret hw trivial
  | none =>
    dsimp only
    split
    · exact .ret hw trivial
    · refine .seq (kinding_build hN hw hmade hrowed none source)
        fun g1 w1 c _ hw1 hc => ?_
      exact .seq (kinding_newHandle hw1 hc.1 hc.2)
        fun _ _ h _ hw2 _ => .ret hw2 trivial

theorem kinding_anotherHandle (c : ComponentId) :
    kinding.Keeps nested g w (Component.newHandle c) :=
  .host hw fun hn =>
    ⟨g, (KindedTale.addHandle hn c).2, (KindedTale.addHandle hn c).1, trivial⟩

theorem kinding_retain (h : HandleId) :
    kinding.Keeps nested g w (Component.retain h) := by
  refine .ask hw fun hn => .ask hn fun hn => ?_
  split
  · exact .panic hn trivial
  · exact kinding_anotherHandle hn _

theorem kinding_upgrade (c : ComponentId) :
    kinding.Keeps nested g w (Component.upgrade c) := by
  refine .ask hw fun hn => ?_
  split
  · exact .seq (kinding_anotherHandle hn c) fun _ _ h _ hw' _ =>
      .ret hw' trivial
  · exact .ret hn trivial

/-! ## Teardown -/

/-- The cells are no trackers. -/
def HeldCells (g : List Role) (cells : List CellId) : Prop :=
  ∀ c ∈ cells, c < g.length ∧ ∃ k, roleAt g c = .holds k

omit hw in
theorem HeldCells.mono (hg : g <+: g') {cells : List CellId} (h : HeldCells g cells) :
    HeldCells g' cells := by
  intro c hc
  obtain ⟨hlt, k, hrole⟩ := h c hc
  exact ⟨hlt.trans_le hg.length_le, k, (roleAt_extend hg hlt).trans hrole⟩

omit hw in
theorem Table.Kinded.held {ts : Array (Transition U)} {t : Table} (h : t.Kinded g ts) :
    HeldCells g t.cells := by
  intro c hc
  obtain ⟨i, hi, rfl⟩ := List.getElem_of_mem hc
  obtain ⟨hlt, hrole⟩ := h.cells i _ _ (List.getElem?_eq_getElem hi)
    (List.getElem?_eq_getElem (h.length ▸ hi))
  exact ⟨hlt, _, hrole⟩

theorem kinding_dropTable {t : Table} (ht : HeldCells g t.cells) :
    kinding.Keeps nested g w (Component.dropTable t) := by
  refine .seq (.forM hw fun i _ g' w' _ hw' => ?_)
    fun g1 w1 _ hle1 hw1 _ => .forM hw1 fun c hc g' w' hle hw' => ?_
  · split
    · exact kinding_stop hw' _
    · exact .ret hw' trivial
  · obtain ⟨-, k, hrole⟩ := ht.mono (hle1.roles.trans hle.roles) c hc
    refine kinding_drop hw' fun a => ?_
    rw [hrole]
    nofun

omit hw in
theorem apart_clearHandlers (callbacks : List Callback) (s : Scene U X) :
    s.Apart (callbacks.foldl (fun s cb => s.setHandler cb.signal none) s) := by
  induction callbacks generalizing s with
  | nil => exact ⟨rfl, rfl, rfl, rfl, rfl, rfl⟩
  | cons cb rest ih => exact { ih (s.setHandler cb.signal none) with }

theorem kinding_clearHandlers (callbacks : List Callback) :
    kinding.Keeps nested g w (Component.clearHandlers callbacks) :=
  kinding_apart (fun s => apart_clearHandlers callbacks s) hw

end

section Teardown

variable {destroy : ComponentId → SceneM U X Unit} (hdestroy : ∀ {g w} c, KindedTale g w →
    kinding.Runs nested g w (destroy c) fun _ _ _ => True)
include hdestroy

theorem kinding_releaseWith (hw : KindedTale g w) (h : HandleId) :
    kinding.Keeps nested g w (Component.releaseWith destroy h) := by
  refine .ask hw fun hn => ?_
  split
  · exact .ret hn trivial
  · refine .change_then hn (fun hn => KindedTale.freeHandle hn h) fun hs => ?_
    refine .ask hs fun hn => ?_
    split
    · exact hdestroy _ hn
    · exact .ret hn trivial

theorem kinding_endRepeater (hw : KindedTale g w) (r : RepeaterId) :
    kinding.Keeps nested g w (Component.endRepeater destroy r) := by
  have hkinded := hw.scene.repeaters r
  have hdrop : ∀ {g' w' c}, g <+: g' → KindedTale g' w' → c < g.length →
      (∀ a, roleAt g c ≠ .follows a) →
      kinding.Keeps nested g' w' (.drop c) := by
    intro g' w' c hroles hw' hlt hrole
    refine kinding_drop hw' fun a => ?_
    rw [roleAt_extend hroles hlt]
    exact hrole a
  refine .ask hw fun hn => ?_
  split
  · exact .ret hn trivial
  refine .seq (.forM hn fun h _ _ _ _ hw' =>
    kinding_releaseWith hdestroy hw' h) fun g1 w1 _ hle1 hw1 _ => ?_
  refine .change_then hw1 (fun hn => KindedTale.modifyRepeater hn r
    { hw1.scene.repeaters r with instances := nofun }) fun hs => ?_
  refine .seq (hdrop hle1.roles hs hkinded.tracker.1 hkinded.tracker.2)
    fun g2 w2 _ hle2 hw2 _ => ?_
  refine .seq (hdrop (hle1.roles.trans hle2.roles) hw2 hkinded.flag.1 ?_)
    fun g3 w3 _ _ hw3 _ => .change hw3 fun hn =>
      KindedTale.modifyRepeater hn r { hw3.scene.repeaters r with }
  rw [hkinded.flag.2]
  nofun

theorem kinding_endItem (hw : KindedTale g w) {it : Item} (hit : HeldCells g it.table.cells) :
    kinding.Keeps nested g w (Component.endItem destroy it) := by
  refine .seq (.forM hw fun r _ _ _ _ hw' =>
    kinding_endRepeater hdestroy hw' r) fun g1 w1 _ hle1 hw1 _ => ?_
  refine .seq (kinding_clearHandlers hw1 it.callbacks)
    fun g2 w2 _ hle2 hw2 _ => kinding_dropTable hw2 ?_
  exact hit.mono (hle1.roles.trans hle2.roles)

theorem kinding_teardown (hw : KindedTale g w) (c : ComponentId) :
    kinding.Keeps nested g w (Component.teardown destroy c) := by
  have hscope : HeldCells g (w.host.1.component c).scope.cells := (hw.scene.tables c none).held
  have hitems : ∀ it ∈ (w.host.1.component c).items.toList, HeldCells g it.table.cells := by
    intro it hit
    obtain ⟨n, hn, rfl⟩ := Array.getElem_of_mem (Array.mem_toList_iff.1 hit)
    have htable := (hw.scene.tables c (some n)).held
    simpa [Scene.table, Scene.item, hn] using htable
  refine .ask hw fun hn => ?_
  split
  · exact .ret hn trivial
  refine .change_then hn (fun hn => KindedTale.modifyComponent hn c (fun _ => rfl)
    (fun _ => rfl) fun _ _ _ h => .inl h) fun hs => ?_
  refine .seq (kinding_apart (fun _ => ⟨rfl, rfl, rfl, rfl, rfl, rfl⟩) hs)
    fun g1 w1 _ hle1 hw1 _ => ?_
  refine .seq (.forM hw1 fun it hit _ _ hle hw' =>
    kinding_endItem hdestroy hw' ((hitems it hit).mono (hle1.roles.trans hle.roles)))
    fun g2 w2 _ hle2 hw2 _ => ?_
  refine .seq (kinding_clearHandlers hw2 _) fun g3 w3 _ hle3 hw3 _ => ?_
  refine .seq (kinding_dropTable hw3
    (hscope.mono ((hle1.roles.trans hle2.roles).trans hle3.roles))) fun _ _ _ _ hw4 _ => ?_
  exact .record _ hw4

end Teardown

theorem kinding_destroyTo (limit : Nat) (hw : KindedTale g w) (c : ComponentId) :
    kinding.Keeps nested g w (Component.destroyTo limit c) := by
  induction limit generalizing g w c with
  | zero => exact .ret hw trivial
  | succ limit ih => exact kinding_teardown (fun c hw => ih hw c) hw c

theorem kinding_release (hw : KindedTale g w) (h : HandleId) :
    kinding.Keeps nested g w (Component.release h) :=
  .ask hw fun hn =>
    kinding_releaseWith (fun c hw => kinding_destroyTo _ hw c) hn h

/-! ## Writes -/

section Nested

variable (hN : kinding.Obeys nested)
include hN

section

variable (hw : KindedTale g w)
include hw

/-- The value is converted to the kind of the spot, and the link root has the same kind. -/
theorem kinding_write (spot : Spot) (v : Value) :
    kinding.Keeps nested g w (Component.write spot v) := by
  obtain ⟨hlt, hkind⟩ := hw.kind_cellAt spot
  refine .ask hw fun hn => ?_
  dsimp only
  cases hv : v.coerceTo
      ((w.host.1.table spot.component spot.node).decls.getD spot.slot default).kind with
  | error e => exact .view_then hn fun hn => .ret hn trivial
  | ok v =>
    have hfits : v.Fits (kindAt g (w.host.1.cellAt spot)) := by
      rw [hkind]
      exact Value.coerceTo_fits hv
    obtain ⟨hroot, hkroot⟩ := hw.store.linkRoot hlt
    refine .view_then hn fun hn => .ask hn fun hn => ?_
    split
    · rename_i a ha
      have hmoves : Moves w a (w.store.linkRoot (w.host.1.cellAt spot)) :=
        hw.scene.moves _ _ _ (mem_of_lookup ha)
      refine .seq_ret (kinding_setTransition hN hn hmoves ⟨hroot, ?_⟩)
      rw [hkroot]
      exact hfits
    · exact .seq_ret (kinding_set hN hn ⟨hlt, hfits⟩)

/-! ## Repeaters -/

omit hN in
/-- Whatever else changes in a repeater, its instances are rows. -/
theorem kinding_modifyRepeater (r : RepeaterId) {f : Repeater U → Repeater U}
    (h : (f (w.host.1.repeater r)).Kinded g w.host.1.IsRow) :
    kinding.Keeps nested g w (Repeater.modify r f) :=
  .change hw fun hn => KindedTale.modifyRepeater hn r h

omit hN in
theorem KindedTale.fits_flag (r : RepeaterId) (b : Bool) :
    FitsAt g (w.host.1.repeater r).flag (.bool b) := by
  obtain ⟨hlt, hrole⟩ := (hw.scene.repeaters r).flag
  refine ⟨hlt, ?_⟩
  rw [kindAt, hrole]
  exact Value.fits_void _

theorem kinding_markStale (r : RepeaterId) :
    kinding.Keeps nested g w (Repeater.markStale r) := by
  refine .ask hw fun hn => ?_
  split
  · exact .ret hn trivial
  · exact kinding_set hN hn (hw.fits_flag r true)

theorem kinding_evaluateModel (r : RepeaterId) :
    kinding.Keeps nested g w (Repeater.evaluateModel r) := by
  refine .ask hw fun hn => ?_
  dsimp only [id]
  cases (w.host.1.repeater r).expression with
  | none => exact .ret hn trivial
  | some code =>
    refine .seq (.track hn (fun _ => trivial) trivial
      (fun w' _ hw' => .perform hN hw' fun _ => code.known _)
      fun _ _ _ _ _ _ h => h) fun g1 w1 result _ hw1 _ => ?_
    cases result with
    | done m => exact .ret hw1 trivial
    | skipped => exact .ret hw1 trivial
    | failed e =>
      refine .ask hw1 fun hn => ?_
      refine .seq (.record _ hn) fun _ _ _ _ hw2 _ => ?_
      exact .host hw2 fun hn => ⟨_, kinding_ok.refl .., hn, trivial⟩

omit hN in
theorem kinding_attach (m : Model) (p : Peer) :
    kinding.Keeps nested g w (m.attach p) := by
  cases m with
  | vector m =>
    have hprune : kinding.Keeps nested g w (discard (VectorModel.prune m)) :=
      .seq_ret (kinding_apart (fun _ => ⟨rfl, rfl, rfl, rfl, rfl, rfl⟩) hw)
    refine .seq hprune fun _ _ _ _ hw' _ => ?_
    exact kinding_apart (fun _ => ⟨rfl, rfl, rfl, rfl, rfl, rfl⟩) hw'
  | count n => exact .ret hw trivial
  | cyclic n vs => exact .ret hw trivial

theorem kinding_refreshModel (r : RepeaterId) :
    kinding.Keeps nested g w (Repeater.refreshModel r) := by
  refine .ask hw fun hn => .view_then hn fun hn => ?_
  split
  · refine .seq (kinding_evaluateModel hN hn r) fun g1 w1 m _ hw1 _ => ?_
    refine .ask hw1 fun hn => ?_
    split
    · exact .ret hn trivial
    refine .seq (kinding_modifyRepeater hn r
      { hw1.scene.repeaters r with }) fun g2 w2 _ _ hw2 _ => ?_
    have hstale : ∀ {g' w'}, KindedTale g' w' → kinding.Runs nested g' w'
        (Repeater.modify r fun x =>
          { x with staleRows := x.staleRows.change (·.map fun _ => true) }) fun _ _ _ => True :=
      fun hw' => kinding_modifyRepeater hw' r { hw'.scene.repeaters r with }
    cases m with
    | none => exact hstale hw2
    | some m =>
      exact .seq (kinding_attach hw2 m _) fun _ _ _ _ hw3 _ => hstale hw3
  · exact .ret hn trivial

omit hN in
theorem kinding_shrink (r : RepeaterId) (n : Nat) :
    kinding.Keeps nested g w (Repeater.shrink r n) := by
  refine .ask hw fun hn => ?_
  split
  · refine .seq (.forM hn fun h _ _ _ _ hw' =>
      kinding_release hw' h) fun g1 w1 _ _ hw1 _ => ?_
    have hkinded := hw1.scene.repeaters r
    refine kinding_modifyRepeater hw1 r { hkinded with instances := fun h hh => ?_ }
    have hmem : h ∈ (w1.host.1.repeater r).instances.list.take n := hh
    simp only [Array.take_eq_extract, Array.mem_extract_iff_getElem] at hmem
    obtain ⟨k, hk, rfl⟩ := hmem
    exact hkinded.instances _ (Array.getElem_mem _)
  · exact .ret hn trivial

theorem kinding_grow (r : RepeaterId) (n limit : Nat) :
    kinding.Keeps nested g w (Repeater.grow r n limit) := by
  induction limit generalizing g w with
  | zero => exact .ret hw trivial
  | succ limit ih =>
    have hkinded := hw.scene.repeaters r
    refine .ask hw fun hn => ?_
    split
    · refine .seq (kinding_build hN hn hkinded.made hkinded.rowed _ none)
        fun g1 w1 c _ hw1 hc => ?_
      refine .seq (kinding_newHandle hw1 hc.1 hc.2) fun g2 w2 h _ hw2 hrow => ?_
      have hkinded2 := hw2.scene.repeaters r
      refine .seq (kinding_modifyRepeater hw2 r
        { hkinded2 with instances := fun i hi => ?_ }) fun _ _ _ _ hw3 _ => ih hw3
      rw [Shelf.list_push] at hi
      rcases Array.mem_push.1 hi with hi | rfl
      · exact hkinded2.instances i hi
      · exact hrow hkinded.declared
    · exact .ret hn trivial

omit hN in
theorem kinding_rowCell (c : ComponentId) (name : String) :
    kinding.Runs nested g w (Repeater.rowCell c name) fun g' _ cell =>
      cell < g'.length ∧ ∃ decl ∈ (w.host.1.component c).scope.decls,
        decl.name = name ∧ kindAt g' cell = decl.kind := by
  refine .ask hw fun hn => ?_
  cases hslot : (w.host.1.component c).scope.slot? name with
  | none => exact .panic hn trivial
  | some i =>
    obtain ⟨decl, hdecl, hname⟩ := name_of_index? hslot
    obtain ⟨hlt, hkind⟩ := hw.kind_cellAt ⟨c, none, i⟩
    refine .ret hn ⟨hlt, decl, List.mem_of_getElem? hdecl, hname, ?_⟩
    refine hkind.trans ?_
    simp only [Scene.table, List.getD_eq_getElem?_getD, hdecl]
    rfl

theorem kinding_numberRow (r : RepeaterId) (i : Nat) {c : ComponentId}
    (hrow : RowDecls (w.host.1.component c).scope.decls) : kinding.Runs nested g w (do
      .set (← Repeater.rowCell c "index") (.int (Int64.ofNat i))
      let n ← Repeater.read r (·.staleRows.size)
      if i < n then Repeater.modify r fun x =>
          { x with staleRows := x.staleRows.change (·.setIfInBounds i false) }
      else SceneM.outOfRange i n) fun _ _ _ => True := by
  refine .seq (kinding_rowCell hw c "index") fun g1 w1 cell _ hw1 hcell => ?_
  obtain ⟨hlt, decl, hmem, hname, hkind⟩ := hcell
  have hint : kindAt g1 cell = .int := hkind.trans ((hrow decl hmem).2 hname)
  refine .seq (kinding_set hN hw1 ⟨hlt, .inr hint.symm⟩)
    fun g2 w2 _ _ hw2 _ => ?_
  refine .ask hw2 fun hn => ?_
  split
  · exact kinding_modifyRepeater hn r { hw2.scene.repeaters r with }
  · exact .panic hn trivial

theorem kinding_refreshRow (r : RepeaterId) (i : Nat) :
    kinding.Keeps nested g w (Repeater.refreshRow r i) := by
  have hkinded := hw.scene.repeaters r
  refine .ask hw fun hn => ?_
  dsimp only [id]
  cases hi : (w.host.1.repeater r).instances.list[i]? with
  | none => exact .panic hn trivial
  | some h =>
    have hrow := hkinded.instances h (Array.mem_of_getElem? hi)
    refine .ask hn fun hn => ?_
    refine .seq (kinding_rowCell hn _ "model_data") fun g1 w1 data hle1 hw1 hdata => ?_
    obtain ⟨hlt, decl, hmem, hname, hkind⟩ := hdata
    have hvoid : kindAt g1 data = .void := hkind.trans ((hrow.2.2 decl hmem).1 hname)
    have hlater : ∀ {g' w'}, KindedLater g w g' w' →
        RowDecls (w'.host.1.component (w.host.1.handle h).component).scope.decls := by
      intro g' w' hle
      have hsame : (w'.host.1.component _).scope.decls = _ := hle.scene.decls _ hrow.2.1 none
      rw [hsame]
      exact hrow.2.2
    have hle1 : KindedLater g w g1 w1 := ⟨hle1.roles, hle1.kept, hle1.scene⟩
    cases (w.host.1.repeater r).model with
    | none =>
      exact .seq (P := fun _ _ _ => True) (.panic hw1 trivial)
        fun _ _ _ hle2 hw2 _ => kinding_numberRow hN hw2 r i (hlater (kinding_ok.trans hle1 hle2))
    | some m =>
      refine .ask hw1 fun hn => ?_
      refine .seq (kinding_set hN hn ⟨hlt, .inl hvoid⟩) fun _ _ _ hle2 hw2 _ => ?_
      exact kinding_numberRow hN hw2 r i
        (hlater (kinding_ok.trans hle1 ⟨hle2.roles, hle2.kept, hle2.scene⟩))

theorem kinding_refreshRows (r : RepeaterId) :
    kinding.Keeps nested g w (Repeater.refreshRows r) := by
  refine .ask hw fun hn => .forM hn fun i _ _ _ _ hw' => ?_
  refine .ask hw' fun hn => ?_
  split
  · exact kinding_refreshRow hN hn r i
  · exact .ret hn trivial

theorem kinding_update (r : RepeaterId) :
    kinding.Keeps nested g w (Repeater.update r) := by
  refine .seq (kinding_refreshModel hN hw r) fun _ _ _ _ hw1 _ => ?_
  refine .ask hw1 fun hn => ?_
  refine .seq (kinding_shrink hn r _) fun _ _ _ _ hw2 _ => ?_
  exact .seq (kinding_grow hN hw2 r ..) fun _ _ _ _ hw3 _ =>
    kinding_refreshRows hN hw3 r

theorem kinding_ensureUpdated (r : RepeaterId) :
    kinding.Keeps nested g w (Repeater.ensureUpdated r) := by
  refine .ask hw fun hn => ?_
  split
  · exact .ret hn trivial
  refine .seq (kinding_peek hN hn _) fun g1 w1 needed hle1 hw1 _ => ?_
  have hfinish : ∀ {g' w'}, KindedTale g' w' → kinding.Keeps nested g' w'
      (discard (Act.get (w.host.1.repeater r).flag)) := fun hw' =>
    .seq_ret (kinding_get hN hw' _)
  split
  · refine .seq (kinding_update hN hw1 r) fun g2 w2 _ hle2 hw2 _ => ?_
    exact .seq
      (kinding_set hN hw2 ((hw.fits_flag r false).mono (hle1.roles.trans hle2.roles)))
      fun _ _ _ _ hw3 _ => hfinish hw3
  · exact hfinish hw1

end

end Nested

end ReactiveTree
