import ReactiveTree.Proofs.Scene.LastingWindows

/-!
# Updates of repeaters

An update releases the rows that are too many and builds those that are missing. `Passes` is the
order of worlds for all that a scene can go through: it says which instances can have ended and
which repeaters can have other rows, so that a program knows what an update leaves alone. An update
keeps the invariant of lifetimes and ends only what the rows held at its start
(`living_ensureUpdated`).
-/

namespace ReactiveTree

open Store

variable {α U X : Type} {gone gone' : ComponentId → Prop} {turned turned' : RepeaterId → Prop}
variable {r : RepeaterId} {s t : Scene U X}

/-- The second world is a later one. Of the instances there were only those in `gone` have ended
since, and only the repeaters in `turned` have other rows. -/
structure Passes (gone : ComponentId → Prop) (turned : RepeaterId → Prop) (store : Store (Code U))
    (s : Scene U X) (store' : Store (Code U)) (t : Scene U X) : Prop where
  kept : Kept store store'
  components : s.components.size ≤ t.components.size
  outer : ∀ c < s.components.size, (t.component c).outer = (s.component c).outer
  host : ∀ c < s.components.size, (t.component c).host = (s.component c).host
  window : ∀ c < s.components.size, (t.component c).window = (s.component c).window
  parent : ∀ it : ItemRef, it.component < s.components.size →
    (t.item it).parent = (s.item it).parent
  destroyed : ∀ c < s.components.size, (s.component c).destroyed = true →
    (t.component c).destroyed = true
  spared : ∀ c < s.components.size, ¬gone c → (t.component c).destroyed = (s.component c).destroyed
  handles : s.handles.size ≤ t.handles.size
  handle : ∀ k < s.handles.size, (t.handle k).component = (s.handle k).component
  repeaters : s.repeaters.size ≤ t.repeaters.size
  repeater : ∀ r < s.repeaters.size, (t.repeater r).host = (s.repeater r).host
  rows : ∀ r < s.repeaters.size, ¬turned r → (t.repeater r).instances = (s.repeater r).instances

namespace Passes

variable {store store' store'' : Store (Code U)} {s t u : Scene U X}

theorem of_grows (h : Grows store s store' t) : Passes gone turned store s store' t where
  kept := h.kept
  components := h.scene.components
  outer c hc := (h.scene.component c hc).outer
  host c hc := (h.scene.component c hc).host
  window c hc := (h.scene.component c hc).window
  parent it hit := (h.scene.item it hit).parent
  destroyed c hc hd := (h.scene.component c hc).destroyed.trans hd
  spared c hc _ := (h.scene.component c hc).destroyed
  handles := Nat.le_of_eq (by rw [h.scene.handles])
  handle k _ := by rw [Scene.handle, Scene.handle, h.scene.handles]
  repeaters := h.scene.repeaters
  repeater r hr := (h.scene.repeater r hr).host
  rows r hr _ := (h.scene.repeater r hr).instances

theorem of_ebbs (h : Ebbs gone store s store' t)
    (hturned : ∀ r, gone (s.repeater r).host.component → turned r) :
    Passes gone turned store s store' t where
  kept := h.kept
  components := Nat.le_of_eq h.recounted.size.symm
  outer c _ := h.recounted.outer c
  host c _ := h.recounted.host c
  window c _ := h.recounted.window c
  parent it _ := by rw [h.recounted.item]
  destroyed _ _ hd := h.destroyed hd
  spared c _ hc := by rw [h.component hc]
  handles := Nat.le_of_eq h.handles.symm
  handle k _ := h.handle k
  repeaters := Nat.le_of_eq h.repeaters.symm
  repeater r _ := (h.repeater r).host
  rows r _ hr := by rw [h.other fun hx => hr (hturned r hx)]

theorem trans (h : Passes gone turned store s store' t)
    (h' : Passes gone turned store' t store'' u) : Passes gone turned store s store'' u where
  kept := h.kept.trans h'.kept
  components := h.components.trans h'.components
  outer c hc := (h'.outer c (hc.trans_le h.components)).trans (h.outer c hc)
  host c hc := (h'.host c (hc.trans_le h.components)).trans (h.host c hc)
  window c hc := (h'.window c (hc.trans_le h.components)).trans (h.window c hc)
  parent it hit := (h'.parent it (hit.trans_le h.components)).trans (h.parent it hit)
  destroyed c hc hd := h'.destroyed c (hc.trans_le h.components) (h.destroyed c hc hd)
  spared c hc hg := (h'.spared c (hc.trans_le h.components) hg).trans (h.spared c hc hg)
  handles := h.handles.trans h'.handles
  handle k hk := (h'.handle k (hk.trans_le h.handles)).trans (h.handle k hk)
  repeaters := h.repeaters.trans h'.repeaters
  repeater r hr := (h'.repeater r (hr.trans_le h.repeaters)).trans (h.repeater r hr)
  rows r hr hq := (h'.rows r (hr.trans_le h.repeaters) hq).trans (h.rows r hr hq)

theorem mono (h : Passes gone turned store s store' t) (hg : ∀ e, gone e → gone' e)
    (ht : ∀ r, turned r → turned' r) : Passes gone' turned' store s store' t :=
  { h with
    spared := fun c hc hx => h.spared c hc fun hy => hx (hg c hy)
    rows := fun r hr hx => h.rows r hr fun hy => hx (ht r hy) }

theorem of_addHandle (store : Store (Code U)) (s : Scene U X) (c : ComponentId) :
    Passes gone turned store s store (s.addHandle c) := by
  have hdestroyed := s.destroyed_addHandle c
  have hsize : (s.addHandle c).handles.size = s.handles.size + 1 := Array.size_push ..
  have hrecount := s.recounted_addHandle c
  constructor
  case kept => exact .refl _
  case components => exact Nat.le_of_eq hrecount.size.symm
  case outer => exact fun e _ => hrecount.outer e
  case host => exact fun e _ => hrecount.host e
  case window => exact fun e _ => hrecount.window e
  case parent => exact fun it _ => congrArg Item.parent (hrecount.item it)
  case destroyed => exact fun e _ hd => (hdestroyed e).trans hd
  case spared => exact fun e _ _ => hdestroyed e
  case handles => rw [hsize]; exact Nat.le_succ _
  case handle =>
    intro k hk
    rw [Scene.handle_addHandle, if_neg hk.ne]
  case repeaters => exact Nat.le_refl _
  case repeater => exact fun _ _ => rfl
  case rows => exact fun _ _ _ => rfl

theorem of_repeater (store : Store (Code U)) (s : Scene U X) (hr : turned r)
    {f : Repeater U → Repeater U} (hf : ∀ x, (f x).host = x.host) :
    Passes gone turned store s store (s.modifyRepeater r f) := by
  have h : Passes gone turned store s store s := of_grows (Stays.refl store s).grows
  refine { h with
    repeaters := Nat.le_of_eq Array.size_modify.symm
    repeater := fun q _ => ?_
    rows := fun q _ hq => ?_ }
  · rw [Scene.repeater_modify]
    split
    · exact hf _
    · rfl
  · rw [Scene.repeater_modify, if_neg]
    rintro ⟨rfl, -⟩
    exact hq hr

end Passes

instance onward_passes (gone : ComponentId → Prop) (turned : RepeaterId → Prop) :
    Onward (U := U) (X := X) (Passes gone turned) :=
  ⟨fun h => .of_grows h.grows, Passes.trans, Passes.kept⟩

section

variable {nested : SceneNested U X} {w : SceneTale U X} (hN : lasting.Obeys nested)

include hN in
theorem lasting_evaluateModel (hw : w.Sound) (r : RepeaterId) :
    lasting.Keeps nested () w (Repeater.evaluateModel r) := by
  refine .ask hw fun hn => ?_
  dsimp only [id]
  cases (w.host.1.repeater r).expression with
  | none => exact .ret hn trivial
  | some code =>
    refine .seq (.track hn (fun _ => trivial) trivial
      (fun w' _ hw' => .perform hN hw' fun _ => code.known _)
      fun _ _ _ _ _ _ h => h) fun _ w' result _ hw' _ => ?_
    cases result with
    | done m => exact .ret hw' trivial
    | skipped => exact .ret hw' trivial
    | failed e =>
      refine .ask hw' fun hn' => ?_
      exact .seq (.record _ hn') fun _ _ _ _ hw'' _ =>
        lasting_idle (.ask _) hw''

include hN in
theorem lasting_refreshModel (hw : w.Sound) (r : RepeaterId) :
    lasting.Keeps nested () w (Repeater.refreshModel r) := by
  refine .ask hw fun hn => .view_then hn fun hn => ?_
  split
  · refine .seq (lasting_evaluateModel hN hn r) fun _ w1 m _ hw1 _ => ?_
    refine .ask hw1 fun hn => ?_
    split
    · exact .ret hn trivial
    refine .seq
      (lasting_modifyRepeater hn r fun _ => ⟨rfl, rfl, rfl, rfl, rfl, rfl⟩) fun _ w2 _ _ hw2 _ => ?_
    have hend {w : SceneTale U X} (hw : w.Sound) :
        lasting.Runs nested () w (Repeater.modify r fun x =>
          { x with staleRows := x.staleRows.change (·.map fun _ => true) }) fun _ _ _ => True :=
      lasting_modifyRepeater hw r fun _ => ⟨rfl, rfl, rfl, rfl, rfl, rfl⟩
    cases m with
    | none => exact hend hw2
    | some m =>
      refine .seq (lasting_gently hN ?_ hw2)
        fun _ _ _ _ hw3 _ => hend hw3
      cases m with
      | vector m => exact .attach .vectors m _
      | count n => exact .pure _
      | cyclic n vs => exact .pure _
  · exact .ret hn trivial

include hN in
theorem lasting_refreshRow (hw : w.Sound) (r : RepeaterId) (i : Nat) :
    lasting.Keeps nested () w (Repeater.refreshRow r i) := by
  have hrowCell (c : ComponentId) (name : String) :
      Act.Composed (fun _ _ => False) (Repeater.rowCell (U := U) (X := X) c name) := by
    refine .asks fun component => ?_
    cases component.scope.slot? name with
    | none => exact .panic _
    | some i => exact .pure _
  refine .ask hw fun hn => ?_
  split
  · exact .panic hn trivial
  refine .ask hn fun hn => ?_
  refine .seq (lasting_idle (hrowCell ..) hn) fun _ w1 data _ hw1 _ => ?_
  have hfinish {w : SceneTale U X} (hw : w.Sound) (c : ComponentId) :
      lasting.Runs nested () w (do
        .set (← Repeater.rowCell c "index") (.int (Int64.ofNat i))
        let n ← Repeater.read r (·.staleRows.size)
        if i < n then
          Repeater.modify r fun x =>
            { x with staleRows := x.staleRows.change (·.setIfInBounds i false) }
        else SceneM.outOfRange i n) fun _ _ _ => True := by
    refine .seq (lasting_idle (hrowCell ..) hw) fun _ w1 cell _ hw1 _ => ?_
    refine .seq (lasting_set hN hw1 ..) fun _ w2 _ _ hw2 _ => ?_
    refine .ask hw2 fun hn => ?_
    split
    · exact lasting_modifyRepeater hn r fun _ => ⟨rfl, rfl, rfl, rfl, rfl, rfl⟩
    · exact .panic hn trivial
  split
  · exact .seq (.panic (Q := fun _ _ _ => True) hw1 trivial)
      fun _ _ _ _ hw2 _ => hfinish hw2 _
  · refine .ask hw1 fun hn => ?_
    exact .seq (lasting_set hN hn ..) fun _ _ _ _ hw2 _ => hfinish hw2 _

include hN in
theorem lasting_refreshRows (hw : w.Sound) (r : RepeaterId) :
    lasting.Keeps nested () w (Repeater.refreshRows r) := by
  refine .ask hw fun hn => ?_
  refine .forM hn fun i _ _ w1 _ hw1 => .ask hw1 fun hn => ?_
  split
  · exact lasting_refreshRow hN hn r i
  · exact .ret hn trivial

/-! ## Rows -/

/-- The repeater stands: it has not ended. -/
def Scene.Upholds (s : Scene U X) (r : RepeaterId) : Prop :=
  r < s.repeaters.size ∧ (s.repeater r).released = false

theorem Scene.Upholds.grows (h : s.Upholds r) (hle : s.Grows t) : t.Upholds r :=
  ⟨h.1.trans_le hle.repeaters, (hle.repeater r h.1).released.trans h.2⟩

theorem Scene.Tree.host_lt (h : s.Tree) (hr : r < s.repeaters.size) :
    (s.repeater r).host.component < s.components.size := by
  have hmem := h.hosted hr
  by_contra hge
  have hdefault : s.item (s.repeater r).host = default := by
    rw [Scene.item, Scene.component, getD_of_size_le (not_lt.1 hge)]
    exact getD_of_size_le (Nat.zero_le _) _
  rw [hdefault] at hmem
  cases hmem

/-- What was repeated by the rows of a repeater, and what came later. -/
def Scene.RowsEnd (s : Scene U X) (r : RepeaterId) (e : ComponentId) : Prop :=
  s.components.size ≤ e ∨ ∃ k ∈ s.rows r, s.Within (s.handle k).component e

/-- The repeaters whose rows change with those of `r`. -/
def Scene.RowsTurn (s : Scene U X) (r q : RepeaterId) : Prop :=
  s.repeaters.size ≤ q ∨ q = r ∨ s.RowsEnd r (s.repeater q).host.component

theorem shrink_completes (hw : w.Sound) (hr : w.host.1.Upholds r)
    (n : Nat) : (Repeater.shrink r n).Completes nested w fun w' _ => w'.Sound ∧
      Passes (w.host.1.RowsEnd r) (w.host.1.RowsTurn r) w.store w.host.1 w'.store w'.host.1 ∧
      w'.host.1.Upholds r := by
  refine Act.completes_ask ?_
  split
  swap
  · exact Act.completes_pure ⟨hw, .of_grows (Stays.refl ..).grows, hr⟩
  set x := w.host.1.repeater r with hx
  have hsplit :
      w.host.1.rows r = x.instances.list.toList.take n ++ x.instances.list.toList.drop n :=
    (List.take_append_drop ..).symm
  have hdrop : (x.instances.list.drop n).toList = x.instances.list.toList.drop n := by simp
  rw [hdrop]
  have hks : ∀ k ∈ x.instances.list.toList.drop n, k ∈ w.host.1.rows r := fun k hk => by
    rw [hsplit]
    exact List.mem_append_right _ hk
  refine .bind (releaseRows_completes (release_releases w.host.1.components.size)
    (w := w.beat) (hw.give r) ?_ hks) fun w1 _ h => ?_
  · exact (Nat.le_add_right ..).trans (Nat.le_add_right ..)
  obtain ⟨hw1, hebb, hsame, hreleased, hothers⟩ := h
  have hsame : w1.host.1.repeater r = x := hsame
  have hebb : Ebbs (w.host.1.RowsEnd r) w.store w.host.1 w1.store w1.host.1 :=
    hebb.mono fun e ⟨k, hk, hwithin⟩ => .inr ⟨k, hks k hk, hwithin⟩
  have hpass :
      Passes (w.host.1.RowsEnd r) (w.host.1.RowsTurn r) w.store w.host.1 w1.store w1.host.1 :=
    .of_ebbs hebb fun q hq => .inr (.inr hq)
  set cut : Repeater U → Repeater U := fun x =>
    { x with instances := x.instances.truncate n, staleRows := x.staleRows.cut n }
  have hcut :
      (cut (w1.host.1.repeater r)).instances.list.toList = x.instances.list.toList.take n := by
    rw [hsame]
    simp [cut, Shelf.truncate]
  have hrows : w1.host.1.rows r = w.host.1.rows r := by
    rw [Scene.rows, hsame]
    rfl
  refine Act.completes_change ⟨Living.setRows (fun _ => ⟨rfl, rfl, rfl, rfl⟩) hw1
    (fun _ => rfl) ?_ (fun k hk hnot => ?_) fun _ k hk => ?_, hpass.trans ?_, ?_⟩
  · rw [hcut, hrows]
    exact List.take_sublist ..
  · rw [hcut] at hnot
    rw [hrows, hsplit] at hk
    exact hreleased k ((List.mem_append.1 hk).resolve_left hnot)
  · rw [hcut] at hk
    have hmem : k ∈ w.host.1.rows r := by
      rw [hsplit]
      exact List.mem_append_left _ hk
    have hnodup := hw.counts.nodup r
    rw [hsplit] at hnodup
    rw [hothers k hmem fun hin => (List.disjoint_of_nodup_append hnodup) hk hin]
    exact hw.counts.unreleased (fun h => h) hmem
  · exact .of_repeater _ _ (.inr (.inl rfl)) fun _ => rfl
  · refine ⟨Nat.lt_of_lt_of_eq (hebb.repeaters ▸ hr.1) Array.size_modify.symm, ?_⟩
    show ((w1.host.1.modifyRepeater r cut).repeater r).released = false
    rw [Scene.repeater_modify]
    split
    · rw [hsame]
      exact hr.2
    · rw [hsame]
      exact hr.2

theorem Scene.RowsTurn.self (s : Scene U X) (r : RepeaterId) : s.RowsTurn r r := .inr (.inl rfl)

theorem addRow_completes (hw : w.Sound) (hr : w.host.1.Upholds r)
    {c : ComponentId} (hc : c < w.host.1.components.size)
    (hlive : (w.host.1.component c).destroyed = false) (hhanded : ¬w.host.1.Handed c)
    (hhost : (w.host.1.component c).host = some (w.host.1.repeater r).host) (hturned : turned r) :
    (do
      let h ← Component.newHandle c
      Repeater.modify r fun x =>
        { x with
          instances := x.instances.push Room.ofReferences h
          staleRows := x.staleRows.push Room.ofFlags true } : SceneM U X Unit).Completes nested w
      fun w' _ => w'.Sound ∧
        Passes gone turned w.store w.host.1 w'.store w'.host.1 ∧ w'.host.1.Upholds r := by
  refine .bind (Act.completes_host (Q := fun w1 k => w1.store = w.store ∧
    w1.host.1 = w.host.1.addHandle c ∧ k = w.host.1.handles.size) ⟨rfl, rfl, rfl⟩) fun w1 k h => ?_
  obtain ⟨hstore, hhost1, rfl⟩ := h
  refine Act.completes_change ?_
  show Sound w1.store (w1.host.1.modifyRepeater r _) ∧
    Passes gone turned w.store w.host.1 w1.store (w1.host.1.modifyRepeater r _) ∧
    (w1.host.1.modifyRepeater r _).Upholds r
  rw [hstore, hhost1]
  refine ⟨hw.addRow hr.1 hr.2 hc hlive (fun h => h) hhanded hhost,
    (Passes.of_addHandle ..).trans (.of_repeater _ _ hturned fun _ => rfl),
    Nat.lt_of_lt_of_eq hr.1 Array.size_modify.symm, ?_⟩
  rw [Scene.repeater_modify]
  split
  · exact hr.2
  · exact hr.2

include hN in
theorem living_grow (hw : w.Sound) (hr : w.host.1.Upholds r) (hturned : turned r)
    (n limit : Nat) :
    (living (Passes gone turned)).Keeps nested () w (Repeater.grow r n limit) := by
  induction limit generalizing w with
  | zero => exact .ret hw trivial
  | succ limit ih =>
    refine .ask hw fun hn => ?_
    split
    swap
    · exact .ret hn trivial
    -- the build may run code, which keeps the repeater and its rows
    refine .seq (P := fun _ w' c => Grows w.store w.host.1 w'.store w'.host.1 ∧
      Standing (w.host.1.repeater r).sub w'.store w'.host.1 c ∧ w.host.1.components.size ≤ c ∧
      (w'.host.1.component c).host = some (w.host.1.repeater r).host) ?_ fun _ w1 c _ hw1 h => ?_
    · refine living_mono (fun h => Passes.of_grows h) ((building_build hN hn (hw.tree.sub r)
        (fun it hit => ?_) none).mono fun _ w' c hle _ h => ⟨hle, h⟩)
      cases hit
      exact hw.tree.host_lt hr.1
    obtain ⟨hgrows, hstanding, hnew, hhost⟩ := h
    have hr1 := hr.grows hgrows.scene
    have hhanded : ¬w1.host.1.Handed c := by
      rintro ⟨k, hk, rfl⟩
      rw [Scene.handle, hgrows.scene.handles] at hnew
      rw [hgrows.scene.handles] at hk
      exact absurd (hw.tree.handle hk) hnew.not_gt
    show (living (Passes gone turned)).Goes () w1 _ (Act.tell nested _ w1)
    rw [← Act.tell_bind_assoc (Component.newHandle c) (fun h => Repeater.modify r fun x =>
      { x with
        instances := x.instances.push Room.ofReferences h
        staleRows := x.staleRows.push Room.ofFlags true }) fun _ => Repeater.grow r n limit]
    refine Regime.Runs.seq ((addRow_completes hw1 hr1 hstanding.lt hstanding.alive hhanded ?_
      hturned).keeps fun w' _ h => ⟨h.2.1, h.1⟩) fun _ w2 _ _ hw2 h => ih hw2 h.2.2
    rw [hhost, (hgrows.scene.repeater r hr.1).host]

theorem Scene.Stays.rowsEnd (h : s.Stays t)
    (hr : r < s.repeaters.size) (e : ComponentId) : t.RowsEnd r e ↔ s.RowsEnd r e := by
  have hrows : t.rows r = s.rows r := by
    rw [Scene.rows, Scene.rows, (h.repeater r hr).instances]
  unfold RowsEnd Within
  rw [hrows]
  simp only [Scene.component, Scene.handle, h.components, h.handles]

theorem Scene.Stays.rowsTurn (h : s.Stays t)
    (hr : r < s.repeaters.size) (q : RepeaterId) : t.RowsTurn r q ↔ s.RowsTurn r q := by
  unfold RowsTurn
  rw [h.repeaters]
  by_cases hq : q < s.repeaters.size
  · rw [(h.repeater q hq).host, h.rowsEnd hr]
  · simp [not_lt.1 hq]

include hN in
theorem living_update (hw : w.Sound) (hr : w.host.1.Upholds r) :
    (living (Passes (w.host.1.RowsEnd r) (w.host.1.RowsTurn r))).Keeps nested () w
      (Repeater.update r) := by
  refine living_then (lasting_refreshModel hN hw r) fun w1 _ hstays hw1 _ => ?_
  refine .ask hw1 fun hn => ?_
  have hr1 : w1.host.1.Upholds r := hr.grows hstays.scene.grows
  refine .seq ((shrink_completes hn hr1 _).keeps
    fun w' _ h => ⟨h.2.1.mono (fun e he => ?_) fun q hq => ?_, h.1⟩) fun _ w2 _ _ hw2 h => ?_
  · exact (hstays.scene.rowsEnd hr.1 e).1 he
  · exact (hstays.scene.rowsTurn hr.1 q).1 hq
  · exact .seq (living_grow hN hw2 h.2.2 (.self _ r) _ _) fun _ w3 _ _ hw3 _ =>
      living_lasting (lasting_refreshRows hN hw3 r)

include hN in
theorem living_ensureUpdated (hw : w.Sound) (hr : r < w.host.1.repeaters.size) :
    (living (Passes (w.host.1.RowsEnd r) (w.host.1.RowsTurn r))).Keeps nested () w
      (Repeater.ensureUpdated r) := by
  refine .ask hw fun hn => ?_
  split
  · exact .ret hn trivial
  rename_i hopen
  have hup : w.host.1.Upholds r := ⟨hr, by simpa using hopen⟩
  refine living_then (lasting_peek hN hn _) fun w1 v hstays hw1 _ => ?_
  have hread {w' : SceneTale U X} (hw' : w'.Sound) (flag : CellId) :
      lasting.Keeps nested () w' (discard (Act.get flag)) :=
    .seq_ret (lasting_get hN hw' flag)
  split
  · have hup1 : w1.host.1.Upholds r := hup.grows hstays.scene.grows
    have hupdate := living_mono (fun h => h.mono (fun e => (hstays.scene.rowsEnd hr e).1)
      fun q => (hstays.scene.rowsTurn hr q).1) (living_update hN hw1 hup1)
    refine .seq hupdate fun _ w2 _ _ hw2 _ => ?_
    exact living_then (lasting_set hN hw2 ..) fun w3 _ _ hw3 _ =>
      living_lasting (hread hw3 _)
  · exact living_lasting (hread hw1 _)

end

/-! ## Updates that miss a change -/

namespace Board

def row : Definition Bool := ({ name := "Row" } : Definition Bool).root 4 "cell"

/-- A row whose data is linked to its number. -/
def linkedRow : Definition Bool :=
  row |>.declare "model_data" .int (.int 0) |>.declare "index" .int (.int 0)
    |>.twoWay "" "model_data" "" "index"

/-- Four repeaters: over a vector of its own, over a count that reads itself at first, and two over
one vector or the other. -/
def board : Definition Bool :=
  let d := ({ name := "Board" } : Definition Bool).root 0 "root"
    |>.declare "on" .bool (.bool true) |>.declare "n" .int (.int 0) |>.bind "" "n" (.user true)
  let d := (d.repeatRows "root" row (some (.rows [.int 10]))).1
  let d := (d.repeatRows "root" row (some (.countOf { prop := "n" }))).1
  let d := (d.repeatRows "root" row (some (.user true))).1
  (d.repeatRows "root" linkedRow (some (.user true))).1

/-- The count reads itself while the board is on; an observer pushes a row. -/
def host : Host Bool Unit where
  value reads _ _ := do
    if reads then
      if (← Component.get 0 "on") matches .ok (.bool true) then
        match ← Component.get 0 "n" with
        | .ok v => return v
        | .error _ => return .void
      else return .int 2
    else
      VectorModel.push 0 [.int 99]
      return .void
  model _ _ := do
    if (← Component.get 0 "on") matches .ok (.bool true) then return some (.vector 0)
    else return some (.vector 1)
  peer _ _ := pure ()

/-- The world after some acts on a board, with a second vector beside it. -/
def ended (acts : List (SceneM Bool Unit Unit)) : World (Scene Bool Unit) (Code Bool) :=
  Act.session (Code.meaning host) 9
    (discard (Component.instantiate board) :: discard (VectorModel.create [.int 2]) :: acts)
    (World.start () false)

def turn (on : Bool) : SceneM Bool Unit Unit := discard (Component.set 0 "on" (.bool on))

/-- The property of an instance, as it is read now. -/
def shows (w : World (Scene Bool Unit) (Code Bool)) (c : ComponentId) (name : String) (v : Value) :
    Bool :=
  match (Component.get c name).runTo (Code.meaning host) 9 w with
  | .ok (.ok x) _ => x.same v
  | _ => false

end Board

open Board in
/-- A row pushed while a row is refreshed gets no instance, and the repeater needs no update. -/
theorem row_pushed_amid_update_lost :
    let w := ended [Repeater.ensureUpdated 0, do
        discard (.observe (← Repeater.rowCell 1 "model_data") (.effect false none)),
      VectorModel.setRow 0 0 (.int 11), Repeater.ensureUpdated 0]
    (w.store.cell (w.host.repeater 0).flag).value.asBool = false ∧
      (w.host.vector 0).rows.length = 2 ∧ (w.host.repeater 0).instances.size = 1 := by
  decide +kernel

open Board in
/-- The first evaluation of the count was cut off by a cycle, and no later one is made. -/
theorem failed_model_not_followed :
    let w := ended [Repeater.ensureUpdated 1, turn false, Repeater.ensureUpdated 1]
    shows w 0 "n" (.int 2) = true ∧ (w.host.repeater 1).model.isNone = true ∧
      (w.host.repeater 1).instances.size = 0 := by
  decide +kernel

open Board in
/-- Back at the first vector, the repeater is twice among its peers. -/
theorem peer_listed_twice :
    let w := ended [Repeater.ensureUpdated 2, turn false, Repeater.ensureUpdated 2, turn true,
      Repeater.ensureUpdated 2]
    (w.host.vector 0).peers.filter (Peer.isAlive w.host 0) = [.repeater 2, .repeater 2] := by
  decide +kernel

end ReactiveTree
