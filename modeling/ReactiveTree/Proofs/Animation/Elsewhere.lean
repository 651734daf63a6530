import ReactiveTree.Proofs.Animation.Vigil

/-!
# Programs that are about something else

Whatever a program does with cells, observers and trackers of its own, or with other transitions,
a bound transition is served (`Vigil.Keeps`): what it has is left to it, and it is told when
something that its binding has read changes.
-/

namespace ReactiveTree

open Store

variable {U X : Type}
variable {c : CellId} {code : Code U Value} {f : Transition U → Transition U} {b : TransitionId}

/-! ## Changes of the store -/

/-- The tracker with its observers and the cell are the same, unless they were dropped. -/
structure Vigil.Untouched (V : Vigil) (s t : Store (Code U)) : Prop where
  live : (t.cell V.tracker).dropped = false → (s.cell V.tracker).dropped = false
  state : (t.cell V.tracker).dropped = false → (t.cell V.tracker).state = (s.cell V.tracker).state
  alerts : (t.cell V.tracker).dropped = false → t.Alerts V.tracker (.retarget V.transition) →
    s.Alerts V.tracker (.retarget V.transition)
  shown : (t.cell V.cell).dropped = false → (s.cell V.cell).dropped = false
  value : (t.cell V.cell).dropped = false → (t.cell V.cell).value = (s.cell V.cell).value

namespace Vigil.Untouched

variable {V : Vigil} {s t u : Store (Code U)}

theorem of_cells (hc : t.cells = s.cells) (ho : t.observers = s.observers) : V.Untouched s t := by
  have hcell : ∀ d, t.cell d = s.cell d := fun d => by rw [Store.cell, Store.cell, hc]
  exact ⟨fun h => hcell _ ▸ h, fun _ => by rw [hcell], fun _ h => h.same ho (by rw [hcell]),
    fun h => hcell _ ▸ h, fun _ => by rw [hcell]⟩

theorem trans (h : V.Untouched s t) (h' : V.Untouched t u) : V.Untouched s u where
  live hd := h.live (h'.live hd)
  state hd := (h'.state hd).trans (h.state (h'.live hd))
  alerts hd ha := h.alerts (h'.live hd) (h'.alerts hd ha)
  shown hd := h.shown (h'.shown hd)
  value hd := (h'.value hd).trans (h.value (h'.shown hd))

theorem add (ht : V.tracker < s.cells.size) (hx : V.cell < s.cells.size) (cell : Cell (Code U)) :
    V.Untouched s (s.add cell).2 := by
  have htracker : (s.add cell).2.cell V.tracker = s.cell V.tracker := by
    rw [cell_add, if_neg ht.ne]
  have hcell : (s.add cell).2.cell V.cell = s.cell V.cell := by
    rw [cell_add, if_neg hx.ne]
  exact ⟨fun h => htracker ▸ h, fun _ => by rw [htracker], fun _ h => h.same rfl (by rw [htracker]),
    fun h => hcell ▸ h, fun _ => by rw [hcell]⟩

/-- A new observer, of another sort. -/
theorem observe (c : CellId) {code : Code U Unit} (hcode : code ≠ .retarget V.transition) :
    V.Untouched s (s.observe c code).2 := by
  have hminor := minor_observe s c code
  have hcontent := content_observe s c code
  have hdropped : ∀ d, ((s.observe c code).2.cell d).dropped = (s.cell d).dropped := fun d =>
    congrArg Content.dropped (hcontent d)
  refine ⟨fun h => hdropped _ ▸ h, fun _ => (hminor _).state, fun _ h => ?_,
    fun h => hdropped _ ▸ h, fun _ => congrArg Content.value (hcontent _)⟩
  obtain ⟨o, hmem, x, hx, hxc, hst⟩ := h
  have hpush : (s.observers.push ⟨c, code, false⟩)[o]? = some x := hx
  rw [Array.getElem?_push] at hpush
  split at hpush
  · cases hpush
    exact absurd hxc hcode
  · rename_i ho
    refine ⟨o, ?_, x, hpush, hxc, hst⟩
    have hlist : ((s.observe c code).2.cell V.tracker).observers = (s.cell V.tracker).observers ∨
        ((s.observe c code).2.cell V.tracker).observers =
          (s.cell V.tracker).observers ++ [s.observers.size] := by
      show ((Store.modify _ c _).cell V.tracker).observers = _ ∨
        ((Store.modify _ c _).cell V.tracker).observers = _
      rw [cell_modify]
      split
      · exact .inr rfl
      · exact .inl rfl
    rcases hlist with hlist | hlist
    · exact hlist ▸ hmem
    · rw [hlist, List.mem_append, List.mem_singleton] at hmem
      exact hmem.resolve_right ho

theorem unobserve (o : ObserverId) : V.Untouched s (s.unobserve o) := by
  have hminor := minor_unobserve s o
  have hcontent := content_unobserve s o
  have hdropped : ∀ d, ((s.unobserve o).cell d).dropped = (s.cell d).dropped := fun d =>
    congrArg Content.dropped (hcontent d)
  refine ⟨fun h => hdropped _ ▸ h, fun _ => (hminor _).state, fun _ h => ?_,
    fun h => hdropped _ ▸ h, fun _ => congrArg Content.value (hcontent _)⟩
  obtain ⟨i, hmem, x, hx, hxc, hst⟩ := h
  unfold Store.unobserve at hmem hx
  split at hmem
  · rename_i hnone
    rw [hnone] at hx
    exact ⟨i, hmem, x, hx, hxc, hst⟩
  · rename_i observer hsome
    rw [hsome] at hx
    have hx : (s.observers.modify o fun x => { x with stopped := true })[i]? = some x := hx
    rw [Array.getElem?_modify] at hx
    split at hx
    · -- the one that was stopped
      obtain ⟨y, -, hy⟩ := Option.map_eq_some_iff.mp hx
      rw [← hy] at hst
      cases hst
    · refine ⟨i, ?_, x, hx, hxc, hst⟩
      rw [cell_modify] at hmem
      split at hmem
      · exact List.mem_of_mem_filter hmem
      · exact hmem

theorem drop {c : CellId} (hc : c < s.cells.size) : V.Untouched s (s.drop c) := by
  have hcell : ∀ d, ((s.drop c).cell d).dropped = false → (s.drop c).cell d = s.cell d := by
    intro d hd
    rw [cell_drop hc] at hd ⊢
    split at hd
    · split at hd
      · rename_i hdropped
        rw [show (s.cell c).dropped = false from hd] at hdropped
        cases hdropped
      · cases hd
    · rw [if_neg ‹_›]
  refine ⟨fun h => hcell _ h ▸ h, fun h => by rw [hcell _ h],
    fun h ha => ha.same (observers_drop s c) (by rw [hcell _ h]), fun h => hcell _ h ▸ h,
    fun h => by rw [hcell _ h]⟩

theorem pair (c root : CellId) : V.Untouched s (s.pair c root) := by
  have hproj {β : Type} (f : Cell (Code U) → β) (hf : ∀ cell : Cell (Code U),
      f { cell with partner := some root } = f cell) (d : CellId) :
      f ((s.pair c root).cell d) = f (s.cell d) :=
    proj_modify f hf s c d
  have hdropped := hproj Cell.dropped fun _ => rfl
  exact ⟨fun h => hdropped _ ▸ h, fun _ => hproj Cell.state (fun _ => rfl) _,
    fun _ h => h.same rfl (hproj Cell.observers (fun _ => rfl) _), fun h => hdropped _ ▸ h,
    fun _ => hproj Cell.value (fun _ => rfl) _⟩

theorem addTracker (ht : V.tracker < s.cells.size) (hx : V.cell < s.cells.size) (name : String)
    {code : Code U Unit} (hcode : code ≠ .retarget V.transition) :
    V.Untouched s (Act.addTracker s name (some code)).2 :=
  (add ht hx _).trans (observe _ hcode)

end Vigil.Untouched

/-! ## Changes of the scene -/

/-- A change of a transition that gives it neither a binding nor a tracker. -/
structure Transition.Mild (f : Transition U → Transition U) : Prop where
  binding : ∀ t, (f t).binding = none ∨ (f t).binding = t.binding
  tracker : ∀ t, (f t).tracker = none ∨ (f t).tracker = t.tracker
  cell : ∀ t, (f t).cell = t.cell

theorem Transition.Mild.kept {f : Transition U → Transition U}
    (h : ∀ t, (f t).binding = t.binding ∧ (f t).tracker = t.tracker ∧ (f t).cell = t.cell) :
    Mild f :=
  ⟨fun t => .inr (h t).1, fun t => .inr (h t).2.1, fun t => (h t).2.2⟩

namespace Scene.Bonded

variable {store : Store (Code U)} {s t : Scene U X}

theorem changed (h : s.Bonded store) (hsize : t.transitions.size = s.transitions.size)
    (hclock : t.clock.cell = s.clock.cell)
    (hb : ∀ b, (t.transition b).binding = none ∨
      (t.transition b).binding = (s.transition b).binding)
    (ht : ∀ b, (t.transition b).tracker = none ∨
      (t.transition b).tracker = (s.transition b).tracker)
    (hc : ∀ b, (t.transition b).cell = (s.transition b).cell) : t.Bonded store := by
  have htracker : ∀ b c, (t.transition b).tracker = some c → (s.transition b).tracker = some c := by
    intro b c hbc
    rcases ht b with hn | hs
    · rw [hn] at hbc
      cases hbc
    · exact hs ▸ hbc
  refine ⟨fun b code hcode => ?_, fun b c hbc => h.tracker b c (htracker b c hbc),
    fun b b' c hbc hbc' => h.apart b b' c (htracker b c hbc) (htracker b' c hbc'), fun b hlt => ?_,
    hclock.trans h.clock⟩
  · rcases hb b with hn | hs
    · rw [hn] at hcode
      cases hcode
    · exact h.binding b code (hs ▸ hcode)
  · rw [hc]
    exact h.cell b (hsize ▸ hlt)

theorem modify (h : s.Bonded store) (hf : Transition.Mild f)
    (b : TransitionId) : (s.modifyTransition b f).Bonded store := by
  refine h.changed Array.size_modify rfl (fun d => ?_) (fun d => ?_) fun d => ?_
  all_goals rw [transition_modify]
  all_goals split
  · exact hf.binding _
  · exact .inr rfl
  · exact hf.tracker _
  · exact .inr rfl
  · exact hf.cell _
  · rfl

/-- A transition gets a binding with a tracker of its own. -/
theorem bind (h : s.Bonded store) {b : TransitionId} {code : Code U Value} (hcode : code.Minds)
    {c : CellId} (hc : store.IsTracker c) (hfresh : ∀ d, (s.transition d).tracker ≠ some c) :
    (s.modifyTransition b fun x => { x with binding := some code, tracker := some c }).Bonded
      store := by
  have hget := fun d => s.transition_modify b d fun x =>
    { x with binding := some code, tracker := some c }
  have htracker : ∀ d e, ((s.modifyTransition b fun x =>
      { x with binding := some code, tracker := some c }).transition d).tracker = some e →
      d = b ∧ e = c ∨ (s.transition d).tracker = some e := by
    intro d e hde
    rw [hget] at hde
    split at hde
    · rename_i hd
      exact .inl ⟨hd.1, (Option.some.inj hde).symm⟩
    · exact .inr hde
  refine ⟨fun d code' hd => ?_, fun d e hde => ?_, fun d d' e hde hde' => ?_,
    fun d hd => ?_, h.clock⟩
  · rw [hget] at hd
    split at hd
    · cases hd
      exact hcode
    · exact h.binding d code' hd
  · rcases htracker d e hde with ⟨-, rfl⟩ | hde
    · exact hc
    · exact h.tracker d e hde
  · rcases htracker d e hde with ⟨rfl, rfl⟩ | hold
    · rcases htracker d' e hde' with ⟨rfl, -⟩ | hold'
      · rfl
      · exact absurd hold' (hfresh d')
    · rcases htracker d' e hde' with ⟨-, rfl⟩ | hold'
      · exact absurd hold (hfresh d)
      · exact h.apart d d' e hold hold'
  · rw [hget]
    have hsize : (s.modifyTransition b fun x =>
      { x with binding := some code, tracker := some c }).transitions.size = s.transitions.size :=
      Array.size_modify
    split
    · exact h.cell d (hsize ▸ hd)
    · exact h.cell d (hsize ▸ hd)

end Scene.Bonded

/-! ## Values -/

namespace Store

variable {K : Type → Type} {s t u : Store K} {c : CellId}

theorem Loose.linkRoot_ne {x : CellId} (h : s.Loose x) (hc : c ≠ x) : s.linkRoot c ≠ x := by
  unfold linkRoot
  generalize s.cells.size = limit
  induction limit generalizing c with
  | zero => exact hc
  | succ limit ih =>
    unfold follow
    cases hp : s.partner? c with
    | none => exact hc
    | some p =>
      refine ih fun hpx => h.partners c ?_
      rw [← hpx]
      exact (partner?_eq_some hp).1

end Store

/-! ## Programs over cells -/

section

variable {V : Vigil} {α β : Type} {w w' : SceneTale U X} {host : Host U X} {depth : Nat}

section

variable (hw : Upright w)
include hw

/-- What is known of every program that has run. -/
theorem Upright.ran {act : SceneM U X α} {a : α}
    (h : act.tell (host.told depth) w = .ok a w') :
    w'.store.Sane ∧ w'.store.consumers = [] ∧ Kept w.store w'.store ∧
      ⟨.control, w.store⟩ :: w.past <:+ w'.past := by
  have hreach := Act.tell_begins (Act.toldTo_flows (Code.meaning host) depth) act w hw.sane
  rw [h] at hreach
  obtain ⟨hpath, hlevel⟩ := hreach
  refine ⟨Path.sane hpath.path hw.sane, ?_, Path.kept hpath.path hw.sane,
    Path.past_suffix hpath.path⟩
  rw [consumers, hlevel.stack]
  exact hw.outside

/-- The program serves the transition, if it returns. -/
def Vigil.Keeping (V : Vigil) (host : Host U X) (depth : Nat) (w : Tale (Scene U X) (Code U))
    (act : SceneM U X α) : Prop :=
  ∀ a w', act.tell (Act.toldTo (Code.meaning host) depth) w = .ok a w' → Upright w' ∧ V.Keeps w w'

omit hw in
theorem Vigil.Keeping.bind {x : SceneM U X β} {f : β → SceneM U X α} (hx : V.Keeping host depth w x)
    (hf : ∀ b u, x.tell (host.told depth) w = .ok b u → Upright u →
      V.Keeps w u → V.Keeping host depth u (f b)) : V.Keeping host depth w (x >>= f) := by
  intro a w' h
  obtain ⟨b, u, hxu, hfu⟩ := Act.of_tell_bind h
  obtain ⟨hu, hp⟩ := hx b u hxu
  obtain ⟨hw', hp'⟩ := hf b u hxu hu hp a w' hfu
  exact ⟨hw', hp.trans hp'⟩

theorem Vigil.Keeping.returning (a : α) : V.Keeping host depth w (.pure a) := by
  intro b w' h
  cases h
  exact ⟨hw.noting, (Vigil.Passes.noting w).toKeeps⟩

omit hw in
theorem Vigil.Keeping.after (h : Upright w.beat → V.Keeping host depth w.beat
    (x : SceneM U X α)) (hw : Upright w) {y : SceneM U X α} (hy : y.tell (host.told depth) w =
      x.tell (host.told depth) w.beat) : V.Keeping host depth w y := by
  intro a w' hr
  rw [hy] at hr
  obtain ⟨hw', hp⟩ := h hw.noting a w' hr
  exact ⟨hw', (Vigil.Passes.noting w).toKeeps.trans hp⟩

theorem Vigil.Keeping.ask {f : Scene U X → β} {k : β → SceneM U X α}
    (h : Upright w.beat → V.Keeping host depth w.beat (k (f w.host.1))) :
    V.Keeping host depth w (Act.ask f >>= k) := .after h hw rfl

theorem Vigil.Keeping.view {f : Store (Code U) → β} {k : β → SceneM U X α}
    (h : Upright w.beat → V.Keeping host depth w.beat (k (f w.store))) :
    V.Keeping host depth w (.view f >>= k) := .after h hw rfl

/-- A change of the store without nested code. -/
theorem Upright.stored {act : SceneM U X α} {a : α} {s : Store (Code U)}
    (h : act.tell (host.told depth) w = .ok a (w.beat.withStore s))
    (ht : Tended Code.Minds s) (hu : V.Present w → V.Untouched w.store s) :
    Upright (w.beat.withStore s) ∧ V.Keeps w (w.beat.withStore s) := by
  obtain ⟨hsane, hout, hk, hpast⟩ := hw.ran h
  refine ⟨⟨hsane, hout, ht, hw.bonded.kept hk⟩, ⟨hk, Nat.le_refl _, .inl rfl, fun hp hf => ?_,
    fun _ _ => rfl, fun hp hf hc => .inl (((hu hp).state hf.live).trans hc)⟩,
    fun hp hf => (hu hp).value hf.shown⟩
  exact ⟨(hu hp).live hf.live, (hu hp).shown hf.shown,
    (hf.past _ (hpast.subset List.mem_cons_self)).loose, (hu hp).alerts hf.live hf.alerts, hf.alone,
    fun m hm => hf.past m (hpast.subset (List.mem_cons_of_mem _ hm))⟩

omit hw in
theorem Vigil.Keeping.step {act : SceneM U X α} {f : Store (Code U) → α × Store (Code U)}
    (hact : act.tell (host.told depth) w =
      .ok (f w.store).1 (w.beat.withStore (f w.store).2))
    (hw : Upright w) (ht : Tended Code.Minds (f w.store).2)
    (hu : V.Present w → V.Untouched w.store (f w.store).2) : V.Keeping host depth w act := by
  intro a w' h
  rw [hact] at h
  cases h
  exact hw.stored hact ht hu

theorem Vigil.Keeping.record (e : Entry) : V.Keeping host depth w (.record e) :=
  .step (f := fun s => ((), s.record e)) rfl hw (hw.tended.akin (akin_record ..))
    fun _ => .of_cells rfl rfl

theorem Vigil.Keeping.drop (c : CellId) : V.Keeping host depth w (.drop c) := by
  intro a w' h
  have hc := (Run.of_onCell h).1
  have htell : (Act.drop c).tell (host.told depth) w =
      .ok () (w.beat.withStore (w.store.drop c)) :=
    Run.onCell_of_lt hc
  rw [htell] at h
  cases h
  exact hw.stored htell (hw.tended.drop hc) fun _ => .drop hc

theorem Vigil.Keeping.observe (c : CellId) {code : Code U Unit} (hminds : code.Minds)
    (hcode : code ≠ .retarget V.transition) : V.Keeping host depth w (.observe c code) := by
  intro a w' h
  have hc := (Run.of_onCell h).1
  have htell : (Act.observe c code).tell (host.told depth) w =
      .ok (w.store.observe c code).1 (w.beat.withStore (w.store.observe c code).2) :=
    Run.onCell_of_lt hc
  rw [htell] at h
  cases h
  exact hw.stored htell (hw.tended.observe hminds) fun _ => .observe c hcode

theorem Vigil.Keeping.newTracker (name : String) {code : Code U Unit}
    (hminds : code.Minds) (hcode : code ≠ .retarget V.transition) :
    V.Keeping host depth w (.newTracker name (some code)) :=
  .step (f := fun s => Act.addTracker s name (some code)) rfl hw
    (hw.tended.addTracker name fun _ h => Option.some.inj h ▸ hminds)
    fun hp => .addTracker (hw.isTracker hp).1 (hw.isProperty hp).1 name hcode

end

variable (hhost : host.Minds V.shared) (hx : ¬V.shared V.cell)
include hhost hx

section

variable (hw : Upright w)
include hw

/-- A change of the store that was announced with a write to `c`. -/
theorem Upright.announce (depth : Nat) {s : Store (Code U)}
    {told : Option (List CellId)} (hstep : ∀ past, Step ⟨w.store, ⟨.wrote c, w.store⟩ :: past, none⟩
      ⟨s, ⟨.wrote c, w.store⟩ :: past, none⟩)
    (hframes : s.frames = w.store.frames) (htended : Tended Code.Minds s)
    (hobservers : s.observers = w.store.observers)
    (hobserved : ∀ d, (s.cell d).observers = (w.store.cell d).observers)
    (hdropped : ∀ d, (s.cell d).dropped = (w.store.cell d).dropped)
    (hstate : V.Present w → (w.store.cell V.tracker).state = .clean →
      (w.store.cell V.tracker).dropped = false → (s.cell V.tracker).state = .clean ∨
        ∃ cells, told = some cells ∧ V.tracker ∈ cells) (h : (match told with
      | none => EStateM.Result.ok () ((w.beat.noting (.wrote c)).withStore s)
      | some cells => Run.notify (host.told depth) cells
          ((w.beat.noting (.wrote c)).withStore s)) = .ok () w') :
    Upright w' ∧ V.Carries w w' ∧ V.Passes ((w.beat.noting (.wrote c)).withStore s) w' ∧
      Minded V.shared (fun _ => False) V.cell false
        ((w.beat.noting (.wrote c)).withStore s) w' := by
  have hkept : Kept w.store s := (hstep []).kept hw.sane
  have hu : Upright ((w.beat.noting (.wrote c)).withStore s) := by
    refine ⟨(hstep []).sane hw.sane, ?_, htended, hw.bonded.kept hkept⟩
    show s.consumers = []
    rw [consumers, stack, hframes]
    exact hw.outside
  exact hu.announced hhost hx rfl hkept hobservers hobserved hdropped
    (List.suffix_cons ..) rfl hstate h

omit hhost hx in
omit hw in
theorem Vigil.Passes.announced (w : SceneTale U X) (c : CellId) :
    V.Passes w (w.beat.noting (.wrote c)) :=
  .of_eq rfl rfl (fun _ hm => List.mem_cons_of_mem _ (List.mem_cons_of_mem _ hm)) rfl

/-- A write. Other cells than the one watched leave it alone; a write to that one gives it the
value, and the tracker does not notice. -/
theorem Upright.set {v : Value}
    (h : (Act.set c v).tell (host.told depth) w = .ok () w') :
    Upright w' ∧ V.Carries w w' ∧ (V.Present w → V.Fair w' →
      (c ≠ V.cell → (w'.store.cell V.cell).value = (w.store.cell V.cell).value) ∧
      (c = V.cell → ((w'.store.cell V.cell).value = v ∨
          (w'.store.cell V.cell).value = (w.store.cell V.cell).value ∧
            (w.store.cell V.cell).value.same v = true) ∧
        ((w.store.cell V.tracker).state = .clean → (w'.store.cell V.tracker).state = .clean))) := by
  obtain ⟨-, -, -, hpast⟩ := hw.ran h
  obtain ⟨hc, h⟩ := Run.of_onProperty h
  have h : Run.set (host.told depth) c v (w.beat.noting (.wrote c)) =
    .ok () w' := h
  cases hd : (w.store.cell c).dropped with
  | true =>
    set u := w.store.log s!"write to dropped property {w.store.nameOf c} ignored" with hu
    have hstep : ∀ past, Step ⟨w.store, ⟨.wrote c, w.store⟩ :: past, none⟩
        ⟨u, ⟨.wrote c, w.store⟩ :: past, none⟩ := fun past => .record _
    have hlog : Run.set (host.told depth) c v
        (w.beat.noting (.wrote c)) =
          .ok () ((w.beat.noting (.wrote c)).withStore u) := by
      show (if (w.store.cell c).dropped = true then _ else _ : Told (Scene U X) (Code U) Unit) _ = _
      rw [if_pos hd]
      rfl
    have h : (match (none : Option (List CellId)) with
      | none => EStateM.Result.ok () ((w.beat.noting (.wrote c)).withStore u)
      | some cells => Run.notify (host.told depth) cells
          ((w.beat.noting (.wrote c)).withStore u)) = .ok () w' := hlog ▸ h
    have hstate : V.Present w → (w.store.cell V.tracker).state = .clean →
        (w.store.cell V.tracker).dropped = false → (u.cell V.tracker).state = .clean ∨
          ∃ cells, (none : Option (List CellId)) = some cells ∧ V.tracker ∈ cells :=
      fun _ hclean _ => .inl hclean
    obtain ⟨hw', hcarries, hp, -⟩ := hw.announce hhost hx depth
      hstep rfl (hw.tended.akin (akin_record ..)) rfl (fun _ => rfl) (fun _ => rfl) hstate h
    refine ⟨hw', hcarries, fun hpresent hf => ⟨fun _ => hp.value (hpresent.nudged (.inl rfl)) hf,
      fun hcx => ?_⟩⟩
    rw [hcx, (hcarries.fair hpresent hf).shown] at hd
    cases hd
  | false =>
    have hroot := hw.sane.isProperty_linkRoot hc
    obtain ⟨hamended, hvalue⟩ := amended_written w.store (w.store.linkRoot c) v
    replace hvalue := hvalue hroot.1
    rw [Told.set_told (w := w.beat.noting (.wrote c)) _ v hd] at h
    have hstate : V.Present w → (∃ cells, w.store.toldOfWrite (w.store.linkRoot c) v = some cells ∧
          V.tracker ∈ cells) ∨
        (w.store.written (w.store.linkRoot c) v).cell V.tracker = w.store.cell V.tracker := by
      intro hpresent
      have hne : V.tracker ≠ w.store.linkRoot c := fun heq => by
        have htracker := (hw.isTracker hpresent).2
        rw [heq, hroot.2] at htracker
        cases htracker
      rw [cell_written hw.sane.arena hroot.1 v hne]
      cases w.store.toldOfWrite (w.store.linkRoot c) v with
      | none => exact .inr (if_neg List.not_mem_nil)
      | some cells =>
        by_cases hmem : V.tracker ∈ cells
        · exact .inl ⟨cells, rfl, hmem⟩
        · exact .inr (if_neg hmem)
    obtain ⟨hw', hcarries, hp, -⟩ := hw.announce hhost hx depth (fun past => .write v hc hd)
      (ripple_written hw.sane.arena hroot.1 v).1.around.frames (hw.tended.amended hamended)
      hamended.observers hamended.observed hamended.dropped_all
      (fun hpresent hclean _ => (hstate hpresent).symm.imp (fun h => by rw [h]; exact hclean) id) h
    refine ⟨hw', hcarries, fun hpresent hf => ?_⟩
    have hloose := (hcarries.fair hpresent hf).loose
    have hkept := hp.value (hpresent.nudged (.inl rfl)) hf
    refine ⟨fun hcx => ?_, fun hcx => ⟨?_, fun hclean => ?_⟩⟩
    · exact hkept.trans (congrArg Content.value (hamended.other _ (hloose.linkRoot_ne hcx).symm))
    · subst hcx
      rw [linkRoot_of_partner hloose.partner] at hvalue hkept
      rw [hkept]
      exact hvalue
    · refine hp.calm (hpresent.nudged (.inl rfl)) hf ?_
      rcases hstate hpresent with ⟨cells, hcells, hmem⟩ | hcell
      · -- what the binding has read is not the cell itself
        have hfar := ((hf.past _ (hpast.subset List.mem_cons_self)).far c (.inr hcx)).2
        exact absurd
          ((mem_toldOfWrite hw.sane.arena hroot.1 v).mp (by rwa [hcells])).2.upstream hfar
      · show ((w.store.written (w.store.linkRoot c) v).cell V.tracker).state = .clean
        rw [hcell]
        exact hclean

theorem Vigil.Keeping.set (hc : V.Present w → c ≠ V.cell ∨ ¬V.Fair w)
    (v : Value) : V.Keeping host depth w (.set c v) := by
  intro a w' h
  obtain ⟨hw', hcarries, hvalue⟩ := hw.set hhost hx h
  refine ⟨hw', hcarries, fun hp hf => ?_⟩
  exact (hvalue hp hf).1 ((hc hp).resolve_right fun hn => hn (hcarries.fair hp hf))

theorem Upright.bind {c : CellId} {b : Binding (Code U)} (hc : w.store.IsProperty c)
    (hroot : ∀ root, b = .follow root → w.store.IsProperty root)
    (hcode : ∀ code, b = .code code → code.Minds)
    (h : Run.bind (host.told depth) c b (w.beat.noting (.wrote c)) = .ok () w') :
    Upright w' ∧ V.Keeps w w' ∧ (w'.store = w.store ∨ (w'.store.cell c).partner = none) := by
  have h : (if (w.store.cell c).dropped = true then pure () else (do
      Run.update fun s => s.rebind c b
      Run.disturb (host.told depth) c) : Told (Scene U X) (Code U) Unit)
      (w.beat.noting (.wrote c)) = .ok () w' := h
  split at h
  · cases h
    exact ⟨{ hw with }, (Vigil.Passes.announced w c).toKeeps, .inl rfl⟩
  · rename_i hd
    have hd : (w.store.cell c).dropped = false := by simpa using hd
    set s := w.store.rebind c b with hs
    have h : Run.disturb (host.told depth) c
        ((w.beat.noting (.wrote c)).withStore s) = .ok () w' := h
    rw [Told.disturb_told] at h
    have harena : Arena s := hw.sane.arena.modify fun _ => ⟨rfl, rfl⟩
    have hlt : c < s.cells.size := by simpa [hs, Store.rebind] using hc.1
    have hakin := s.akin_upset c
    have hstate : V.Present w → (w.store.cell V.tracker).state = .clean →
        (w.store.cell V.tracker).dropped = false → ((s.upset c).cell V.tracker).state = .clean ∨
          ∃ cells, s.toldOfUpset c = some cells ∧ V.tracker ∈ cells := by
      intro hpresent hclean _
      refine clean_or_told harena hlt (fun hne => ?_) fun heq => ?_
      · rw [hs, Store.rebind, cell_modify_ne hne]
        exact hclean
      · have htracker := (hw.isTracker hpresent).2
        rw [heq, hc.2] at htracker
        cases htracker
    obtain ⟨hw', hcarries, hp, hm⟩ := hw.announce hhost hx depth (fun past => .rebind hc hd hroot)
      (ripple_rebind hw.sane.arena hc.1 b).1.around.frames ((hw.tended.rebind hcode).akin hakin)
      hakin.observers
      (fun d => (hakin.observed d).trans (proj_modify Cell.observers (fun _ => by rfl) w.store c d))
      (fun d => (hakin.dropped d).trans (proj_modify Cell.dropped (fun _ => by rfl) w.store c d))
      hstate h
    refine ⟨hw', ⟨hcarries, fun hpresent hf =>
      (hp.value (hpresent.nudged (.inl rfl)) hf).trans ?_⟩, .inr ?_⟩
    · exact (hakin.value _).trans (proj_modify Cell.value (fun _ => by rfl) w.store c _)
    · have hnone : ((s.upset c).cell c).partner = none := by
        rw [hakin.partner, hs, Store.rebind, cell_modify_self hc.1]
      exact (hm.partner c).elim id fun hn => hn.trans hnone

theorem Vigil.Keeping.setBinding (c : CellId)
    (hcode : code.Minds) : V.Keeping host depth w (.setBinding c code) := by
  intro a w' h
  obtain ⟨hc, h⟩ := Run.of_onProperty h
  obtain ⟨hw', hk, -⟩ := hw.bind hhost hx hc (fun _ h => by cases h)
    (fun _ h => by cases h; exact hcode) h
  exact ⟨hw', hk⟩

/-- A link: a binding, and after the observers have run a partner. -/
theorem Vigil.Keeping.link (c d : CellId) : V.Keeping host depth w (.link c d) := by
  intro a w' h
  obtain ⟨hsane, hout, -, hpast⟩ := hw.ran h
  obtain ⟨hc, h⟩ := Run.of_onProperty h
  obtain ⟨hd, h⟩ := Run.of_onProperty h
  set root := w.store.linkRoot d with hrootdef
  have hroot : w.store.IsProperty root := hw.sane.isProperty_linkRoot hd
  have h : (if root = c then pure false else (do
      Run.bind (host.told depth) c (.follow root)
      Run.update fun s => s.pair c root
      return true) : Told (Scene U X) (Code U) Bool) (w.beat.noting (.wrote c)) =
        .ok a w' := h
  split at h
  · cases h
    exact ⟨{ hw with }, (Vigil.Passes.announced w c).toKeeps⟩
  obtain ⟨_, u, hbind, h⟩ := Run.of_bind h
  cases h
  obtain ⟨hu, hk, hpartner⟩ := hw.bind hhost hx hc
    (fun _ h => by cases h; exact hroot) (fun _ h => by cases h) hbind
  have hsame : V.Untouched u.store (u.store.pair c root) :=
    .pair c root
  have hkept : Kept u.store (u.store.pair c root) :=
    kept_modify _ _ fun _ => rfl
  refine ⟨⟨hsane, hout, hu.tended.pair root, hu.bonded.kept hkept⟩, hk.trans
    ⟨⟨hkept, Nat.le_refl _, .inl rfl, fun _ hf => ?_, fun _ _ => rfl,
      fun _ hf hclean => .inl ((hsame.state hf.live).trans hclean)⟩,
        fun _ hf => hsame.value hf.shown⟩⟩
  have hloose := hf.loose
  refine ⟨hsame.live hf.live, hsame.shown hf.shown, ⟨?_, ?_, fun e => ?_⟩,
    hsame.alerts hf.live hf.alerts, hf.alone, hf.past⟩
  · rw [← hloose.binding]
    exact (proj_modify Cell.binding (fun _ => by rfl) u.store c V.cell).symm
  · have hnone := hloose.partner
    rw [cell_modify] at hnone
    split at hnone
    · cases hnone
    · exact hnone
  · by_cases he : e = c
    · -- the binding has taken the partner away that there was
      subst he
      rcases hpartner with hsame | hnone
      · rw [hsame]
        exact (hf.past _ (hpast.subset List.mem_cons_self)).loose.partners e
      · rw [hnone]
        nofun
    · have hne := hloose.partners e
      rwa [cell_modify_ne he] at hne

theorem Vigil.Keeping.invalidate (c : CellId) :
    V.Keeping host depth w (.invalidate c) := by
  intro a w' h
  obtain ⟨hc, h⟩ := Run.of_onTracker h
  have hc : w.store.IsTracker c := hc
  have h : (if (w.store.cell c).dropped = true then pure () else (do
      Run.update fun s => s.modify c fun cell => { cell with epoch := cell.epoch + 1 }
      Run.disturb (host.told depth) c) : Told (Scene U X) (Code U) Unit)
      (w.beat.noting (.wrote c)) = .ok () w' := h
  split at h
  · cases h
    exact ⟨{ hw with }, (Vigil.Passes.announced w c).toKeeps⟩
  · rename_i hd
    have hd : (w.store.cell c).dropped = false := by simpa using hd
    set s := w.store.modify c fun cell => { cell with epoch := cell.epoch + 1 } with hs
    have h : Run.disturb (host.told depth) c
        ((w.beat.noting (.wrote c)).withStore s) = .ok () w' := h
    rw [Told.disturb_told] at h
    have harena : Arena s := hw.sane.arena.modify fun _ => ⟨rfl, rfl⟩
    have hlt : c < s.cells.size := by
      rw [hs, size_modify]
      exact hc.1
    have hakin : Akin w.store (s.upset c) :=
      (Akin.modify w.store c (fun _ => by rfl) fun _ => by rfl).trans (s.akin_upset c)
    have hstate : V.Present w → (w.store.cell V.tracker).state = .clean →
        (w.store.cell V.tracker).dropped = false → ((s.upset c).cell V.tracker).state = .clean ∨
          ∃ cells, s.toldOfUpset c = some cells ∧ V.tracker ∈ cells := by
      intro hpresent hclean _
      refine clean_or_told harena hlt (fun hne => ?_) fun heq => ?_
      · rw [hs, cell_modify_ne hne]
        exact hclean
      · rw [heq]
        refine mem_toldOfUpset hlt (.inl ?_)
        rw [hs, cell_modify_self hc.1, ← heq]
        exact hclean
    obtain ⟨hw', hcarries, hp, -⟩ := hw.announce hhost hx depth (fun past => .forget hc hd)
      (ripple_forget hw.sane.arena hc.1).1.around.frames (hw.tended.akin hakin) hakin.observers
      hakin.observed hakin.dropped hstate h
    exact ⟨hw', hcarries, fun hpresent hf =>
      (hp.value (hpresent.nudged (.inl rfl)) hf).trans (hakin.value _)⟩

/-! ## Programs that read and run code -/

theorem Vigil.Keeping.get (c : CellId) : V.Keeping host depth w (.get c) := by
  intro a w' h
  obtain ⟨hw', hp, -⟩ := hw.program hhost hx (fun _ => False) (fun _ => not_false)
    (fun hN own hown => .get hN hown (.inr trivial)) h
  exact ⟨hw', hp.toKeeps⟩

theorem Vigil.Keeping.tryGet (c : CellId) : V.Keeping host depth w (.tryGet c) := by
  intro a w' h
  obtain ⟨hw', hp, -⟩ := hw.program hhost hx (fun _ => False) (fun _ => not_false)
    (fun hN own hown => .tryGet hN hown (.inr trivial)) h
  exact ⟨hw', hp.toKeeps⟩

theorem Vigil.Keeping.perform {code : Code U α} (hcode : code.Minds) :
    V.Keeping host depth w (.perform code) := by
  intro a w' h
  obtain ⟨hw', hp, -⟩ := hw.program hhost hx (fun _ => False) (fun _ => not_false)
    (fun hN own hown => .perform hN hown fun _ => hcode) h
  exact ⟨hw', hp.toKeeps⟩

theorem Vigil.Keeping.track {t : CellId} (ht : V.Present w → t ≠ V.tracker)
    {code : Code U α} (hcode : code.Minds) : V.Keeping host depth w (.track t (.perform code)) := by
  intro a w' h
  obtain ⟨hw', hp, -⟩ := hw.program hhost hx (· = t) (fun hp hbusy => ht hp hbusy.symm)
    (fun hN own hown => .track hown (fun _ => trivial) (.inl rfl) (fun _ _ hw' =>
      (Regime.Runs.perform hN hw' fun _ => hcode).keeps)
      Regime.stable_true) h
  exact ⟨hw', hp.toKeeps⟩

/-- A read that nobody is told about. A cell on its own shows its value and keeps it. -/
theorem Upright.peek {v : Value}
    (h : (Act.peek c).tell (host.told depth) w = .ok v w') :
    Upright w' ∧ V.Passes w w' ∧
        (w.store.Loose V.cell → c = V.cell → v = (w'.store.cell V.cell).value ∧
          (w'.store.cell V.cell).value = (w.store.cell V.cell).value) := by
  have hruns : (minding V.shared (fun _ => False) V.cell).Obeys (host.told depth) →
      ∀ own, (minding V.shared (fun _ => False) V.cell).holds own w →
        (minding V.shared (fun _ => False) V.cell).Runs (host.told depth) own w
          (Act.peek c) fun own' w' v => own' = true → c = V.cell →
            v = (w'.store.cell V.cell).value := by
    intro hN own hown
    refine .untracked hown (fun _ _ hw' =>
      .get hN hw' (.inr trivial)) fun own w own' w' v hle hfit => ?_
    exact minding_ok.fits_mono hle hfit
  obtain ⟨hw', hp, -⟩ := hw.program hhost hx (fun _ => False) (fun _ => not_false) hruns h
  refine ⟨hw', hp, fun hloose hc => ?_⟩
  have hown := hruns (toldTo_minding hhost hx depth) true (hw.holds fun _ => hloose)
  unfold Regime.Runs at hown
  rw [h] at hown
  obtain ⟨_, ⟨rfl, hm⟩, -, hfit⟩ := hown
  exact ⟨hfit rfl hc, hm.value rfl⟩

theorem Vigil.Keeping.peek (c : CellId) : V.Keeping host depth w (Act.peek c) := by
  intro a w' h
  obtain ⟨hw', hp, -⟩ := hw.peek hhost hx h
  exact ⟨hw', hp.toKeeps⟩

/-! ## Other transitions -/

omit hhost hx in
theorem Upright.staged {s : Scene U X} (hb : s.Bonded w.store)
    (hsize : w.host.1.transitions.size ≤ s.transitions.size)
    (hown : s.transition V.transition = w.host.1.transition V.transition)
    (hcell : ∀ b < w.host.1.transitions.size, (s.transition b).cell = (w.host.1.transition
    b).cell) : Upright (w.beat.withHost s) ∧ V.Passes w (w.beat.withHost s) := by
  refine ⟨⟨hw.sane, hw.outside, hw.tended, hb⟩, ⟨⟨⟨.refl _, hsize, .inl hown, fun _ hf => ?_,
    fun _ _ => rfl, fun _ _ hc => .inl hc⟩, fun _ _ => rfl⟩, fun _ _ hc => hc⟩⟩
  refine ⟨hf.live, hf.shown, hf.loose, hf.alerts, fun b hlt hne => ?_,
    fun m hm => hf.past m (List.mem_cons_of_mem _ hm)⟩
  rw [← hcell b hlt]
  exact hf.alone b (hlt.trans_le hsize) hne

omit hhost hx in
theorem Vigil.Keeping.rebond (hb : b ≠ V.transition)
    (hbonded : (w.host.1.modifyTransition b f).Bonded w.store)
    (hcell : ∀ t, (f t).cell = t.cell) : V.Keeping host depth w (Transition.modify b f) := by
  intro a w' h
  cases h
  obtain ⟨hw', hp⟩ := hw.staged hbonded (Nat.le_of_eq Array.size_modify.symm)
    (by rw [Scene.transition_modify, if_neg fun h => hb h.1.symm]) fun d hd => by
      rw [Scene.transition_modify]
      split
      · exact hcell _
      · rfl
  exact ⟨hw', hp.toKeeps⟩

omit hhost hx in
theorem Vigil.Keeping.modify (hb : b ≠ V.transition) (hf : Transition.Mild f) :
    V.Keeping host depth w (Transition.modify b f) := .rebond hw hb (hw.bonded.modify hf b) hf.cell

omit hhost hx in
theorem Vigil.Keeping.schedule (hb : b ≠ V.transition) :
    V.Keeping host depth w (Transition.schedule b) := by
  intro a w' h
  cases h
  have hget := w.host.1.transition_enlist b
  have hsize : (w.host.1.enlist b).transitions.size = w.host.1.transitions.size := by
    unfold Scene.enlist
    split
    · rfl
    · exact Array.size_modify
  have hbonded : (w.host.1.enlist b).Bonded w.store := by
    refine hw.bonded.changed hsize ?_ (fun d => .inr (by rw [hget])) (fun d => .inr (by rw [hget]))
      fun d => by rw [hget]
    unfold Scene.enlist
    split
    · rfl
    · rfl
  obtain ⟨hw', hp⟩ := hw.staged (V := V) hbonded (Nat.le_of_eq hsize.symm)
    (by rw [hget]; simp [Ne.symm hb]) fun d _ => by rw [hget]
  exact ⟨hw', hp.toKeeps⟩

omit hhost hx in
theorem Vigil.Keeping.clearBinding (hb : b ≠ V.transition) :
    V.Keeping host depth w (Transition.clearBinding b) := by
  have hclear : ∀ {u : SceneTale U X}, Upright u → V.Keeping host depth u
      (Transition.modify b fun t =>
        { t with tracker := none, binding := none, bindingChanged := false }) :=
    fun hu => .modify hu hb ⟨fun _ => .inl rfl, fun _ => .inl rfl, fun _ => rfl⟩
  refine .ask hw fun hn => ?_
  extract_lets finish
  dsimp only
  cases (w.host.1.transition b).tracker with
  | none => exact hclear hn
  | some t => exact .bind (.drop hn t) fun _ _ _ hu _ => hclear hu

end

omit hhost hx in
/-- A cell that was not the one watched is not the one watched. -/
theorem Vigil.Keeps.other (hk : V.Keeps w w')
    (hc : V.Present w → V.Fair w → c ≠ V.cell) : V.Present w' → c ≠ V.cell ∨ ¬V.Fair w' := by
  intro hp
  by_cases hf : V.Fair w'
  · have hpw : V.Present w := by
      have htracker := hp.tracker
      have hcell := hp.cell
      rcases hk.nudge with hn | hn
      · rw [hn] at htracker hcell
        exact ⟨htracker, hcell⟩
      · rw [hn] at htracker hcell
        exact ⟨htracker, hcell⟩
    exact .inl (hc hpw (hk.fair hpw hf))
  · exact .inr hf

omit hhost hx in
theorem Vigil.Fair.cell_ne (h : V.Fair w) (hb : b ≠ V.transition)
    (hclock : V.cell ≠ 0) : (w.host.1.transition b).cell ≠ V.cell := by
  by_cases hlt : b < w.host.1.transitions.size
  · exact h.alone b hlt hb
  · rw [Scene.transition, getD_of_size_le (not_lt.1 hlt)]
    exact hclock.symm

variable (hclock : V.cell ≠ 0)
include hclock

section

variable (hw : Upright w)
include hw

theorem Vigil.Keeping.animateTo (hb : b ≠ V.transition)
    (v : Value) : V.Keeping host depth w (Transition.animateTo b v) := by
  have hcell : V.Present w → V.Fair w → (w.host.1.transition b).cell ≠ V.cell :=
    fun _ hf => hf.cell_ne hb hclock
  have hnote : V.Keeps w w.beat.beat :=
    ((Vigil.Passes.noting w).trans (Vigil.Passes.noting _)).toKeeps
  refine .ask hw fun hn => .view hn fun hn => ?_
  split
  · exact .returning hn _
  refine .bind (.modify hn hb (.kept fun _ => ⟨rfl, rfl, rfl⟩))
    fun _ w1 _ hw1 hk1 => ?_
  refine .bind (.peek hhost hx hw1 _) fun current w2 _ hw2 hk2 => ?_
  refine .ask hw2 fun hn2 => ?_
  dsimp only [id]
  generalize (if (w2.host.1.transition b).running = true
    then (w2.host.1.transition b).target.same v else current.same v) = there
  have hk : V.Keeps w w2.beat :=
    ((hnote.trans hk1).trans hk2).trans (Vigil.Passes.noting w2).toKeeps
  split
  · exact .returning hn2 _
  split
  · refine .bind (.modify hn2 hb (.kept fun _ => ⟨rfl, rfl, rfl⟩))
      fun _ w3 _ hw3 hk3 => ?_
    exact .set hhost hx hw3 ((hk.trans hk3).other hcell) v
  · refine .bind (.modify hn2 hb (.kept fun _ => ⟨rfl, rfl, rfl⟩))
      fun _ w3 _ hw3 _ => ?_
    refine .ask hw3 fun hn3 => ?_
    refine .bind (.peek hhost hx hn3 _) fun time w4 _ hw4 _ => ?_
    refine .bind (.modify hw4 hb (.kept fun _ => ⟨rfl, rfl, rfl⟩))
      fun _ w5 _ hw5 _ => ?_
    exact .schedule hw5 hb

theorem Vigil.Keeping.setTransition (hb : b ≠ V.transition)
    (v : Value) : V.Keeping host depth w (Transition.set b v) := by
  refine .ask hw fun hn => ?_
  split
  · exact .bind (.clearBinding hn hb) fun _ _ _ hu _ => .animateTo hhost hx hclock hu hb v
  · exact .animateTo hhost hx hclock hn hb v

omit hclock in
theorem Vigil.Keeping.evaluateBinding (hb : b ≠ V.transition) :
    V.Keeping host depth w (Transition.evaluateBinding b) := by
  refine .ask hw fun hn => ?_
  dsimp only [id]
  cases hbinding : (w.host.1.transition b).binding with
  | none => exact .returning hn _
  | some code =>
    cases htracker : (w.host.1.transition b).tracker with
    | none => exact .returning hn _
    | some t =>
      have hne : V.Present w.beat → t ≠ V.tracker := by
        rintro hp rfl
        exact hb (hw.bonded.apart _ _ _ htracker hp.tracker)
      refine .bind (.track hhost hx hn hne (hw.bonded.binding b code hbinding)) fun r u _ hu _ => ?_
      cases r with
      | done v => exact .returning hu _
      | skipped => exact .returning hu _
      | failed e =>
        refine .view hu fun hn' => ?_
        exact .bind (.record hn' _) fun _ _ _ hu' _ => .returning hu' _

omit hhost hx hclock in
/-- A transition gets a binding, and a tracker that was made for it. -/
theorem Upright.bound (hcode : code.Minds)
    {name : String} {t : CellId} {u : SceneTale U X} (hu : Upright u)
    (hnew : (Act.newTracker name (some (.retarget b))).tell (host.told depth) w = .ok t u) :
    (u.host.1.modifyTransition b fun x => { x with binding := some code, tracker := some t }).Bonded
      u.store ∧ t = w.store.cells.size ∧ u.host.1 = w.host.1 := by
  cases hnew
  refine ⟨?_, rfl, rfl⟩
  have hfresh : ∀ d, (w.host.1.transition d).tracker ≠ some w.store.cells.size := by
    intro d hd
    exact Nat.lt_irrefl _ (hw.bonded.tracker d _ hd).1
  have htracker :
      (Act.addTracker w.store name (some (Code.retarget b))).2.IsTracker w.store.cells.size := by
    have hadd :
        (w.store.add { name, tracker := true, state := .dirty }).2.IsTracker
          w.store.cells.size := by
      refine ⟨by simp [Store.add], ?_⟩
      rw [cell_add, if_pos rfl]
    exact hadd.kept (.of_size (sameAround_observe ..).size fun d => (minor_observe _ _ _ d).tracker)
  exact hu.bonded.bind hcode htracker fun d hd => hfresh d hd

theorem Vigil.Keeping.follow (hb : b ≠ V.transition) (hcode : code.Minds) :
    V.Keeping host depth w (Transition.setBinding b code) := by
  refine .bind (.clearBinding hw hb) fun _ w1 _ hw1 _ => ?_
  have hcell : V.Present w1 → V.Fair w1 → (w1.host.1.transition b).cell ≠ V.cell :=
    fun _ hf => hf.cell_ne hb hclock
  have hnote : V.Keeps w1 w1.beat.beat :=
    ((Vigil.Passes.noting w1).trans (Vigil.Passes.noting _)).toKeeps
  refine .ask hw1 fun hn => .view hn fun hn => ?_
  refine .bind (.newTracker hn _ trivial fun h => hb (by cases h; rfl)) fun t w2 hnew hw2 hk2 => ?_
  obtain ⟨hbonded, -⟩ := hn.bound hcode hw2 hnew
  refine .bind (.rebond hw2 hb hbonded fun _ => rfl) fun _ w3 _ hw3 hk3 => ?_
  refine .bind (.evaluateBinding hhost hx hw3 hb) fun r w4 _ hw4 hk4 => ?_
  cases r with
  | none => exact .returning hw4 _
  | some v =>
    refine .bind (.modify hw4 hb (.kept fun _ => ⟨rfl, rfl, rfl⟩))
      fun _ w5 _ hw5 hk5 => ?_
    exact .set hhost hx hw5 (((((hnote.trans hk2).trans hk3).trans hk4).trans hk5).other hcell) v

omit hhost hx hclock in
theorem Vigil.Keeping.stop (hb : b ≠ V.transition) :
    V.Keeping host depth w (Transition.stop b) :=
  .bind (.clearBinding hw hb) fun _ _ _ hu _ =>
    .modify hu hb (.kept fun _ => ⟨rfl, rfl, rfl⟩)

omit hclock in
theorem Upright.create {spec : Spec}
    {interpolate : Value → Value → Float → Value} {a : TransitionId}
    (h : (Transition.create c spec interpolate).tell (host.told depth) w = .ok a w') :
    Upright w' ∧ (V.transition < w.host.1.transitions.size → V.Keeps w w') ∧
      (w.host.1.transitions.size ≤ V.transition →
        (w'.host.1.transition V.transition).binding = none) := by
  obtain ⟨target, u, hpeek, h⟩ := Act.of_tell_bind h
  obtain ⟨hu, hp, hm⟩ := hw.program hhost hx (fun _ => False) (fun _ => not_false)
    (fun hN own hown => .untracked hown (fun _ _ hw' =>
      (Regime.Runs.get hN hw' (.inr trivial)).keeps)
      Regime.stable_true) hpeek
  have hc : u.store.IsProperty c := by
    obtain ⟨_, hget, -⟩ := Told.of_untracked (w := w.beat) hpeek
    have hc : w.store.IsProperty c := (Run.of_onProperty hget).1
    exact hc.kept hm.kept
  cases h
  set s := u.host.1
  set fresh : Transition U := { cell := c, spec, interpolate, target }
  have hget (b : TransitionId) :
      Scene.transition { s with transitions := s.transitions.push fresh } b =
        if b = s.transitions.size then fresh else s.transition b := getD_push ..
  have hbonded : Scene.Bonded u.store { s with transitions := s.transitions.push fresh } := by
    have htracker :
        ∀ d e, (Scene.transition { s with transitions := s.transitions.push fresh } d).tracker =
          some e → (s.transition d).tracker = some e := by
      intro d e hde
      rw [hget] at hde
      split at hde
      · cases hde
      · exact hde
    refine ⟨fun d code hd => ?_, fun d e hde => hu.bonded.tracker d e (htracker d e hde),
      fun d d' e hde hde' => hu.bonded.apart d d' e (htracker d e hde) (htracker d' e hde'),
      fun d hd => ?_, hu.bonded.clock⟩
    · rw [hget] at hd
      split at hd
      · cases hd
      · exact hu.bonded.binding d code hd
    · rw [hget]
      split
      · exact hc
      · rename_i hne
        rw [Array.size_push] at hd
        exact hu.bonded.cell d (Nat.lt_of_le_of_ne (Nat.le_of_lt_succ hd) hne)
  have hsize : s.transitions.size = w.host.1.transitions.size := hm.scene.size
  refine ⟨⟨hu.sane, hu.outside, hu.tended, hbonded⟩, fun hlt => hp.toKeeps.trans ?_, fun hge => ?_⟩
  · refine (hu.staged hbonded ((Nat.le_succ _).trans
      (Nat.le_of_eq (Array.size_push ..).symm)) ?_ fun b hb => ?_).2.toKeeps
    · rw [hget, if_neg ((hsize ▸ hlt).ne)]
    · rw [hget, if_neg hb.ne]
  · rw [hget]
    split
    · rfl
    · rw [Scene.transition, getD_of_size_le (hsize ▸ hge)]
      rfl

/-! ## Steps of other transitions -/

theorem Vigil.Keeping.stepOther (hb : b ≠ V.transition)
    (now : Int64) : V.Keeping host depth w (Transition.step b now) := by
  refine .ask hw fun hn => ?_
  extract_lets move
  have hmove : ∀ {u : SceneTale U X}, Upright u → V.Keeping host depth u (move ()) := by
    intro u hu
    have hcell : V.Present u → V.Fair u → (u.host.1.transition b).cell ≠ V.cell :=
      fun _ hf => hf.cell_ne hb hclock
    refine .ask hu fun hn => ?_
    dsimp only [id]
    split
    · exact .returning hn _
    split
    · exact .returning hn _
    split
    · refine .bind (.modify hn hb (.kept fun _ => ⟨rfl, rfl, rfl⟩))
        fun _ u1 _ hu1 hk1 => ?_
      exact .bind (.set hhost hx hu1 (((Vigil.Passes.noting u).toKeeps.trans hk1).other hcell) _)
        fun _ _ _ hu2 _ => .returning hu2 _
    · exact .bind (.set hhost hx hn ((Vigil.Passes.noting u).toKeeps.other hcell) _)
        fun _ _ _ hu2 _ => .returning hu2 _
  split
  · refine .bind (.modify hn hb (.kept fun _ => ⟨rfl, rfl, rfl⟩))
      fun _ w1 _ hw1 _ => ?_
    refine .bind (.evaluateBinding hhost hx hw1 hb) fun r w2 _ hw2 _ => ?_
    cases r with
    | none => exact hmove hw2
    | some v => exact .bind (.animateTo hhost hx hclock hw2 hb v) fun _ _ _ hw3 _ => hmove hw3
  · exact hmove hn

end

end

end ReactiveTree
