import ReactiveTree.Proofs.Cell.Sane

/-!
# Runs are made of steps

Every run of a program that keeps a chronicle, however deep its code is nested and however
it ends, is a path of steps, and leaves the evaluation stack as it found it, but for the
reads that the innermost frame has recorded meanwhile.
-/

namespace ReactiveTree

variable {S : Type} {K : Type → Type} {α β : Type}
variable {b : Binding K} {c : CellId} {k k' : Stage K} {stop : Stop} {s t : Store K}
  {w w' : Tale S K} {body x : Told S K α}

namespace Store

/-- Two stores with the same evaluation stack. The innermost frame may have recorded reads
in the second one. -/
structure Level (s t : Store K) : Prop where
  active : t.active = s.active
  frames : s.frames = [] ∧ t.frames = [] ∨ ∃ f g rest, s.frames = f :: rest ∧
    t.frames = g :: rest ∧ g.consumer = f.consumer ∧ f.seen ⊆ g.seen

theorem Level.of_frames (ha : t.active = s.active) (hf : t.frames = s.frames) : Level s t := by
  refine ⟨ha, ?_⟩
  rw [hf]
  cases s.frames with
  | nil => exact .inl ⟨rfl, rfl⟩
  | cons f rest => exact .inr ⟨f, f, rest, rfl, rfl, rfl, List.Subset.refl _⟩

theorem Level.refl (s : Store K) : Level s s := .of_frames rfl rfl

theorem Level.trans {u : Store K} (h : Level s t) (h' : Level t u) : Level s u := by
  refine ⟨h'.active.trans h.active, ?_⟩
  rcases h.frames with ⟨hs, ht⟩ | ⟨f, g, rest, hs, ht, hc, hsub⟩
  · rcases h'.frames with ⟨-, hu⟩ | ⟨_, _, _, ht', -⟩
    · exact .inl ⟨hs, hu⟩
    · rw [ht] at ht'
      cases ht'
  · rcases h'.frames with ⟨ht', -⟩ | ⟨f', g', rest', ht', hu, hc', hsub'⟩
    · rw [ht] at ht'
      cases ht'
    · rw [ht, List.cons.injEq] at ht'
      obtain ⟨rfl, rfl⟩ := ht'
      exact .inr ⟨f, g', rest, hs, hu, hc'.trans hc, List.Subset.trans hsub hsub'⟩

theorem Level.stack (h : Level s t) : t.stack = s.stack := by
  rcases h.frames with ⟨hs, ht⟩ | ⟨f, g, rest, hs, ht, hc, -⟩
  · rw [Store.stack, Store.stack, hs, ht]
  · rw [Store.stack, Store.stack, hs, ht, List.map_cons, List.map_cons, hc]

theorem SameAround.level (h : SameAround s t) : Level s t :=
  .of_frames h.active h.frames

theorem level_track (s : Store K) (c : CellId) : Level s (s.track c) := by
  refine ⟨active_track s c, ?_⟩
  have ht := s.tracked c
  generalize s.track c = t at ht ⊢
  cases ht with
  | idle => exact (Level.refl s).frames
  | @edge f rest c hf hc =>
    exact .inr ⟨f, _, rest, hf, rfl, rfl, List.subset_cons_self ..⟩

/-- Under a frame of its own, a run finds the stack below as it was. -/
theorem Level.below {f : Frame} (h : Level s t) {rest : List Frame}
    (hs : s.frames = f :: rest) : ∃ g, t.frames = g :: rest ∧ g.consumer = f.consumer := by
  rcases h.frames with ⟨hs', -⟩ | ⟨f', g, rest', hs', ht, hc, -⟩
  · rw [hs] at hs'
    cases hs'
  · rw [hs, List.cons.injEq] at hs'
    obtain ⟨rfl, rfl⟩ := hs'
    exact ⟨g, ht, hc⟩

theorem Level.leave (h : Level (s.enter c) t) (completed : Bool) :
    t.reader = some c ∧ Level s (t.leave c completed) := by
  obtain ⟨g, ht, hc⟩ := h.below (frames_enter s c)
  refine ⟨reader_of_frames ht hc, .of_frames ?_ (by simp [ht])⟩
  rw [active_leave, h.active, active_enter, Nat.add_sub_cancel]

/-- Cells stay, and stay what they are. -/
structure Kept (s t : Store K) : Prop where
  size : s.cells.size ≤ t.cells.size
  tracker : ∀ c, c < s.cells.size → (t.cell c).tracker = (s.cell c).tracker

theorem Kept.refl (s : Store K) : Kept s s := ⟨Nat.le_refl _, fun _ _ => rfl⟩

theorem Kept.trans {u : Store K} (h : Kept s t) (h' : Kept t u) : Kept s u :=
  ⟨h.size.trans h'.size, fun c hc =>
    (h'.tracker c (hc.trans_le h.size)).trans (h.tracker c hc)⟩

theorem IsProperty.kept (h : s.IsProperty c) (hk : Kept s t) : t.IsProperty c :=
  ⟨h.1.trans_le hk.size, (hk.tracker c h.1).trans h.2⟩

theorem IsTracker.kept (h : s.IsTracker c) (hk : Kept s t) : t.IsTracker c :=
  ⟨h.1.trans_le hk.size, (hk.tracker c h.1).trans h.2⟩

theorem Kept.of_size (h : t.cells.size = s.cells.size)
    (ht : ∀ c, (t.cell c).tracker = (s.cell c).tracker) : Kept s t :=
  ⟨h.ge, fun c _ => ht c⟩

theorem kept_modify (s : Store K) (c : CellId) {g : Cell K → Cell K}
    (hg : ∀ cell, (g cell).tracker = cell.tracker) : Kept s (s.modify c g) :=
  .of_size (by simp) (proj_modify Cell.tracker hg s c)

theorem kept_track (hc : c < s.cells.size) : Kept s (s.track c) := by
  refine .of_size (by simp) fun d => ?_
  by_cases hdc : d = c
  · subst hdc
    obtain ⟨edges, room, hcell, -⟩ := s.cell_track hc
    rw [hcell]
  · rw [cell_track_ne hdc]

theorem kept_enter (hc : c < s.cells.size) : Kept s (s.enter c) := by
  refine .of_size (by simp) fun d => ?_
  rw [s.cell_enter hc]
  split
  · rename_i hd
    rw [hd]
  · rfl

theorem kept_leave (s : Store K) (c : CellId) (completed : Bool) :
    Kept s (s.leave c completed) := by
  refine .of_size (by simp) fun d => ?_
  show ((Store.modify _ c _).cell d).tracker = _
  rw [cell_modify]
  split <;> rfl

end Store

open Store

theorem Step.kept (h : Step k k') (hs : k.store.Sane) : Kept k.store k'.store := by
  cases h with
  | control | wrote | record | readDropped | refuseWork | fail | resume | shelter | unshelter =>
    exact ⟨Nat.le_refl _, fun _ _ => rfl⟩
  | observe c code => exact .of_size (sameAround_observe ..).size fun d =>
    (minor_observe _ c code d).tracker
  | unobserve o => exact .of_size (sameAround_unobserve ..).size fun d =>
    (minor_unobserve _ o d).tracker
  | @add s _ cell _ =>
    refine ⟨by simp [Store.add], fun c hc => ?_⟩
    rw [cell_add, if_neg hc.ne]
  | readClean hc | refuseRead hc => exact kept_track hc.1
  | readUnbound hc _ _ _ ht => exact ht ▸ (kept_track hc.1).trans (kept_modify _ _ fun _ => rfl)
  | beginRead hc => exact (kept_track hc.1).trans (kept_enter (by simpa using hc.1))
  | beginWork hc => exact kept_enter hc.1
  | finishRead bindings v _ _ h =>
    exact h ▸ Kept.trans
      (.of_size (by simp [Store.keep]) fun d => (minor_keep _ _ bindings v d).tracker)
        (kept_leave ..)
  | finishWork | abort | caught => exact kept_leave ..
  | write v hc hd =>
    have hr := (ripple_written hs.arena (hs.isProperty_linkRoot hc).1 v).1
    exact .of_size hr.around.size fun d => (hr.alike d).tracker
  | @rebind s _ c b hc =>
    have hr := (ripple_rebind hs.arena hc.1 b).1
    exact .of_size hr.around.size fun d => (hr.alike d).tracker
  | pair => exact kept_modify _ _ fun _ => rfl
  | @drop s _ c hc =>
    refine .of_size (by simp) fun d => ?_
    rw [cell_drop hc]
    split
    · rename_i hd
      rw [hd]
      split <;> rfl
    · rfl
  | forget ht =>
    have hr := (ripple_forget hs.arena ht.1).1
    exact .of_size hr.around.size fun d => (hr.alike d).tracker

theorem Path.kept (h : Path k k') (hs : k.store.Sane) : Kept k.store k'.store := by
  induction h with
  | refl => exact .refl _
  | tail path step ih => exact ih.trans (step.kept (Path.sane path hs))

/-! ## Programs -/

theorem Run.onProperty_eq (c : CellId) (body : Run S K α) (w : World S K) :
      Run.onProperty c body w = if w.store.IsProperty c then body w else .error
        (.unknownCell c) w := by
  by_cases hlt : c < w.store.cells.size
  · show (if decide (c < w.store.cells.size) = true then _ else _ : Run S K α) w = _
    rw [if_pos (by simpa using hlt)]
    show (if (w.store.cell c).tracker = true then _ else _ : Run S K α) w = _
    by_cases ht : (w.store.cell c).tracker = true
    · rw [if_pos ht, if_neg fun h => by simp [h.2] at ht]
      rfl
    · rw [if_neg ht, if_pos ⟨hlt, by simpa using ht⟩]
  · show (if decide (c < w.store.cells.size) = true then _ else _ : Run S K α) w = _
    rw [if_neg (by simpa using hlt), if_neg fun h => hlt h.1]
    rfl

theorem Run.onTracker_eq (t : CellId) (body : Run S K α) (w : World S K) : Run.onTracker t body w =
      if w.store.IsTracker t then body w else .error (.unknownCell t) w := by
  show (if decide (t < w.store.cells.size) = true then _ else _ : Run S K α) w = _
  by_cases hlt : t < w.store.cells.size
  · rw [if_pos (by simpa using hlt)]
    show (if (w.store.cell t).tracker = true then _ else _ : Run S K α) w = _
    by_cases ht : (w.store.cell t).tracker = true
    · rw [if_pos ht, if_pos ⟨hlt, ht⟩]
    · rw [if_neg ht, if_neg fun h => ht h.2]
      rfl
  · rw [if_neg (by simpa using hlt), if_neg fun h => hlt h.1]
    rfl

namespace Told

/-- The result of a run from `w` is reached by steps, on the same level of the stack. -/
def Reaches (w : Tale S K) :
    EStateM.Result Stop (Tale S K) α → Prop
  | .ok _ w' =>
    PathOver w.store.stack ⟨w.store, w.past, none⟩ ⟨w'.store, w'.past, none⟩ ∧
      Level w.store w'.store
  | .error stop w' =>
    PathOver w.store.stack ⟨w.store, w.past, none⟩ ⟨w'.store, w'.past, some stop⟩ ∧
      Level w.store w'.store

/-- From every sane store that satisfies `P`, the run is made of steps. -/
def Flows (P : Store K → Prop) (x : Told S K α) : Prop :=
  ∀ w, w.store.Sane → P w.store → Reaches w (x w)

variable {P Q : Store K → Prop}

theorem Reaches.trans {u : Tale S K} {r : EStateM.Result Stop (Tale S K) α}
    (hp : PathOver w.store.stack ⟨w.store, w.past, none⟩ ⟨u.store, u.past, none⟩)
    (hl : Level w.store u.store) (h : Reaches u r) : Reaches w r := by
  cases r with
  | ok a w' => exact ⟨hp.trans (hl.stack ▸ h.1), hl.trans h.2⟩
  | error stop w' => exact ⟨hp.trans (hl.stack ▸ h.1), hl.trans h.2⟩

theorem one_step (h : Step k k') (hl : Level k.store k'.store) :
    PathOver k.store.stack k k' ∧ Level k.store k'.store :=
  ⟨.single ⟨h, hl.stack ▸ List.suffix_rfl⟩, hl⟩

/-- What happens above a frame `f` between a step that pushes it and one that pops it. -/
theorem pathOver_within {k1 k2 : Stage K} {f : Option CellId} (hin : Step k k1)
    (h1 : k1.store.stack = f :: k.store.stack) (h : PathOver k1.store.stack k1 k2)
    (hout : Step k2 k') (h' : k'.store.stack = k.store.stack) : PathOver k.store.stack k k' := by
  rw [h1] at h
  refine .tail (.head ⟨hin, ?_⟩ (h.lower (List.suffix_cons ..))) ⟨hout, ?_⟩
  · rw [h1]
    exact List.suffix_cons ..
  · rw [h']

theorem Flows.mono (h : Flows Q x) (hPQ : ∀ s, P s → Q s) : Flows P x :=
  fun w hs hp => h w hs (hPQ _ hp)

theorem flows_pure (a : α) : Flows P (pure a : Told S K α) := fun _ _ _ => ⟨.refl, .refl _⟩

theorem flows_throw (h : ∀ e, stop ≠ .cycle e) : Flows P (throw stop : Told S K α) := fun _ _ _ =>
  one_step (.fail h) (.refl _)

theorem Flows.bind {x : Told S K α} {f : α → Told S K β} (hx : Flows P x)
    (hPQ : ∀ s t, P s → Kept s t → Q t) (hf : ∀ a, Flows Q (f a)) : Flows P (x >>= f) := by
  intro w hs hp
  have h := hx w hs hp
  show Reaches w (EStateM.bind x f w)
  unfold EStateM.bind
  cases hr : x w with
  | ok a w' =>
    rw [hr] at h
    exact .trans h.1 h.2 (hf a w' (Path.sane h.1.path hs) (hPQ _ _ hp (Path.kept h.1.path hs)))
  | error stop w' =>
    rw [hr] at h
    exact h

theorem flows_view {f : Store K → α} {k : α → Told S K β}
    (hk : ∀ a, Flows (fun s => P s ∧ f s = a) (k a)) : Flows P (Run.view f >>= k) :=
  fun w hs hp => hk (f w.store) w hs ⟨hp, rfl⟩

theorem flows_update {f : Store K → Store K}
    (h : ∀ s past, s.Sane → P s → Step ⟨s, past, none⟩ ⟨f s, past, none⟩ ∧ Level s (f s)) :
    Flows P (Run.update f : Told S K Unit) := fun w hs hp =>
  one_step (h w.store w.past hs hp).1 (h w.store w.past hs hp).2

theorem flows_step {f : Store K → α × Store K} (h : ∀ s past, s.Sane → P s →
      PathOver s.stack ⟨s, past, none⟩ ⟨(f s).2, past, none⟩ ∧ Level s (f s).2) :
    Flows P (Run.step f : Told S K α) := fun w hs hp => h w.store w.past hs hp

/-- From every sane store, the run begins with control and is made of steps from there on. -/
def Begins (x : Told S K α) : Prop := ∀ w, w.store.Sane → Reaches w.beat (x w)

theorem Begins.control (h : Flows (fun _ => True) x) : Begins (control x) :=
  fun w hs => h w.beat hs trivial

theorem Begins.flows (h : Begins x) : Flows P x := fun w hs _ =>
  .trans (u := w.beat) (one_step .control (.refl _)).1 (.refl _) (h w hs)

theorem flows_writing
    (h : ∀ w : Tale S K, w.store.Sane → P w.store → Reaches (w.noting (.wrote c))
    (x (w.noting (.wrote c)))) : Flows P (writing c x) := fun w hs hp =>
  .trans (u := w.noting (.wrote c)) (one_step (.wrote c) (.refl _)).1 (.refl _) (h w hs hp)

theorem Flows.ite {y : Told S K α} {p : Prop} [Decidable p] (hx : p → Flows P x)
    (hy : ¬p → Flows P y) : Flows P (if p then x else y) := by
  split
  · exact hx ‹_›
  · exact hy ‹_›

theorem Flows.onCell (h : Flows (fun s => P s ∧ c < s.cells.size) x) : Flows P (Run.onCell c x) :=
  flows_view fun b => .ite (fun hb => h.mono fun _ hs => ⟨hs.1, by simpa [hb] using hs.2⟩)
    fun _ => flows_throw nofun

theorem Flows.onProperty
    (h : Flows (fun s => P s ∧ s.IsProperty c) x) : Flows P (Run.onProperty c x) :=
  .onCell <| flows_view fun _ => .ite (fun _ => flows_throw nofun) fun hb =>
    h.mono fun _ hs => ⟨hs.1.1, hs.1.2, hs.2.trans (by simpa using hb)⟩

theorem Flows.onTracker {t : CellId}
    (h : Flows (fun s => P s ∧ s.IsTracker t) x) : Flows P (Run.onTracker t x) :=
  .onCell <| flows_view fun _ => .ite
    (fun hb => h.mono fun _ hs => ⟨hs.1.1, hs.1.2, hs.2.trans hb⟩) fun _ => flows_throw nofun

theorem Flows.ensure (h : Flows P x) (after : S → S) :
    Flows P (Run.ensure x fun host => (after host.1, host.2)) := by
  intro w hs hp
  have hr := h w hs hp
  unfold Run.ensure
  cases hx : x w with
  | ok a w' =>
    rw [hx] at hr
    exact hr
  | error stop w' =>
    rw [hx] at hr
    exact hr

theorem Flows.untracked {x : Told S K α} (h : Flows (fun _ => True) x) :
    Flows P (Told.untracked x) := by
  intro w hs _
  have hstep : Step ⟨w.store, w.past, none⟩ ⟨(sheltering w).store, (sheltering w).past, none⟩ :=
    .shelter
  have hr := h (sheltering w) (hstep.sane hs) trivial
  -- in both modes the region is left, and the stack below is as it was
  have hend : ∀ (w' : Tale S K) (stop : Option Stop),
      PathOver (sheltering w).store.stack ⟨(sheltering w).store, (sheltering w).past, none⟩
        ⟨w'.store, w'.past, stop⟩ →
      Level (sheltering w).store w'.store →
      PathOver w.store.stack ⟨w.store, w.past, none⟩ ⟨(baring w').store, (baring w').past, stop⟩ ∧
        Level w.store (baring w').store := fun w' stop hp hl => by
    obtain ⟨⟨consumer, seen⟩, hf, rfl⟩ := hl.below rfl
    have hlev : Level w.store (baring w').store :=
      .of_frames hl.active (by simp [baring, World.noting, popFrame, hf])
    exact ⟨pathOver_within hstep rfl hp (.unshelter hf) hlev.stack, hlev⟩
  rw [Told.untracked_eq]
  cases hx : x (sheltering w) with
  | ok a w' =>
    rw [hx] at hr
    exact hend w' none hr.1 hr.2
  | error stop w' =>
    rw [hx] at hr
    exact hend w' (some stop) hr.1 hr.2

/-! ### Evaluations -/

/-- The world in which the evaluation of `c` runs. -/
def entering (c : CellId) (w : Tale S K) : Tale S K :=
  ⟨w.store.enter c, (w.noting (.began c)).host⟩

def leaving (c : CellId) (completed : Bool) (w : Tale S K) :
    Tale S K :=
  World.noting (.ended c completed) ⟨w.store.leave c completed, w.host⟩

theorem evaluate_of_ok {a : α}
    (h : body (entering c w) = .ok a w') : evaluate c body w = .ok (.ok a) (leaving c true w') := by
  have h' : body ⟨w.store.enter c, (w.noting (.began c)).host⟩ = .ok a w' := h
  simp only [evaluate, Run.evaluate, World.noting] at h' ⊢
  rw [h']
  rfl

/-- An evaluation that is cut short turns a cycle into an error if it is the outermost one,
and passes on any other stop. -/
theorem evaluate_of_error (h : body (entering c w) = .error stop w') :
    (∃ e, stop = .cycle e ∧ (w'.store.leave c false).active = 0 ∧
        evaluate c body w = .ok (.error e) (leaving c false w')) ∨
      (∀ e, stop = .cycle e → (w'.store.leave c false).active ≠ 0) ∧
        evaluate c body w = .error stop (leaving c false w') := by
  have h' : body ⟨w.store.enter c, (w.noting (.began c)).host⟩ = .error stop w' := h
  simp only [evaluate, Run.evaluate, World.noting] at h' ⊢
  rw [h']
  cases stop with
  | cycle e =>
    by_cases h0 : (w'.store.leave c false).active = 0
    · refine .inl ⟨e, rfl, h0, ?_⟩
      simp only [h0, if_true]
      rfl
    · refine .inr ⟨fun _ _ => h0, ?_⟩
      simp only [h0]
      rfl
  | panic text => exact .inr ⟨by simp, rfl⟩
  | unknownCell d => exact .inr ⟨by simp, rfl⟩
  | tooDeep => exact .inr ⟨by simp, rfl⟩

variable {nested : Nested (S × Chronicle K) K}

/-- The nested code is made of steps. -/
structure NestedFlows (nested : Nested (S × Chronicle K) K) : Prop where
  code : ∀ {α : Type} (c : K α), Flows (fun _ => True) (nested.code c)
  get : ∀ c, Flows (fun _ => True) (nested.get c)

theorem NestedFlows.compute (h : NestedFlows nested) (b : Binding K) :
    Flows (fun _ => True) (Run.compute nested b) := by
  cases b with
  | follow root => exact h.get root
  | code c => exact h.code c

theorem NestedFlows.trackWork {t : CellId} (hb : Flows (fun _ => True) body) :
    Flows (·.IsTracker t) (trackWork t body) := by
  refine flows_view fun cell => .ite (fun _ => flows_pure _) fun hd => .ite
    (fun hst => ?_) fun hst => ?_
  · rintro w hs ⟨ht, rfl⟩
    exact one_step (.refuseWork ht (by simpa using hd) hst) (.refl _)
  · rintro w hs ⟨ht, rfl⟩
    have hstep : Step ⟨w.store, w.past, none⟩
        ⟨(entering t w).store, (entering t w).past, none⟩ :=
      .beginWork ht (by simpa using hd) hst
    have hr := hb (entering t w) (hstep.sane hs) trivial
    show Reaches w (EStateM.bind (evaluate t body) _ w)
    unfold EStateM.bind
    cases hx : body (entering t w) with
    | ok a w' =>
      rw [hx] at hr
      rw [evaluate_of_ok hx]
      obtain ⟨hread, hlev⟩ := Level.leave hr.2 true
      have htr := ((ht.kept (hstep.kept hs)).kept (Path.kept hr.1.path (hstep.sane hs))).2
      exact ⟨pathOver_within hstep (stack_enter ..) hr.1 (.finishWork hread htr) hlev.stack, hlev⟩
    | error stop w' =>
      rw [hx] at hr
      obtain ⟨hread, hlev⟩ := Level.leave hr.2 false
      rcases evaluate_of_error hx with ⟨e, rfl, hact, heq⟩ | ⟨-, heq⟩
      · rw [heq]
        exact ⟨pathOver_within hstep (stack_enter ..) hr.1 (.caught hread hact) hlev.stack, hlev⟩
      · rw [heq]
        exact ⟨pathOver_within hstep (stack_enter ..) hr.1 (.abort hread) hlev.stack, hlev⟩

/-! ### Reads -/

section

variable {c : CellId} {w : Tale S K}

theorem tryGet_of_dropped (hd : (w.store.cell c).dropped = true) :
    tryGet nested c w = .ok ((w.store.cell c).value, none)
      (w.noting (.got c (w.store.cell c).value)) := by
  show (if (w.store.cell c).dropped = true then _ else _ : Told S K _) w = _
  rw [if_pos hd]
  rfl

/-- A read of a cell that lives is recorded and then goes by the state of the cell. -/
theorem tryGet_of_live (hd : (w.store.cell c).dropped = false) :
    tryGet nested c w = (match (w.store.cell c).state with
      | .clean => do
        note (.got c (w.store.cell c).value)
        return ((w.store.cell c).value, none)
      | .evaluating => do
        note (.refused c)
        throw (.cycle (← Run.view fun s => s.cycleError c))
      | .dirty =>
        match (w.store.cell c).binding with
        | none => do
          Run.update fun s => s.modify c fun cell => { cell with state := .clean }
          note (.got c (w.store.cell c).value)
          return ((w.store.cell c).value, none)
        | some b => do
          let result ← Told.refresh nested c b
          let v ← Run.view fun s => (s.cell c).value
          match result with
          | .ok () =>
            note (.got c v)
            return (v, none)
          | .error e => return (v, some e) : Told S K (Value × Option CycleError))
      ⟨w.store.track c, w.host⟩ := by
  show (if (w.store.cell c).dropped = true then _ else _ : Told S K _) w = _
  rw [if_neg (by simp [hd])]
  rfl

theorem tryGet_of_clean (hd : (w.store.cell c).dropped = false)
    (hst : (w.store.cell c).state = .clean) : tryGet nested c w = .ok ((w.store.cell c).value, none)
      (World.noting (.got c (w.store.cell c).value) ⟨w.store.track c, w.host⟩) := by
  rw [tryGet_of_live hd, hst]
  rfl

theorem tryGet_of_evaluating (hd : (w.store.cell c).dropped = false)
    (hst : (w.store.cell c).state = .evaluating) :
    tryGet nested c w = .error (.cycle ((w.store.track c).cycleError c))
      (World.noting (.refused c) ⟨w.store.track c, w.host⟩) := by
  rw [tryGet_of_live hd, hst]
  rfl

theorem tryGet_of_unbound (hd : (w.store.cell c).dropped = false)
    (hst : (w.store.cell c).state = .dirty) (hb : (w.store.cell c).binding = none) :
    tryGet nested c w = .ok ((w.store.cell c).value, none)
        (World.noting (.got c (w.store.cell c).value) ⟨(w.store.track c).modify c fun cell =>
          { cell with state := .clean }, w.host⟩) := by
  rw [tryGet_of_live hd, hst, hb]
  rfl

/-- The work of an evaluation of `c`, without the value it returns. -/
theorem compute_keep (nested : Nested (S × Chronicle K) K) (c : CellId) (b : Binding K)
    (w : Tale S K) (bindings : Nat) : (do
      let v ← Run.compute nested b
      Run.update fun s => s.keep c bindings v : Told S K Unit) w =
      match Run.compute nested b w with
      | .ok v w' => .ok () ⟨w'.store.keep c bindings v, w'.host⟩
      | .error stop w' => .error stop w' := by
  show EStateM.bind (Run.compute nested b) _ w = _
  unfold EStateM.bind
  cases Run.compute nested b w <;> rfl

theorem refresh_eq (nested : Nested (S × Chronicle K) K) (c : CellId) (b : Binding K)
    (w : Tale S K) : Told.refresh nested c b w = evaluate c (do
      let v ← Run.compute nested b
      Run.update fun s => s.keep c (w.store.cell c).bindings v) w := rfl

theorem tryGet_of_ok {v : Value}
    (hd : (w.store.cell c).dropped = false) (hst : (w.store.cell c).state = .dirty)
    (hb : (w.store.cell c).binding = some b)
    (h : Run.compute nested b (entering c ⟨w.store.track c, w.host⟩) = .ok v w') {t : Tale S K}
    (ht : t = leaving c true ⟨w'.store.keep c ((w.store.track c).cell c).bindings v, w'.host⟩) :
    tryGet nested c w =
      .ok ((t.store.cell c).value, none) (t.noting (.got c (t.store.cell c).value)) := by
  have hbody := compute_keep nested c b (entering c ⟨w.store.track c, w.host⟩)
    ((w.store.track c).cell c).bindings
  rw [h] at hbody
  rw [tryGet_of_live hd, hst, hb]
  show EStateM.bind (Told.refresh nested c b) _ _ = _
  unfold EStateM.bind
  rw [refresh_eq, evaluate_of_ok hbody, ht]
  rfl

/-- A binding was cut short. Its read turns a cycle into an error if it is the outermost one,
and passes on any other stop. -/
theorem tryGet_of_error
    (hd : (w.store.cell c).dropped = false) (hst : (w.store.cell c).state = .dirty)
    (hb : (w.store.cell c).binding = some b)
    (h : Run.compute nested b (entering c ⟨w.store.track c, w.host⟩) = .error stop w') :
    (∃ e, stop = .cycle e ∧ (leaving c false w').store.active = 0 ∧
        tryGet nested c w = .ok (((leaving c false w').store.cell c).value, some e)
          (leaving c false w')) ∨ (∀ e, stop = .cycle e → (leaving c false w').store.active ≠ 0) ∧
        tryGet nested c w = .error stop (leaving c false w') := by
  have hbody := compute_keep nested c b (entering c ⟨w.store.track c, w.host⟩)
    ((w.store.track c).cell c).bindings
  rw [h] at hbody
  rw [tryGet_of_live hd, hst, hb]
  refine (evaluate_of_error hbody).imp ?_ ?_
  · rintro ⟨e, rfl, hact, heq⟩
    refine ⟨e, rfl, hact, ?_⟩
    show EStateM.bind (Told.refresh nested c b) _ _ = _
    unfold EStateM.bind
    rw [refresh_eq, heq]
    rfl
  · rintro ⟨hact, heq⟩
    refine ⟨hact, ?_⟩
    show EStateM.bind (Told.refresh nested c b) _ _ = _
    unfold EStateM.bind
    rw [refresh_eq, heq]

end

section

variable (h : NestedFlows nested)
include h

/-- A read of a dirty cell that has a binding. -/
theorem NestedFlows.refresh (hs : w.store.Sane) (hc : w.store.IsProperty c)
    (hd : (w.store.cell c).dropped = false) (hst : (w.store.cell c).state = .dirty)
    (hb : (w.store.cell c).binding = some b) : Reaches w (Told.tryGet nested c w) := by
  set w0 : Tale S K := ⟨w.store.track c, w.host⟩ with hw0
  have hstep : Step ⟨w.store, w.past, none⟩
      ⟨(entering c w0).store, (entering c w0).past, none⟩ :=
    .beginRead hc hd hst (by simp [hb])
  have hlev0 : Level w.store w0.store := level_track ..
  have hstack : (entering c w0).store.stack = some c :: w.store.stack := by
    simp [entering, hw0]
  have hr := h.compute b (entering c w0) (hstep.sane hs) trivial
  cases hx : Run.compute nested b (entering c w0) with
  | ok v w' =>
    rw [hx] at hr
    rw [tryGet_of_ok hd hst hb hx rfl]
    have htr := ((hc.kept (hstep.kept hs)).kept (Path.kept hr.1.path (hstep.sane hs))).2
    obtain ⟨hread, -⟩ := Level.leave hr.2 true
    have hlev : Level (w0.store.enter c) (w'.store.keep c (w0.store.cell c).bindings v) :=
      hr.2.trans (SameAround.level (.modify ..))
    have hlev' := hlev0.trans (Level.leave hlev true).2
    exact ⟨pathOver_within hstep hstack hr.1 (.finishRead _ v hread htr rfl) hlev'.stack, hlev'⟩
  | error stop w' =>
    rw [hx] at hr
    obtain ⟨hread, hlev⟩ := Level.leave hr.2 false
    have hlev' := hlev0.trans hlev
    rcases tryGet_of_error hd hst hb hx with ⟨e, rfl, hact, heq⟩ | ⟨-, heq⟩
    · rw [heq]
      exact ⟨pathOver_within hstep hstack hr.1 (.caught hread hact) hlev'.stack, hlev'⟩
    · rw [heq]
      exact ⟨pathOver_within hstep hstack hr.1 (.abort hread) hlev'.stack, hlev'⟩

theorem NestedFlows.tryGet (c : CellId) :
    Flows (·.IsProperty c) (Told.tryGet nested c) := by
  intro w hs hc
  cases hd : (w.store.cell c).dropped with
  | true =>
    rw [tryGet_of_dropped hd]
    exact one_step (.readDropped hc hd) (.refl _)
  | false =>
    cases hst : (w.store.cell c).state with
    | clean =>
      rw [tryGet_of_clean hd hst]
      exact one_step (.readClean hc hd hst) (level_track ..)
    | evaluating =>
      rw [tryGet_of_evaluating hd hst]
      exact one_step (.refuseRead hc hd hst) (level_track ..)
    | dirty =>
      cases hb : (w.store.cell c).binding with
      | none =>
        rw [tryGet_of_unbound hd hst hb]
        exact one_step (.readUnbound hc hd hst hb rfl)
          ((level_track ..).trans (SameAround.level (.modify ..)))
      | some b => exact h.refresh hs hc hd hst hb

theorem NestedFlows.get' (c : CellId) :
    Flows (·.IsProperty c) (Told.get nested c) := by
  refine (h.tryGet c).bind (fun _ _ _ _ => trivial) fun result => ?_
  obtain ⟨v, error⟩ := result
  cases error with
  | none => exact flows_pure _
  | some e =>
    refine Flows.bind (flows_update fun s past _ _ => ?_) (fun _ _ _ _ => trivial)
      fun _ => flows_pure v
    split
    · exact ⟨.record _, .of_frames rfl rfl⟩
    · exact ⟨.record _, .of_frames rfl rfl⟩

/-! ### Writes -/

theorem NestedFlows.fire (observers : List ObserverId) :
    Flows (fun _ => True) (Run.fire nested observers) := by
  induction observers with
  | nil => exact flows_pure _
  | cons o rest ih =>
    have ih' : ∀ {Q : Store K → Prop}, Flows Q (Run.fire nested rest) := ih.mono fun _ _ => trivial
    refine flows_view fun observer => ?_
    cases observer with
    | none => exact ih'
    | some observer =>
      exact .ite (fun _ => ih') fun _ => ((h.code _).mono fun _ _ => trivial).bind
        (fun _ _ _ _ => trivial) fun _ => ih'

theorem NestedFlows.notify (cells : List CellId) :
    Flows (fun _ => True) (Run.notify nested cells) := by
  induction cells with
  | nil => exact flows_pure _
  | cons c rest ih =>
    have ih' : ∀ {Q : Store K → Prop}, Flows Q (Run.notify nested rest) :=
      ih.mono fun _ _ => trivial
    exact flows_view fun _ => .ite (fun _ => ih') fun _ => ((h.fire _).mono fun _ _ => trivial).bind
      (fun _ _ _ _ => trivial) fun _ => ih'

/-- A change of the store that is one step, after which cells may be notified. -/
theorem NestedFlows.after
    (hs : w.store.Sane) (hstep : Step ⟨w.store, w.past, none⟩ ⟨t, w.past, none⟩)
    (hl : Level w.store t) {r : EStateM.Result Stop (Tale S K) Unit}
    (hr : r = .ok () ⟨t, w.host⟩ ∨ ∃ cells, r = Run.notify nested cells ⟨t, w.host⟩) :
    Reaches w r := by
  rcases hr with rfl | ⟨cells, rfl⟩
  · exact one_step hstep hl
  · exact .trans (one_step hstep hl).1 hl
      (h.notify cells ⟨t, w.host⟩ (hstep.sane hs) trivial)

omit h in
theorem disturb_told (nested : Nested S K) (c : CellId) (w : World S K) :
    Run.disturb nested c w = match w.store.toldOfUpset c with
      | none => .ok () ⟨w.store.upset c, w.host⟩
      | some cells => Run.notify nested cells ⟨w.store.upset c, w.host⟩ := by
  unfold Store.upset Store.toldOfUpset
  by_cases hm : (w.store.mark c).1 = true
  · simp only [Run.disturb, Run.step, Run.invalidate, Bind.bind, EStateM.bind, hm, if_true]
  · simp only [Run.disturb, Run.step, Bind.bind, EStateM.bind, hm]
    rfl

omit h in
theorem disturb_eq (nested : Nested S K) (c : CellId) (w : World S K) :
    Run.disturb nested c w = .ok () ⟨w.store.upset c, w.host⟩ ∨
      ∃ cells, Run.disturb nested c w = Run.notify nested cells ⟨w.store.upset c, w.host⟩ := by
  rw [disturb_told]
  cases w.store.toldOfUpset c with
  | none => exact .inl rfl
  | some cells => exact .inr ⟨cells, rfl⟩

omit h in
theorem store_eq (nested : Nested S K) (root : CellId) (v : Value) (w : World S K) : (do
      unless ← Run.view fun s => (s.cell root).value.same v do
        Run.update fun s => s.modify root fun cell => { cell with value := v }
        Run.invalidate nested root : Run S K Unit) w =
      if (w.store.cell root).value.same v then .ok () w
      else Run.notify nested
        ((w.store.modify root fun cell => { cell with value := v }).invalidate root).2
        ⟨((w.store.modify root fun cell => { cell with value := v }).invalidate root).1,
          w.host⟩ := by
  show (if (w.store.cell root).value.same v = true then _ else _ : Run S K Unit) w = _
  split
  · rfl
  · rfl

omit h in
theorem set_told (nested : Nested S K) (v : Value) {w : World S K}
    (hd : (w.store.cell c).dropped = false) :
    Run.set nested c v w = match w.store.toldOfWrite (w.store.linkRoot c) v with
      | none => .ok () ⟨w.store.written (w.store.linkRoot c) v, w.host⟩
      | some cells => Run.notify nested cells ⟨w.store.written (w.store.linkRoot c) v, w.host⟩ := by
  generalize hroot : w.store.linkRoot c = root
  have hset : Run.set nested c v w = (do
      unless ← Run.view fun s => (s.cell root).value.same v do
        Run.update fun s => s.modify root fun cell => { cell with value := v }
        Run.invalidate nested root : Run S K Unit)
      ⟨if (w.store.cell root).binding.isSome then w.store.detach root else w.store, w.host⟩ := by
    show (if (w.store.cell c).dropped = true then _ else _ : Run S K Unit) w = _
    rw [if_neg (by simp [hd]), ← hroot]
    show (if (w.store.cell (w.store.linkRoot c)).binding.isSome = true then _ else _ :
      Run S K Unit) w = _
    split
    · rfl
    · rfl
  rw [hset, store_eq]
  unfold Store.written Store.toldOfWrite
  generalize (if (w.store.cell root).binding.isSome then w.store.detach root else w.store) = s
  simp only
  by_cases hsame : (s.cell root).value.same v = true
  · rw [if_pos hsame, if_pos hsame, if_pos hsame]
  · rw [if_neg hsame, if_neg hsame, if_neg hsame]

omit h in
theorem set_eq (nested : Nested S K) (v : Value) {w : World S K}
    (hd : (w.store.cell c).dropped = false) :
    Run.set nested c v w = .ok () ⟨w.store.written (w.store.linkRoot c) v, w.host⟩ ∨
      ∃ cells, Run.set nested c v w =
        Run.notify nested cells ⟨w.store.written (w.store.linkRoot c) v, w.host⟩ := by
  rw [set_told nested v hd]
  cases w.store.toldOfWrite (w.store.linkRoot c) v with
  | none => exact .inl rfl
  | some cells => exact .inr ⟨cells, rfl⟩

theorem NestedFlows.set (c : CellId) (v : Value) :
    Flows (·.IsProperty c) (writing c (Run.set nested c v)) := flows_writing fun w hs hc => by
  cases hd : (w.store.cell c).dropped with
  | true =>
    have heq : Run.set nested c v (w.noting (.wrote c)) = .ok () ⟨w.store.log
        s!"write to dropped property {w.store.nameOf c} ignored", (w.noting (.wrote c)).host⟩ := by
      show (if (w.store.cell c).dropped = true then _ else _ : Told S K Unit) _ = _
      rw [if_pos hd]
      rfl
    rw [heq]
    exact one_step (.record _) (.of_frames rfl rfl)
  | false =>
    exact h.after (w := w.noting (.wrote c)) hs (.write v hc hd)
      (ripple_written hs.arena (hs.isProperty_linkRoot hc).1 v).1.around.level (set_eq nested v hd)

theorem NestedFlows.bind {c : CellId} {b : Binding K}
    {w : Tale S K} (hs : w.store.Sane) (hc : w.store.IsProperty c)
    (hb : ∀ root, b = .follow root → w.store.IsProperty root) :
    Reaches (w.noting (.wrote c)) (Run.bind nested c b (w.noting (.wrote c))) := by
  show Reaches (w.noting (.wrote c))
    ((if (w.store.cell c).dropped = true then _ else _ : Told S K Unit) (w.noting (.wrote c)))
  split
  · exact ⟨.refl, .refl _⟩
  · rename_i hd
    exact h.after (w := w.noting (.wrote c)) hs (.rebind hc (Bool.eq_false_of_not_eq_true hd) hb)
      (ripple_rebind hs.arena hc.1 b).1.around.level
      (disturb_eq nested c ⟨w.store.rebind c b, (w.noting (.wrote c)).host⟩)

theorem NestedFlows.invalidateTracker (t : CellId) :
    Flows (·.IsTracker t) (writing t (Run.invalidateTracker nested t)) :=
  flows_writing fun w hs ht => by
    show Reaches (w.noting (.wrote t))
      ((if (w.store.cell t).dropped = true then _ else _ : Told S K Unit) (w.noting (.wrote t)))
    split
    · exact ⟨.refl, .refl _⟩
    · rename_i hd
      exact h.after (w := w.noting (.wrote t)) hs (.forget ht (Bool.eq_false_of_not_eq_true hd))
        (ripple_forget hs.arena ht.1).1.around.level
        (disturb_eq nested t ⟨w.store.modify t fun cell => { cell with epoch := cell.epoch + 1 },
          (w.noting (.wrote t)).host⟩)

theorem NestedFlows.link (a b : CellId) :
    Flows (fun s => s.IsProperty a ∧ s.IsProperty b) (writing a (Run.link nested a b)) := by
  refine flows_writing fun w hs hp => ?_
  set root := w.store.linkRoot b with hroot
  show Reaches (w.noting (.wrote a))
    ((if root = a then _ else _ : Told S K Bool) (w.noting (.wrote a)))
  split
  · exact ⟨.refl, .refl _⟩
  · have hr : w.store.IsProperty root := hs.isProperty_linkRoot hp.2
    have hbind :
        Reaches (w.noting (.wrote a)) (Run.bind nested a (.follow root) (w.noting (.wrote a))) :=
      h.bind hs hp.1 fun r heq => by
        cases heq
        exact hr
    show Reaches (w.noting (.wrote a)) (EStateM.bind (Run.bind nested a (.follow root)) _ _)
    unfold EStateM.bind
    cases hx : Run.bind nested a (.follow root) (w.noting (.wrote a)) with
    | ok _ w' =>
      -- the root is still a property after the observers of `a` have run
      rw [hx] at hbind
      have hr' : w'.store.IsProperty root := hr.kept (Path.kept hbind.1.path hs)
      exact .trans hbind.1 hbind.2 (one_step (.pair hr') (SameAround.level (.modify ..)))
    | error stop w' =>
      rw [hx] at hbind
      exact hbind

end

end Told

namespace Act

open Told

theorem tell_begins {nested : Nested (S × Chronicle K) K} (h : NestedFlows nested)
    (act : Act S K α) : Begins (act.tell nested) := by
  induction act with
  | pure a => exact .control (flows_pure a)
  | bind x f ihx ihf =>
    intro w hs
    have hr := ihx w hs
    simp only [tell]
    cases hx : x.tell nested w with
    | ok a w' =>
      rw [hx] at hr
      exact .trans hr.1 hr.2
        ((ihf a).flows (P := fun _ => True) w' (Path.sane hr.1.path hs) trivial)
    | error stop w' =>
      rw [hx] at hr
      exact hr
  | host f => exact .control fun _ _ _ => ⟨.refl, .refl _⟩
  | view f => exact .control fun _ _ _ => ⟨.refl, .refl _⟩
  | record e => exact .control (flows_update fun _ _ _ _ => ⟨.record e, .of_frames rfl rfl⟩)
  | panic text => exact .control (flows_throw (by simp))
  | perform c => exact .control (h.code c)
  | untracked body ih => exact .control ih.flows.untracked
  | ensure body after ih => exact .control (ih.flows.ensure after)
  | new name v =>
    exact .control (flows_step fun _ _ _ _ => one_step (.add (.value name v)) (.of_frames rfl rfl))
  | newBound name c =>
    exact .control (flows_step fun _ _ _ _ => one_step (.add (.bound name c)) (.of_frames rfl rfl))
  | newTracker name onDirty =>
    refine .control (flows_step fun s past _ _ => ?_)
    have hadd :
        Step ⟨s, past, none⟩ ⟨(s.add { name, tracker := true, state := .dirty }).2, past, none⟩ :=
      .add (.tracker name)
    cases onDirty with
    | none => exact one_step hadd (.of_frames rfl rfl)
    | some code =>
      exact ⟨.tail (one_step hadd (.of_frames rfl rfl)).1 ⟨.observe _ code, List.suffix_rfl⟩,
        .of_frames rfl rfl⟩
  | tryGet c => exact .control (.onProperty ((h.tryGet c).mono fun _ hp => hp.2))
  | get c => exact .control (.onProperty ((h.get' c).mono fun _ hp => hp.2))
  | set c v => exact .control (.onProperty ((h.set c v).mono fun _ hp => hp.2))
  | setBinding c code =>
    exact .control (.onProperty (flows_writing fun w hs hp =>
      h.bind hs hp.2 (by simp)))
  | link a b =>
    exact .control (.onProperty (.onProperty
      ((h.link a b).mono fun _ hp => ⟨hp.1.2, hp.2⟩)))
  | drop c =>
    exact .control (.onCell (flows_update fun s _ _ hc =>
      ⟨.drop hc.2, .of_frames (active_drop s c) (frames_drop s c)⟩))
  | observe c code =>
    exact .control (.onCell (flows_step fun s _ _ _ =>
      one_step (.observe c code) (sameAround_observe s c code).level))
  | unobserve o =>
    exact .control (flows_update fun s _ _ _ => ⟨.unobserve o, (sameAround_unobserve s o).level⟩)
  | track t body ih =>
    exact .control (.onTracker ((NestedFlows.trackWork ih.flows).mono fun _ hp => hp.2))
  | invalidate t =>
    exact .control (.onTracker ((h.invalidateTracker t).mono fun _ hp => hp.2))

theorem tell_flows {nested : Nested (S × Chronicle K) K} (h : NestedFlows nested)
    (act : Act S K α) : Flows (fun _ => True) (act.tell nested) := (tell_begins h act).flows

variable (meaning : {α : Type} → K α → Act S K α)

theorem toldTo_flows (depth : Nat) : NestedFlows (toldTo meaning depth) := by
  induction depth with
  | zero => exact ⟨fun _ => flows_throw nofun, fun _ => flows_throw nofun⟩
  | succ depth ih => exact ⟨fun c => tell_flows ih (meaning c), fun c => tell_flows ih (.get c)⟩

/-- A whole session is made of steps, and ends with an empty stack. -/
theorem toldSession_path (depth : Nat) (acts : List (Act S K Unit))
    (hs : w.store.Sane) (hf : w.store.frames = []) :
    Path ⟨w.store, w.past, none⟩ ⟨(toldSession meaning depth acts w).store,
      (toldSession meaning depth acts w).past, none⟩ ∧
      (toldSession meaning depth acts w).store.frames = [] := by
  induction acts generalizing w with
  | nil => exact ⟨.refl, hf⟩
  | cons act acts ih =>
    have hr := tell_flows (toldTo_flows meaning depth) act w hs trivial
    show Path _
      ⟨(toldSession meaning depth acts (outcome (act.tell (toldTo meaning depth) w))).store,
      (toldSession meaning depth acts (outcome (act.tell (toldTo meaning depth) w))).past, none⟩ ∧
        (toldSession meaning depth acts
          (outcome (act.tell (toldTo meaning depth) w))).store.frames = []
    cases hx : act.tell (toldTo meaning depth) w with
    | ok a w' =>
      rw [hx] at hr
      have hf' : w'.store.frames = [] := by simpa [stack, hf] using hr.2.stack
      obtain ⟨hp, hend⟩ := ih (Path.sane hr.1.path hs) hf'
      exact ⟨hr.1.path.trans hp, hend⟩
    | error stop w' =>
      rw [hx] at hr
      have hf' : w'.store.frames = [] := by simpa [stack, hf] using hr.2.stack
      obtain ⟨hp, hend⟩ := ih (Path.sane hr.1.path hs) hf'
      exact ⟨(hr.1.path.tail (.resume hf')).trans hp, hend⟩

end Act

end ReactiveTree
