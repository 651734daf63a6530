import ReactiveTree.Proofs.Cell.Lockstep

/-!
# The cache is transparent

Programs that make no trackers, with formulas for bindings, cannot tell the cells from cells
that are computed anew for each read. Whenever no evaluation is in progress, at the end of a
session as well as while observers run, a read returns the value that a computation from
scratch gives, and an error exactly if that computation comes back to a cell it is computing.
-/

namespace ReactiveTree

variable {S : Type} {K : Type → Type} {α β : Type}

open Store Told

variable {c : CellId} {t : Store K} {P : Store K → Prop} {w : Tale S K} {x : Told S K α}

/-- A program that makes no trackers. -/
def Act.Trackerless : {α : Type} → Act S K α → Prop
  | _, .bind x f => x.Trackerless ∧ ∀ a, (f a).Trackerless
  | _, .untracked body => body.Trackerless
  | _, .ensure body _ => body.Trackerless
  | _, .newTracker _ _ => False
  | _, _ => True

section

variable (meaning : {α : Type} → K α → Act S K α)

/-- Every read of a cell, if code may be nested as deep as there are cells, returns what a
computation from scratch gives. -/
def Store.Truthful (s : Store K) : Prop :=
  ∀ (host : S) (depth : Nat) (p : CellId), s.cells.size ≤ depth →
    match s.recompute meaning [] p with
    | .ok v => ∃ w, (Act.tryGet p).runTo meaning depth ⟨s, host⟩ = .ok (v, none) w
    | .error (.reentered _) =>
      ∃ v e w, (Act.tryGet p).runTo meaning depth ⟨s, host⟩ = .ok (v, some e) w
    | .error (.unknown c) =>
      ∃ w, (Act.tryGet p).runTo meaning depth ⟨s, host⟩ = .error (.unknownCell c) w
    | .error .effect => False

/-- Only formulas have been evaluated, none is being evaluated, and reads were truthful
whenever code had control outside of evaluations. -/
structure AtRest (w : Tale S K) : Prop where
  faithful : Faithful meaning ⟨w.store, w.past, none⟩
  rest : w.store.consumers = []
  truthful : ∀ m ∈ w.past, m.event = .control → m.store.consumers = [] → m.store.Truthful meaning

/-- The run leaves at rest what was at rest and satisfied `P`, and loses no cell. -/
def Rests (P : Store K → Prop) (x : Told S K α) : Prop :=
  ∀ w, AtRest meaning w → P w.store →
    AtRest meaning (Act.outcome (x w)) ∧ w.store.cells.size ≤ (Act.outcome (x w)).store.cells.size

end

section

variable {meaning : {α : Type} → K α → Act S K α}

theorem AtRest.calm {w' : Tale S K} {stop : Option Stop} (h : AtRest meaning w)
    (hcalm : Calm w w') (he : ∃ rank, Explained meaning rank w'.store w'.past)
    (hcoh : Coherence [] ⟨w'.store, w'.past, stop⟩) : AtRest meaning w' := by
  have hrest : w'.store.consumers = [] := hcalm.consumers.trans h.rest
  have hcoh' : Coherence [] ⟨w'.store, w'.past, none⟩ := by
    cases stop with
    | none => exact hcoh
    | some stop => exact hcoh.resume hrest
  obtain ⟨new, hpast, hnew⟩ := hcalm.moments
  refine ⟨h.faithful.calm hcalm hcoh' he, hrest, fun m hmem hctl hm => ?_⟩
  rw [hpast] at hmem
  exact (List.mem_append.mp hmem).elim (fun hmem => absurd hm (hnew m hmem hctl))
    fun hmem => h.truthful m hmem hctl hm

/-- One step that evaluates nothing and makes no cell clean that has a rule. -/
theorem AtRest.step (h : AtRest meaning w)
    {host : S × Chronicle K} (hreads : ∀ c, host.2.reads c = w.past.reads c)
    (hmoments : ∀ m ∈ host.2, m.event = .control → m ∈ w.past)
    (hcoh : Coherence [] ⟨t, host.2, none⟩) (hstack : t.stack.reduceOption = w.store.consumers)
    (htracker : ∀ c, (t.cell c).tracker = false) (hsame : ∀ c b, (t.cell c).state = .clean →
      (t.cell c).rule = some b → (w.store.cell c).state = .clean ∧ (w.store.cell c).rule = some b ∧
        (t.cell c).value = (w.store.cell c).value) : AtRest meaning ⟨t, host⟩ := by
  have hrest : t.consumers = [] := hstack.trans h.rest
  refine ⟨⟨hcoh, htracker, fun c hc => ?_, ?_⟩, hrest,
    fun m hm hctl => h.truthful m (hmoments m hm hctl) hctl⟩
  · rw [show Stage.store ⟨t, host.2, none⟩ = t from rfl, hrest] at hc
    cases hc
  · obtain ⟨rank, he⟩ := h.faithful.explained
    exact ⟨rank, he.transfer fun c b hst hr => ⟨(hsame c b hst hr).1, (hsame c b hst hr).2.1,
      (hsame c b hst hr).2.2, hreads c⟩⟩

/-- What reads depend on. -/
def Cell.core (cell : Cell K) : Bool × CellState × Option (Binding K) × Value :=
  (cell.tracker, cell.state, cell.rule, cell.value)

theorem AtRest.noted (h : AtRest meaning w) {host : S × Chronicle K}
    (hreads : ∀ c, host.2.reads c = w.past.reads c)
    (hmoments : ∀ m ∈ host.2, m.event = .control → m ∈ w.past)
    (hstep : Step ⟨w.store, w.past, none⟩ ⟨t, host.2, none⟩)
    (hstack : t.stack.reduceOption = w.store.consumers)
    (hcore : ∀ d, (t.cell d).core = (w.store.cell d).core) : AtRest meaning ⟨t, host⟩ := by
  refine h.step hreads hmoments (hstep.coherence h.faithful.coherence) hstack
    (fun d => (congrArg Prod.fst (hcore d)).trans (h.faithful.properties d)) fun d b hst hr => ?_
  simp only [Cell.core, Prod.mk.injEq] at hcore
  obtain ⟨-, hstate, hrule, hvalue⟩ := hcore d
  exact ⟨hstate.symm.trans hst, hrule.symm.trans hr, hvalue⟩

theorem AtRest.same (h : AtRest meaning w) (hstep : Step ⟨w.store, w.past, none⟩ ⟨t, w.past, none⟩)
    (hstack : t.stack.reduceOption = w.store.consumers)
    (hcore : ∀ d, (t.cell d).core = (w.store.cell d).core) : AtRest meaning ⟨t, w.host⟩ :=
  h.noted (fun _ => rfl) (fun _ hm _ => hm) hstep hstack hcore

/-- A change of a cell whose dependents are marked. The cell itself is not clean afterwards, or
has no binding. -/
theorem AtRest.ripple (h : AtRest meaning w)
    (hsane : t.Sane) (hr : Ripple w.store t c) (hd : (w.store.cell c).dropped = false)
    (hc : ¬(t.cell c).Fresh ∨ (t.cell c).binding = none) : AtRest meaning ⟨t, w.host⟩ := by
  have hcoh : Coherence [] ⟨t, w.past, none⟩ := by
    refine h.faithful.coherence.ripple hsane hr hd (hc.imp_right fun hb => ?_)
    simp [Cell.Computed, hb, (hr.alike c).tracker, h.faithful.properties c]
  refine h.step (fun _ => rfl) (fun _ hm _ => hm) hcoh
    (congrArg (List.reduceOption ∘ List.map Frame.consumer) hr.around.frames)
    (fun d => (hr.alike d).tracker.trans (h.faithful.properties d)) fun d b hst hrule => ?_
  have hdc : d ≠ c := fun hdc => by
    subst hdc
    rcases hc with hf | hb
    · exact hf (.inl hst)
    · rw [(Cell.rule_eq_some.mp hrule).2] at hb
      cases hb
  rcases hr.other d hdc with heq | ⟨-, heq⟩
  · rw [heq] at hst hrule ⊢
    exact ⟨hst, hrule, rfl⟩
  · rw [heq] at hst
    exact absurd (.inl hst) (Cell.not_fresh_spoil _)

/-! ## Reads -/

section

variable (hm : ∀ code : K Value, (meaning code).Formula)

include hm

theorem Faithful.truthful
    (hw : Faithful meaning ⟨w.store, w.past, none⟩) (hrest : w.store.consumers = []) :
    w.store.Truthful meaning := by
  intro host depth p hdeep
  -- the read happens in a world whose chronicle explains the store
  set w0 : Tale S K := ⟨w.store, host, w.past⟩ with hw0
  have hw1 : Faithful meaning ⟨w0.beat.store, w0.beat.past, none⟩ :=
    Faithful.control hw
  have hecho := Act.tell_echoes (Act.toldTo_echoes meaning depth) (Act.tryGet p) w0
  have hrun : (Act.tryGet p).runTo meaning depth ⟨w.store, host⟩ =
      untoldResult ((Act.tryGet p).tell (Act.toldTo meaning depth) w0) := hecho.symm
  have htell : (Act.tryGet p).tell (Act.toldTo meaning depth) w0 =
      if w.store.IsProperty p then tryGet (Act.toldTo meaning depth) p w0.beat
      else .error (.unknownCell p) w0.beat := Run.onProperty_eq ..
  rw [htell] at hrun
  by_cases hp : w.store.IsProperty p
  · rw [if_pos hp] at hrun
    have hagrees := (readInStep hm depth hw1 hp).agrees
    have hdeep' : w0.beat.store.Deep depth := Nat.le_add_right_of_le hdeep
    rw [show w0.beat.store.consumers = [] from hrest] at hagrees
    generalize tryGet (Act.toldTo meaning depth) p w0.beat = r at hagrees hrun
    rw [hrun]
    generalize ho : w.store.recompute meaning [] p = o
    rw [show w0.beat.store.recompute meaning [] p = o from ho] at hagrees
    cases hagrees with
    | value v w' => exact ⟨_, rfl⟩
    | caught c v e w' => exact ⟨_, _, _, rfl⟩
    | cycle c e w' h => exact absurd rfl h
    | unknown c w' => exact ⟨_, rfl⟩
    | tooDeep _ _ h => exact absurd hdeep' h
  · rw [if_neg hp] at hrun
    rw [recompute_unknown hp]
    exact ⟨_, hrun⟩

theorem AtRest.control (h : AtRest meaning w) : AtRest meaning w.beat := by
  refine ⟨h.faithful.control, h.rest, fun m hmem hctl hrest => ?_⟩
  rcases List.mem_cons.mp hmem with rfl | hmem
  · exact h.faithful.truthful hm h.rest
  · exact h.truthful m hmem hctl hrest

theorem rests_tryGet (depth : Nat) (x : CellId) :
    Rests meaning (·.IsProperty x) (tryGet (Act.toldTo meaning depth) x) := by
  intro w hw hx
  obtain ⟨hcalm, he⟩ := (readInStep hm depth hw.faithful hx).toKeeps
  have hreach := (Act.toldTo_flows meaning depth).tryGet x w hw.faithful.coherence.sane hx
  refine ⟨?_, hcalm.sources.size.ge⟩
  cases hr : tryGet (Act.toldTo meaning depth) x w with
  | ok a w' =>
    rw [hr] at hcalm he hreach
    exact hw.calm hcalm he (Path.coherence hreach.1.path hw.faithful.coherence)
  | error stop w' =>
    rw [hr] at hcalm he hreach
    exact hw.calm hcalm he (Path.coherence hreach.1.path hw.faithful.coherence)

end

/-! ## Runs that come to rest -/

namespace Rests

variable {P Q : Store K → Prop}

theorem mono (h : Rests meaning Q x) (hPQ : ∀ s, P s → Q s) : Rests meaning P x :=
  fun w hw hp => h w hw (hPQ _ hp)

theorem pure (a : α) : Rests meaning P (Pure.pure a : Told S K α) := fun _ hw _ =>
  ⟨hw, Nat.le_refl _⟩

theorem throw (stop : Stop) : Rests meaning P (MonadExcept.throw stop : Told S K α) :=
  fun _ hw _ => ⟨hw, Nat.le_refl _⟩

theorem bind {x : Told S K α} {f : α → Told S K β} (hx : Rests meaning P x)
    (hPQ : ∀ s t : Store K, P s → s.cells.size ≤ t.cells.size → Q t)
    (hf : ∀ a, Rests meaning Q (f a)) : Rests meaning P (x >>= f) := by
  intro w hw hp
  have h := hx w hw hp
  show AtRest meaning (Act.outcome (EStateM.bind x f w)) ∧
    w.store.cells.size ≤ (Act.outcome (EStateM.bind x f w)).store.cells.size
  unfold EStateM.bind
  cases hr : x w with
  | ok a w' =>
    rw [hr] at h
    obtain ⟨hw', hle⟩ := hf a w' h.1 (hPQ _ _ hp h.2)
    exact ⟨hw', h.2.trans hle⟩
  | error stop w' =>
    rw [hr] at h
    exact h

theorem view {f : Store K → α} {k : α → Told S K β}
    (hk : ∀ a, Rests meaning (fun s => P s ∧ f s = a) (k a)) : Rests meaning P (Run.view f >>= k) :=
  fun w hw hp => hk (f w.store) w hw ⟨hp, rfl⟩

theorem ite {y : Told S K α} {p : Prop} [Decidable p] (hx : p → Rests meaning P x)
    (hy : ¬p → Rests meaning P y) : Rests meaning P (if p then x else y) := by
  split
  · exact hx ‹_›
  · exact hy ‹_›

theorem update {f : Store K → Store K} (h : ∀ w, AtRest meaning w → P w.store →
      AtRest meaning ⟨f w.store, w.host⟩ ∧ w.store.cells.size ≤ (f w.store).cells.size) :
    Rests meaning P (Run.update f : Told S K Unit) := h

theorem step {f : Store K → α × Store K} (h : ∀ w, AtRest meaning w → P w.store →
      AtRest meaning ⟨(f w.store).2, w.host⟩ ∧ w.store.cells.size ≤ (f w.store).2.cells.size) :
    Rests meaning P (Run.step f : Told S K α) := h

theorem writing (c : CellId) (h : Rests meaning P x) :
    Rests meaning P (writing c x) := fun w hw hp => by
  refine h (w.noting (.wrote c)) ⟨?_, hw.rest, fun m hmem hctl hrest => ?_⟩ hp
  · obtain ⟨rank, he⟩ := hw.faithful.explained
    exact ⟨(Step.wrote c).coherence hw.faithful.coherence, hw.faithful.properties,
      hw.faithful.consumers, rank, he.transfer fun _ _ hst hr => ⟨hst, hr, rfl, rfl⟩⟩
  · rcases List.mem_cons.mp hmem with rfl | hmem
    · cases hctl
    · exact hw.truthful m hmem hctl hrest

theorem onCell
    (h : Rests meaning (fun s => P s ∧ c < s.cells.size) x) : Rests meaning P (Run.onCell c x) :=
  view fun _ => ite (fun hb => h.mono fun _ hs => ⟨hs.1, by simpa [hb] using hs.2⟩) fun _ => throw _

theorem onProperty
    (h : Rests meaning (fun s => P s ∧ s.IsProperty c) x) : Rests meaning P (Run.onProperty c x) :=
  onCell <| view fun _ => ite (fun _ => throw _) fun hb =>
    h.mono fun _ hs => ⟨hs.1.1, hs.1.2, hs.2.trans (by simpa using hb)⟩

theorem onTracker (x : Told S K α) (t : CellId) : Rests meaning P (Run.onTracker t x) :=
  onCell <| view fun _ => ite
    (fun hb w hw hp => by simp [← hp.2, hw.faithful.properties t] at hb) fun _ => throw _

theorem ensure (h : Rests meaning P x) (after : S → S) :
    Rests meaning P (Run.ensure x fun host => (after host.1, host.2)) := by
  intro w hw hp
  have hr := h w hw hp
  unfold Run.ensure
  cases hx : x w with
  | ok a w' =>
    rw [hx] at hr
    exact ⟨⟨hr.1.faithful, hr.1.rest, hr.1.truthful⟩, hr.2⟩
  | error stop w' =>
    rw [hx] at hr
    exact ⟨⟨hr.1.faithful, hr.1.rest, hr.1.truthful⟩, hr.2⟩

end Rests

section

variable {nested : Nested (S × Chronicle K) K}
  (h : ∀ {α : Type} (c : K α), Rests meaning (fun _ => True) (nested.code c))

include h

theorem rests_fire (observers : List ObserverId) :
    Rests meaning (fun _ => True) (Run.fire nested observers) := by
  induction observers with
  | nil => exact .pure _
  | cons o rest ih =>
    have ih' : ∀ {Q : Store K → Prop}, Rests meaning Q (Run.fire nested rest) :=
      ih.mono fun _ _ => trivial
    refine .view fun observer => ?_
    cases observer with
    | none => exact ih'
    | some observer =>
      exact .ite (fun _ => ih') fun _ => ((h _).mono fun _ _ => trivial).bind
        (fun _ _ _ _ => trivial) fun _ => ih'

theorem rests_notify (cells : List CellId) :
    Rests meaning (fun _ => True) (Run.notify nested cells) := by
  induction cells with
  | nil => exact .pure _
  | cons c rest ih =>
    have ih' : ∀ {Q : Store K → Prop}, Rests meaning Q (Run.notify nested rest) :=
      ih.mono fun _ _ => trivial
    exact .view fun _ => .ite (fun _ => ih') fun _ =>
      ((rests_fire h _).mono fun _ _ => trivial).bind (fun _ _ _ _ => trivial) fun _ => ih'

/-- A change of the store, after which cells may be notified. -/
theorem AtRest.after (ht : AtRest meaning ⟨t, w.host⟩)
    (hsize : t.cells.size = w.store.cells.size) {r : EStateM.Result Stop (Tale S K) Unit}
    (hr : r = .ok () ⟨t, w.host⟩ ∨ ∃ cells, r = Run.notify nested cells ⟨t, w.host⟩) :
    AtRest meaning (Act.outcome r) ∧ w.store.cells.size ≤ (Act.outcome r).store.cells.size := by
  rcases hr with rfl | ⟨cells, rfl⟩
  · exact ⟨ht, hsize.ge⟩
  · obtain ⟨hw', hle⟩ := rests_notify h cells ⟨t, w.host⟩ ht trivial
    exact ⟨hw', hsize.ge.trans hle⟩

omit h in
/-- Something is written to the journal. -/
theorem AtRest.record (hw : AtRest meaning w) (e : Entry) :
    AtRest meaning ⟨w.store.record e, w.host⟩ := hw.same (.record e) rfl fun _ => rfl

theorem rests_set (c : CellId) (v : Value) :
    Rests meaning (·.IsProperty c) (Run.set nested c v) := by
  intro w hw hc
  cases hd : (w.store.cell c).dropped with
  | true =>
    have heq : Run.set nested c v w = .ok () ⟨w.store.log
        s!"write to dropped property {w.store.nameOf c} ignored", w.host⟩ := by
      show (if (w.store.cell c).dropped = true then _ else _ : Told S K Unit) w = _
      rw [if_pos hd]
      rfl
    rw [heq]
    exact ⟨hw.record _, Nat.le_refl _⟩
  | false =>
    have hs := hw.faithful.coherence.sane
    obtain ⟨hr, hb, -⟩ := ripple_written hs.arena (hs.isProperty_linkRoot hc).1 v
    exact AtRest.after h (hw.ripple (hs.written (hs.isProperty_linkRoot hc) v) hr
      (dropped_linkRoot hd) (.inr hb)) hr.around.size (set_eq nested v hd)

theorem rests_bind (c : CellId) (b : Binding K) :
    Rests meaning (fun s => s.IsProperty c ∧ ∀ root, b = .follow root → s.IsProperty root)
      (Run.bind nested c b) := by
  rintro w hw ⟨hc, hb⟩
  show AtRest meaning (Act.outcome
    ((if (w.store.cell c).dropped = true then _ else _ : Told S K Unit) w)) ∧
      w.store.cells.size ≤ (Act.outcome
        ((if (w.store.cell c).dropped = true then _ else _ : Told S K Unit) w)).store.cells.size
  split
  · exact ⟨hw, Nat.le_refl _⟩
  · rename_i hd
    have hs := hw.faithful.coherence.sane
    obtain ⟨hr, hf⟩ := ripple_rebind hs.arena hc.1 b
    exact AtRest.after h (hw.ripple (hs.rebind hc hb) hr (by simpa using hd) (.inl hf))
      hr.around.size (disturb_eq nested c ⟨w.store.rebind c b, w.host⟩)

theorem rests_link (a b : CellId) :
    Rests meaning (fun s => s.IsProperty a ∧ s.IsProperty b) (Run.link nested a b) := by
  refine .view fun root => .ite (fun _ => .pure _) fun _ => ?_
  rintro w hw ⟨⟨ha, hb⟩, rfl⟩
  have hroot := hw.faithful.coherence.sane.isProperty_linkRoot hb
  refine Rests.bind (P := fun s => s.IsProperty a ∧ s.IsProperty (w.store.linkRoot b))
    (Q := fun s => w.store.linkRoot b < s.cells.size) ((rests_bind h a _).mono ?_) ?_ ?_ w hw
      ⟨ha, hroot⟩
  · rintro s ⟨ha, hr⟩
    refine ⟨ha, fun r heq => ?_⟩
    cases heq
    exact hr
  · exact fun s t hp hle => hp.2.1.trans_le hle
  · refine fun _ => Rests.bind (.update fun w' hw' hr => ?_)
      (fun _ _ _ _ => trivial) fun _ => .pure _
    refine ⟨hw'.same (.pair ⟨hr, hw'.faithful.properties _⟩) rfl fun d => ?_, (size_modify ..).ge⟩
    exact proj_modify Cell.core
      (f := fun cell => { cell with partner := some (w.store.linkRoot b) }) (fun _ => rfl) _ a d

end

theorem rests_untracked (hx : Rests meaning (fun _ => True) x) (hflows : Flows (fun _ => True) x) :
    Rests meaning P (Told.untracked x) := by
  intro w hw _
  have hin : AtRest meaning (sheltering w) :=
    hw.noted (fun _ => rfl) (fun m hm hctl => (List.mem_cons.mp hm).resolve_left fun he => by
      rw [he] at hctl
      cases hctl) .shelter (by simp [pushFrame, stack, Store.consumers]) fun _ => rfl
  have hr := hx (sheltering w) hin trivial
  have hreach := hflows (sheltering w) hin.faithful.coherence.sane trivial
  -- in both modes the region is left
  have hend : ∀ w' : Tale S K, AtRest meaning w' → Level (sheltering w).store w'.store →
      AtRest meaning (baring w') := fun w' hw' hl => by
    obtain ⟨⟨consumer, seen⟩, hf, rfl⟩ := hl.below rfl
    exact hw'.noted (fun _ => rfl) (fun m hm hctl => (List.mem_cons.mp hm).resolve_left fun he => by
      rw [he] at hctl
      cases hctl) (.unshelter hf) (by simp [popFrame, stack, Store.consumers, hf]) fun _ => rfl
  rw [Told.untracked_eq]
  cases hx : x (sheltering w) with
  | ok a w' =>
    rw [hx] at hr hreach
    exact ⟨hend w' hr.1 hreach.2, hr.2⟩
  | error stop w' =>
    rw [hx] at hr hreach
    exact ⟨hend w' hr.1 hreach.2, hr.2⟩

theorem rests_add {f : Store K → α} {cell : Cell K} (hb : cell.Blank) (ht : cell.tracker = false)
    : Rests meaning P (Run.step fun s => (f s, (s.add cell).2) : Told S K α) := by
  refine .step fun w hw _ => ⟨hw.step (fun _ => rfl) (fun _ hm _ => hm)
    ((Step.add hb).coherence hw.faithful.coherence) rfl (fun d => ?_) fun d b hst hr => ?_, ?_⟩
  · rw [cell_add]
    split
    · exact ht
    · exact hw.faithful.properties d
  · -- the new cell is dirty or has no rule
    rw [cell_add] at hst hr ⊢
    split at hst
    · rename_i hd
      rw [if_pos hd] at hr
      cases hb <;> simp [Cell.rule] at hst hr
    · rename_i hd
      rw [if_neg hd] at hr ⊢
      exact ⟨hst, hr, rfl⟩
  · simp [Store.add]

theorem rests_drop (c : CellId) :
    Rests meaning (fun s => c < s.cells.size) (Run.update fun s => s.drop c : Told S K Unit) := by
  refine .update fun w hw hc => ⟨hw.step (fun _ => rfl) (fun _ hm _ => hm)
    (hw.faithful.coherence.drop hc) (by simp [Store.consumers]) (fun d => ?_)
    fun d b hst hr => ?_, (size_drop ..).ge⟩
  · rw [cell_drop hc]
    by_cases hd : d = c
    · rw [if_pos hd]
      split <;> exact hw.faithful.properties c
    · rw [if_neg hd]
      exact hw.faithful.properties d
  · rw [cell_drop hc] at hst hr ⊢
    by_cases hd : d = c
    · rw [if_pos hd] at hr
      split at hr <;> simp [Cell.rule] at hr
    · rw [if_neg hd] at hst hr ⊢
      exact ⟨hst, hr, rfl⟩

/-! ## Programs and sessions -/

section

variable (hm : ∀ code : K Value, (meaning code).Formula)

include hm

theorem Rests.control (h : Rests meaning P x) :
    Rests meaning P (Told.control x) := fun w hw hp => h w.beat (hw.control hm) hp

theorem tell_rests {depth : Nat}
    (hcode : ∀ {α : Type} (c : K α), Rests meaning
    (fun _ => True) ((Act.toldTo meaning depth).code c)) (act : Act S K α) (ht : act.Trackerless) :
    Rests meaning (fun _ => True) (act.tell (Act.toldTo meaning depth)) := by
  induction act with
  | pure a => exact .control hm (.pure a)
  | bind x f ihx ihf =>
    intro w hw htr
    have hr := ihx ht.1 w hw htr
    simp only [Act.tell]
    cases hx : x.tell (Act.toldTo meaning depth) w with
    | ok a w' =>
      rw [hx] at hr
      obtain ⟨hw', hle⟩ := ihf a (ht.2 a) w' hr.1 trivial
      exact ⟨hw', hr.2.trans hle⟩
    | error stop w' =>
      rw [hx] at hr
      exact hr
  | host f =>
    exact .control hm fun w hw _ => ⟨⟨hw.faithful, hw.rest, hw.truthful⟩, Nat.le_refl _⟩
  | view f => exact .control hm fun w hw _ => ⟨hw, Nat.le_refl _⟩
  | record e => exact .control hm (.update fun w hw _ => ⟨hw.record e, Nat.le_refl _⟩)
  | panic text => exact .control hm (.throw _)
  | perform c => exact .control hm (hcode c)
  | untracked body ih =>
    exact .control hm
      (rests_untracked (ih ht) (Act.tell_flows (Act.toldTo_flows meaning depth) body))
  | ensure body after ih => exact .control hm ((ih ht).ensure after)
  | new name v => exact .control hm (rests_add (.value name v) rfl)
  | newBound name c => exact .control hm (rests_add (.bound name c) rfl)
  | newTracker name onDirty => exact ht.elim
  | tryGet c => exact .control hm (.onProperty ((rests_tryGet hm depth c).mono fun _ hp => hp.2))
  | get c =>
    refine .control hm (.onProperty (.bind ((rests_tryGet hm depth c).mono fun _ hp => hp.2)
      (fun _ _ _ _ => trivial) fun result => ?_))
    obtain ⟨v, error⟩ := result
    cases error with
    | none => exact .pure v
    | some e =>
      refine .bind (.update fun w hw _ => ?_) (fun _ _ _ _ => trivial) fun _ => .pure v
      split
      · exact ⟨hw.record _, Nat.le_refl _⟩
      · exact ⟨hw.record _, Nat.le_refl _⟩
  | set c v => exact .control hm (.onProperty
    (((rests_set hcode c v).mono fun _ hp => hp.2).writing c))
  | setBinding c code =>
    exact .control hm (.onProperty
      (((rests_bind hcode c (.code code)).mono fun _ hp => ⟨hp.2, by simp⟩).writing c))
  | link a b =>
    exact .control hm (.onProperty (.onProperty
      (((rests_link hcode a b).mono fun _ hp => ⟨hp.1.2, hp.2⟩).writing a)))
  | drop c => exact .control hm (.onCell ((rests_drop c).mono fun _ hp => hp.2))
  | observe c code =>
    refine .control hm
      (.onCell (.step fun w hw _ => ⟨hw.same (.observe c code) rfl fun d => ?_, ?_⟩))
    · exact proj_modify Cell.core
        (f := fun cell => { cell with observers := cell.observers ++ [w.store.observers.size] })
        (fun _ => rfl) { w.store with observers := _ } c d
    · exact (sameAround_observe w.store c code).size.ge
  | unobserve o =>
    refine .control hm (.update fun w hw _ => ⟨hw.same (.unobserve o) ?_ fun d => ?_, ?_⟩)
    · rw [stack, (sameAround_unobserve w.store o).frames]
      rfl
    · unfold Store.unobserve
      split
      · rfl
      · exact proj_modify Cell.core
          (f := fun cell => { cell with observers := cell.observers.filter (· != o) })
          (fun _ => rfl) { w.store with observers := _ } _ d
    · exact (sameAround_unobserve w.store o).size.ge
  | track t body ih => exact .control hm (.onTracker _ t)
  | invalidate t => exact .control hm (.onTracker _ t)

theorem code_rests (ht : ∀ {α : Type} (code : K α), (meaning code).Trackerless) (depth : Nat)
    (c : K α) : Rests meaning (fun _ => True) ((Act.toldTo meaning depth).code c) := by
  induction depth generalizing α with
  | zero => exact .throw _
  | succ depth ih => exact tell_rests hm ih (meaning c) (ht c)

theorem toldSession_rests (ht : ∀ {α : Type} (code : K α), (meaning code).Trackerless) (depth : Nat)
    {acts : List (Act S K Unit)} (hacts : ∀ act ∈ acts, act.Trackerless)
    (hw : AtRest meaning w) : AtRest meaning (Act.toldSession meaning depth acts w) := by
  induction acts generalizing w with
  | nil => exact hw
  | cons act acts ih =>
    have hact := tell_rests hm (code_rests hm ht depth) act (hacts act (.head _)) w hw trivial
    exact ih (fun act hmem => hacts act (.tail _ hmem)) hact.1

end

end

theorem atRest_start (meaning : {α : Type} → K α → Act S K α) (reports : Bool) (host : S) :
    AtRest meaning ⟨{ reports }, host, []⟩ := by
  have hcell : ∀ c, ({ reports } : Store K).cell c = {} := fun c => cell_of_size_le (Nat.zero_le _)
  refine ⟨⟨coherence_start reports, fun c => ?_, nofun, fun _ => 0, ?_, ?_⟩, rfl, nofun⟩
  · rw [hcell]
  all_goals
    intro c b _ hr
    rw [show (Stage.store ⟨{ reports }, [], none⟩).cell c = {} from hcell c] at hr
    cases hr

/-- In every session of programs that make no trackers, where all bindings are formulas, reads
return what a computation from scratch gives: when the session is over, and whenever code had
control outside of evaluations. -/
theorem session_truthful (meaning : {α : Type} → K α → Act S K α)
    (hformula : ∀ code : K Value, (meaning code).Formula)
    (htracker : ∀ {α : Type} (code : K α), (meaning code).Trackerless) (depth : Nat)
    (reports : Bool) (host : S) (acts : List (Act S K Unit))
      (hacts : ∀ act ∈ acts, act.Trackerless) :
    let told := Act.toldSession meaning depth acts ⟨{ reports }, host, []⟩
    told.untold = Act.session meaning depth acts ⟨{ reports }, host⟩ ∧
      told.store.Truthful meaning ∧
      ∀ m ∈ told.past, m.event = .control → m.store.consumers = [] → m.store.Truthful meaning := by
  have hend := toldSession_rests hformula htracker depth hacts (atRest_start meaning reports host)
  exact ⟨Act.untold_toldSession ..,
    hend.faithful.truthful hformula hend.rest, hend.truthful⟩

/-! ## Two cells that read each other while a third one says so -/

/-- The code of the bindings of cells 1 and 2, and of an observer that reads cell 2. -/
inductive Mutual : Type → Type where
  | left : Mutual Value
  | right : Mutual Value
  | watch : Mutual Unit

namespace Mutual

def meaning {α : Type} : Mutual α → Act Unit Mutual α
  | .left => .bind (.get 0) fun
    | .bool true => .get 2
    | v => .pure v
  | .right => .get 1
  | .watch => .bind (.get 2) fun _ => .pure ()

/-- The three cells, a read that meets the cycle, and a write that resolves it. -/
def acts : List (Act Unit Mutual Unit) :=
  [.bind (.new "flag" (.bool true)) fun _ => .pure (),
    .bind (.newBound "left" .left) fun _ => .pure (),
    .bind (.newBound "right" .right) fun _ => .pure (),
    .bind (.observe 0 .watch) fun _ => .pure (),
    .bind (.get 1) fun _ => .pure (),
    .set 0 (.bool false)]

theorem formula (code : Mutual α) (hα : α = Value) : (meaning code).Formula := by
  cases code with
  | left =>
    refine .bind (.get 0) fun v => ?_
    split
    · exact .get 2
    · exact .pure _
  | right => exact .get 1
  | watch =>
    have : Subsingleton Value := hα ▸ inferInstance
    exact absurd (Subsingleton.elim Value.void (.bool true)) nofun

theorem trackerless (code : Mutual α) : (meaning code).Trackerless := by
  cases code with
  | left =>
    refine ⟨trivial, fun v => ?_⟩
    dsimp only
    split <;> trivial
  | right => trivial
  | watch => exact ⟨trivial, fun _ => trivial⟩

/-- What a read of cell 2 returns after the first `n` programs, if it is a truth value, and
whether it is an error. -/
def answer (n : Nat) : Option (Bool × Bool) :=
  match (Act.tryGet 2).runTo meaning 3 (Act.session meaning 5 (acts.take n) ⟨{}, ()⟩) with
  | .ok (.bool b, e) _ => some (b, e.isSome)
  | .ok (_, e) _ => some (false, e.isSome)
  | .error _ _ => none

end Mutual

theorem session_truthful_mutual :
    (Act.session Mutual.meaning 5 Mutual.acts ⟨{}, ()⟩).store.Truthful Mutual.meaning ∧
      Mutual.answer 5 = some (false, true) ∧ Mutual.answer 6 = some (false, false) := by
  have hacts : ∀ act ∈ Mutual.acts, act.Trackerless := by
    simp [Mutual.acts, Act.Trackerless]
  have h := session_truthful Mutual.meaning
    (fun code => Mutual.formula code rfl) Mutual.trackerless 5 false () Mutual.acts hacts
  refine ⟨?_, by decide +kernel, by decide +kernel⟩
  rw [← h.1]
  exact h.2.1

end ReactiveTree
