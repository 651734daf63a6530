import ReactiveTree.Proofs.Cell.Regime

/-!
# The code of bindings and observers

Code gets into the store as the binding of a cell or as an observer, and from there it runs
whenever the store sees fit. `Tended` says that all such code is of one sort. A store stays
tended as long as only code of this sort is put into it.

Whatever is done to a store, no cell goes away or comes back to life after it was dropped
(`Aged`).
-/

namespace ReactiveTree.Store

variable {K : Type → Type}

/-- Bindings and observers run calm code only. -/
structure Tended (calm : {α : Type} → K α → Prop) (s : Store K) : Prop where
  binding : ∀ c code, (s.cell c).binding = some (.code code) → calm code
  observer : ∀ (o : ObserverId) (x : Observer K), s.observers[o]? = some x → calm x.code

variable {calm : {α : Type} → K α → Prop} {s t : Store K} {c : CellId}

theorem tended_empty (reports : Bool) : Tended calm ({ reports } : Store K) := by
  refine ⟨fun c code h => ?_, nofun⟩
  rw [cell_of_size_le (Nat.zero_le _)] at h
  cases h

namespace Tended

theorem of_cells (h : Tended calm s)
    (hb : ∀ c, (t.cell c).binding = none ∨ (t.cell c).binding = (s.cell c).binding)
    (ho : t.observers = s.observers) : Tended calm t := by
  refine ⟨fun c code hcode => ?_, fun o x hx => h.observer o x (ho ▸ hx)⟩
  rcases hb c with hnone | hsame
  · rw [hnone] at hcode
    cases hcode
  · exact h.binding c code (hsame ▸ hcode)

theorem akin (h : Tended calm s) (hs : Akin s t) : Tended calm t :=
  h.of_cells (fun c => .inr (hs.binding c)) hs.observers

theorem amended (h : Tended calm s) (hs : Amended s t c) : Tended calm t :=
  h.of_cells (fun d => (hs.detached_all d).imp And.left And.left) hs.observers

theorem add (h : Tended calm s) (cell : Cell K)
    (hb : ∀ code, cell.binding = some (.code code) → calm code) : Tended calm (s.add cell).2 := by
  refine ⟨fun c code hcode => ?_, h.observer⟩
  rw [cell_add] at hcode
  split at hcode
  · exact hb code hcode
  · exact h.binding c code hcode

theorem observe (h : Tended calm s) {code : K Unit} (hcode : calm code) :
    Tended calm (s.observe c code).2 := by
  refine ⟨fun d code' hd => ?_, fun o x hx => ?_⟩
  · exact h.binding d code' ((congrArg Content.binding (content_observe ..)).symm.trans hd)
  · -- the new observer is the last one
    have hpush : (s.observers.push ⟨c, code, false⟩)[o]? = some x := hx
    rw [Array.getElem?_push] at hpush
    split at hpush
    · cases hpush
      exact hcode
    · exact h.observer o x hpush

theorem unobserve (h : Tended calm s) (o : ObserverId) : Tended calm (s.unobserve o) := by
  refine ⟨fun d code hd => ?_, fun i x hx => ?_⟩
  · exact h.binding d code ((congrArg Content.binding (content_unobserve ..)).symm.trans hd)
  · obtain ⟨x0, hx0, hcode, -⟩ := observer_of_unobserve hx
    exact hcode ▸ h.observer i x0 hx0

theorem drop (h : Tended calm s) (hc : c < s.cells.size) : Tended calm (s.drop c) := by
  refine h.of_cells (fun d => ?_) (observers_drop ..)
  have hd := congrArg Content.binding (content_drop hc d)
  split at hd
  · exact .inl hd
  · exact .inr hd

theorem rebind (h : Tended calm s) {b : Binding K} (hb : ∀ code, b = .code code → calm code) :
    Tended calm (s.rebind c b) := by
  refine ⟨fun d code hcode => ?_, h.observer⟩
  rw [Store.rebind, cell_modify] at hcode
  split at hcode
  · exact hb code (Option.some.inj hcode)
  · exact h.binding d code hcode

theorem pair (h : Tended calm s) (root : CellId) : Tended calm (s.pair c root) :=
  h.of_cells (fun d => .inr (proj_modify Cell.binding (fun _ => by rfl) s c d)) rfl

end Tended

/-! ## What stays -/

/-- From `s` to `t` there may be more cells, and what was dropped stays dropped. -/
structure Aged (s t : Store K) : Prop where
  kept : Kept s t
  gone : ∀ {c}, (s.cell c).dropped = true → (t.cell c).dropped = true

namespace Aged

theorem refl (s : Store K) : Aged s s := ⟨.refl s, fun h => h⟩

theorem trans {u : Store K} (h : Aged s t) (h' : Aged t u) : Aged s u :=
  ⟨h.kept.trans h'.kept, fun hc => h'.gone (h.gone hc)⟩

theorem of_dropped (kept : Kept s t) (h : ∀ c, (t.cell c).dropped = (s.cell c).dropped) :
    Aged s t :=
  ⟨kept, fun {c} hc => (h c).trans hc⟩

theorem akin (h : Akin s t) : Aged s t := of_dropped h.kept h.dropped

theorem amended (h : Amended s t c) : Aged s t :=
  of_dropped (.of_size h.size h.tracker_all) h.dropped_all

theorem add (s : Store K) (cell : Cell K) : Aged s (s.add cell).2 := by
  refine ⟨kept_add .., fun {c} hc => ?_⟩
  rw [cell_add, if_neg]
  · exact hc
  · rintro rfl
    rw [cell_of_size_le (Nat.le_refl _)] at hc
    cases hc

theorem observe (s : Store K) (c : CellId) (code : K Unit) : Aged s (s.observe c code).2 :=
  of_dropped (.of_size (size_modify ..) fun d => congrArg Content.tracker
    (content_observe s c code d)) fun d => congrArg Content.dropped (content_observe s c code d)

theorem unobserve (s : Store K) (o : ObserverId) : Aged s (s.unobserve o) :=
  of_dropped (.of_size (sameAround_unobserve ..).size
    fun d => congrArg Content.tracker (content_unobserve s o d))
    fun d => congrArg Content.dropped (content_unobserve s o d)

theorem drop (hc : c < s.cells.size) : Aged s (s.drop c) := by
  refine ⟨kept_drop hc, fun {d} hd => ?_⟩
  have hdropped := congrArg Content.dropped (content_drop hc d)
  split at hdropped
  · exact hdropped
  · exact hdropped.trans hd

theorem rebind (s : Store K) (c : CellId) (b : Binding K) : Aged s (s.rebind c b) :=
  of_dropped (kept_rebind ..) fun d => proj_modify Cell.dropped (fun _ => by rfl) s c d

theorem pair (s : Store K) (c root : CellId) : Aged s (s.pair c root) :=
  of_dropped (kept_modify _ _ fun _ => rfl) fun d => proj_modify Cell.dropped
    (fun _ => by rfl) s c d

theorem addTracker (s : Store K) (name : String) (onDirty : Option (K Unit)) :
    Aged s (Act.addTracker s name onDirty).2 := by
  have hadd := add s { name, tracker := true, state := .dirty }
  cases onDirty with
  | none => exact hadd
  | some code => exact hadd.trans (observe ..)

theorem of_step {k k' : Stage K} (step : Step k k') : Aged k.store k'.store := by
  have hmodify : ∀ {s : Store K} {c : CellId} {f : Cell K → Cell K},
      (∀ cell, (f cell).tracker = cell.tracker) → (∀ cell, (f cell).dropped = cell.dropped) →
      Aged s (s.modify c f) := fun ht hd =>
    of_dropped (kept_modify _ _ ht) (proj_modify Cell.dropped hd _ _)
  cases step with
  | control | wrote | readDropped | refuseWork | fail | resume => exact .refl _
  | record | shelter | unshelter => exact .akin (.of_cells rfl rfl)
  | observe => exact .observe ..
  | unobserve => exact .unobserve ..
  | add => exact .add ..
  | readClean | refuseRead => exact .akin (akin_track ..)
  | readUnbound _ _ _ _ ht =>
    exact ht ▸ (akin (akin_track ..)).trans (hmodify (fun _ => rfl) fun _ => rfl)
  | beginRead => exact .akin ((akin_track ..).trans (akin_enter ..))
  | beginWork => exact .akin (akin_enter ..)
  | @finishRead s t _ c bindings v _ _ ht =>
    have hkept : Kept s (s.keep c bindings v) :=
      .of_size (size_modify ..) fun d => (minor_keep _ _ bindings v d).tracker
    exact ht ▸ (of_dropped hkept fun d => (minor_keep _ _ bindings v d).dropped).trans
      (.akin (akin_leave ..))
  | finishWork | abort | caught => exact .akin (akin_leave ..)
  | write v => exact .amended (amended_written ..).1
  | rebind => exact (rebind ..).trans (.akin (akin_upset ..))
  | pair => exact .pair ..
  | drop hc => exact .drop hc
  | @forget s _ t =>
    exact .akin ((Akin.modify s t (f := fun cell => { cell with epoch := cell.epoch + 1 })
      (fun _ => rfl) fun _ => rfl).trans (akin_upset ..))

end Aged

theorem Tended.addTracker (h : Tended calm s) (name : String) {onDirty : Option (K Unit)}
    (hcode : ∀ code, onDirty = some code → calm code) :
    Tended calm (Act.addTracker s name onDirty).2 := by
  have hadd := h.add { name, tracker := true, state := .dirty } nofun
  cases onDirty with
  | none => exact hadd
  | some code => exact hadd.observe (hcode code rfl)

end ReactiveTree.Store
