import ReactiveTree.Proofs.Cell.Flow

/-!
# Regimes

Much of what is true of every run has nothing to do with evaluations: which cells there are, what
they are bound and linked to, which values they may hold. A *regime* is such an invariant of
worlds, with the code that may run under it and the reasons for which a run may stop. If it
survives each change the store makes on its own (`Regime.Lawful`), every program keeps it, however
deep code is nested (`Regime.Readable.toldTo_obeys`).

A regime may speak of a ghost, which is no part of the world and only grows, and it has an order,
in which what has been learnt of a world stays true of the later ones.
-/

namespace ReactiveTree

variable {S : Type} {K : Type → Type} {γ α β : Type}
variable {c : CellId} {r : EStateM.Result Stop (Tale S K) α} {s t : Store K} {w' : Tale S K}
  {body : Told S K α} {v : Value} {a : α} {k : β → Act S K α} {g' : γ}

/-! ## Contents -/

/-- What a cell is, apart from its evaluations and its consumers. -/
structure Content (K : Type → Type) where
  tracker : Bool
  value : Value
  binding : Option (Binding K)
  partner : Option CellId
  dropped : Bool

def Cell.content (cell : Cell K) : Content K :=
  ⟨cell.tracker, cell.value, cell.binding, cell.partner, cell.dropped⟩

namespace Store

/-- Two stores with the same observers, whose cells have the same contents. -/
structure Akin (s t : Store K) : Prop where
  size : t.cells.size = s.cells.size
  observers : t.observers = s.observers
  content : ∀ c, (t.cell c).content = (s.cell c).content
  observed : ∀ c, (t.cell c).observers = (s.cell c).observers

namespace Akin

variable {s t u : Store K}

theorem refl (s : Store K) : Akin s s := ⟨rfl, rfl, fun _ => rfl, fun _ => rfl⟩

theorem trans (h : Akin s t) (h' : Akin t u) : Akin s u :=
  ⟨h'.size.trans h.size, h'.observers.trans h.observers, fun c => (h'.content c).trans
    (h.content c), fun c => (h'.observed c).trans (h.observed c)⟩

theorem symm (h : Akin s t) : Akin t s :=
  ⟨h.size.symm, h.observers.symm, fun c => (h.content c).symm, fun c => (h.observed c).symm⟩

theorem tracker (h : Akin s t) (c : CellId) : (t.cell c).tracker = (s.cell c).tracker :=
  congrArg Content.tracker (h.content c)

theorem value (h : Akin s t) (c : CellId) : (t.cell c).value = (s.cell c).value :=
  congrArg Content.value (h.content c)

theorem binding (h : Akin s t) (c : CellId) : (t.cell c).binding = (s.cell c).binding :=
  congrArg Content.binding (h.content c)

theorem partner (h : Akin s t) (c : CellId) : (t.cell c).partner = (s.cell c).partner :=
  congrArg Content.partner (h.content c)

theorem dropped (h : Akin s t) (c : CellId) : (t.cell c).dropped = (s.cell c).dropped :=
  congrArg Content.dropped (h.content c)

theorem partner? (h : Akin s t) (c : CellId) : t.partner? c = s.partner? c := by
  simp only [Store.partner?, h.partner, h.dropped]

/-- A change of one cell that keeps its content and its observers. -/
theorem modify (s : Store K) (c : CellId) {f : Cell K → Cell K}
    (hf : ∀ cell, (f cell).content = cell.content)
    (ho : ∀ cell, (f cell).observers = cell.observers) :
    Akin s (s.modify c f) :=
  ⟨size_modify .., rfl, proj_modify Cell.content hf s c, proj_modify Cell.observers ho s c⟩

end Akin

theorem Akin.of_cells (hc : t.cells = s.cells) (ho : t.observers = s.observers) : Akin s t :=
  ⟨by rw [hc], ho, fun _ => by rw [cell, cell, hc], fun _ => by rw [cell, cell, hc]⟩

theorem akin_record (s : Store K) (e : Entry) : Akin s (s.record e) := .of_cells rfl rfl

theorem akin_pushFrame (s : Store K) (consumer : Option CellId) : Akin s (s.pushFrame consumer) :=
  .of_cells rfl rfl

theorem akin_popFrame (s : Store K) : Akin s s.popFrame := .of_cells rfl rfl

theorem akin_takeSlot (s : Store K) (c : CellId) : Akin s (s.takeSlot c) := by
  unfold takeSlot
  split
  · exact .refl s
  · split
    all_goals
      refine ⟨size_modify .., rfl, fun d => ?_, fun d => ?_⟩
      · exact proj_modify Cell.content (fun _ => by rfl) _ c d
      · exact proj_modify Cell.observers (fun _ => by rfl) _ c d

theorem akin_enter (s : Store K) (c : CellId) : Akin s (s.enter c) :=
  (akin_takeSlot s c).trans ⟨size_modify .., rfl,
    fun d => proj_modify Cell.content (fun _ => by rfl) (s.takeSlot c) c d,
    fun d => proj_modify Cell.observers (fun _ => by rfl) (s.takeSlot c) c d⟩

theorem akin_leave (s : Store K) (c : CellId) (completed : Bool) : Akin s (s.leave c completed) :=
  .trans (t := { s.popFrame with active := s.active - 1 }) (.of_cells rfl rfl)
    (.modify _ c (fun _ => by rfl) fun _ => rfl)

theorem content_addEdge (s : Store K) (cell : Cell K) (e : Edge) :
    (s.addEdge cell e).content = cell.content := by
  obtain ⟨edges, room, h, -⟩ := s.addEdge_eq cell e
  rw [h]
  rfl

theorem observers_addEdge (s : Store K) (cell : Cell K) (e : Edge) :
    (s.addEdge cell e).observers = cell.observers := by
  obtain ⟨edges, room, h, -⟩ := s.addEdge_eq cell e
  rw [h]

theorem akin_track (s : Store K) (c : CellId) : Akin s (s.track c) := by
  unfold track
  split
  · exact .refl s
  · split
    · exact .refl s
    · split
      · exact .refl s
      · refine .trans (.of_cells rfl rfl) ⟨size_modify .., rfl, fun d => ?_, fun d => ?_⟩
        all_goals
          rw [cell_modify]
          split
        · rename_i hd
          rw [content_addEdge, hd.1]
        · rfl
        · rename_i hd
          rw [observers_addEdge, hd.1]
        · rfl

theorem akin_mark (s : Store K) (c : CellId) : Akin s (s.mark c).2 := by
  unfold mark
  split
  · exact .modify s c (fun _ => by rfl) fun _ => rfl
  · split
    · exact .refl s
    · exact .modify s c (fun _ => by rfl) fun _ => rfl
  · exact .refl s

theorem akin_markAll (edges : List Edge) (s : Store K) (marked : List CellId) :
    Akin s (s.markAll marked edges).1 := by
  induction edges generalizing s marked with
  | nil => exact .refl s
  | cons e edges ih =>
    unfold markAll
    split
    · exact ih s marked
    · rename_i d _
      have hm := s.akin_mark d
      split
      · rename_i h
        rw [h] at hm
        exact hm.trans (ih ..)
      · rename_i h
        rw [h] at hm
        exact hm.trans (ih ..)

theorem akin_spread (limit : Nat) (s : Store K) (work marked : List CellId) :
    Akin s (s.spread limit work marked).1 := by
  induction limit generalizing s work marked with
  | zero => exact .refl s
  | succ limit ih =>
    cases work with
    | nil => exact .refl s
    | cons c work =>
      have hclear : Akin s (s.modify c fun cell => { cell with dependents := [], room := 0 }) :=
        .modify s c (fun _ => rfl) fun _ => rfl
      exact hclear.trans ((akin_markAll (s.cell c).dependents _ []).trans (ih ..))

theorem akin_invalidate (s : Store K) (c : CellId) : Akin s (s.invalidate c).1 :=
  akin_spread (s.cells.size + 1) s [c] []

theorem Akin.kept (h : Akin s t) : Kept s t := .of_size h.size h.tracker

theorem akin_upset (s : Store K) (c : CellId) : Akin s (s.upset c) := by
  unfold upset
  split
  · exact (s.akin_mark c).trans (akin_invalidate ..)
  · exact s.akin_mark c

theorem content_observe (s : Store K) (c : CellId) (code : K Unit) (d : CellId) :
    ((s.observe c code).2.cell d).content = (s.cell d).content :=
  proj_modify Cell.content (fun _ => by rfl)
    { s with observers := s.observers.push ⟨c, code, false⟩ } c d

theorem content_unobserve (s : Store K) (o : ObserverId) (d : CellId) :
    ((s.unobserve o).cell d).content = (s.cell d).content := by
  unfold unobserve
  split
  · rfl
  · exact proj_modify Cell.content (fun _ => by rfl) _ _ d

theorem observer_of_unobserve {o i : ObserverId} {x : Observer K}
    (h : (s.unobserve o).observers[i]? = some x) :
    ∃ x0, s.observers[i]? = some x0 ∧ x0.code = x.code ∧ x0.cell = x.cell := by
  unfold Store.unobserve at h
  split at h
  · exact ⟨x, h, rfl, rfl⟩
  · have h' : (s.observers.modify o fun x => { x with stopped := true })[i]? = some x := h
    rw [Array.getElem?_modify] at h'
    split at h'
    · obtain ⟨x0, hx0, rfl⟩ := Option.map_eq_some_iff.mp h'
      exact ⟨x0, hx0, rfl, rfl⟩
    · exact ⟨x, h', rfl, rfl⟩

theorem content_add (s : Store K) (cell : Cell K) (d : CellId) :
    ((s.add cell).2.cell d).content = if d = s.cells.size then cell.content else
      (s.cell d).content := by
  rw [cell_add]
  split <;> rfl

theorem content_drop (hc : c < s.cells.size) (d : CellId) :
    ((s.drop c).cell d).content = if d = c then
      { (s.cell c).content with binding := none, partner := none, dropped := true }
    else (s.cell d).content := by
  rw [cell_drop hc]
  split
  · split
    · rename_i hdr
      simp only [Cell.content, hdr]
    · rfl
  · rfl

theorem content_rebind (hc : c < s.cells.size) (b : Binding K) (d : CellId) :
    ((s.rebind c b).cell d).content = if d = c then
      { (s.cell c).content with binding := some b, partner := none }
    else (s.cell d).content := by
  rw [rebind, cell_modify_of_lt hc]
  split <;> rfl

theorem content_pair (hc : c < s.cells.size) (root d : CellId) :
    ((s.pair c root).cell d).content = if d = c then
    { (s.cell c).content with partner := some root } else (s.cell d).content := by
  rw [cell_modify_of_lt hc]
  split <;> rfl

theorem kept_add (s : Store K) (cell : Cell K) : Kept s (s.add cell).2 := by
  refine ⟨by simp [add], fun c hc => ?_⟩
  rw [cell_add, if_neg hc.ne]

theorem kept_drop (hc : c < s.cells.size) : Kept s (s.drop c) := by
  refine .of_size (size_drop ..) fun d => ?_
  have h := congrArg Content.tracker (content_drop hc d)
  split at h
  · rename_i hd
    exact hd ▸ h
  · exact h

theorem kept_rebind (s : Store K) (c : CellId) (b : Binding K) : Kept s (s.rebind c b) :=
  kept_modify _ _ fun _ => rfl

theorem observers_drop (s : Store K) (c : CellId) : (s.drop c).observers = s.observers := by
  unfold drop
  simp only
  split
  · rfl
  · unfold leaveSlot
    simp only
    split <;> rfl

/-- From `s` to `t` the cell `c` may have got another value, and may have lost its binding
together with its partner. -/
structure Amended (s t : Store K) (c : CellId) : Prop where
  size : t.cells.size = s.cells.size
  observers : t.observers = s.observers
  other : ∀ d, d ≠ c → (t.cell d).content = (s.cell d).content
  tracker : (t.cell c).tracker = (s.cell c).tracker
  dropped : (t.cell c).dropped = (s.cell c).dropped
  observed : ∀ d, (t.cell d).observers = (s.cell d).observers
  detached : (t.cell c).binding = none ∧ (t.cell c).partner = none ∨
    (t.cell c).binding = (s.cell c).binding ∧ (t.cell c).partner = (s.cell c).partner

namespace Amended

variable {s t : Store K} {c : CellId} (h : Amended s t c) (d : CellId)
include h

theorem tracker_all : (t.cell d).tracker = (s.cell d).tracker := by
  by_cases hd : d = c
  · exact hd ▸ h.tracker
  · exact congrArg Content.tracker (h.other d hd)

theorem dropped_all : (t.cell d).dropped = (s.cell d).dropped := by
  by_cases hd : d = c
  · exact hd ▸ h.dropped
  · exact congrArg Content.dropped (h.other d hd)

theorem detached_all : (t.cell d).binding = none ∧ (t.cell d).partner = none ∨
    (t.cell d).binding = (s.cell d).binding ∧ (t.cell d).partner = (s.cell d).partner := by
  by_cases hd : d = c
  · exact hd ▸ h.detached
  · exact .inr ⟨congrArg Content.binding (h.other d hd), congrArg Content.partner (h.other d hd)⟩

end Amended

theorem amended_value (c : CellId) (f : Cell K → Cell K)
    (hf : ∀ cell, ∃ v, f cell = { cell with value := v }) : Amended s (s.modify c f) c := by
  obtain ⟨v, hv⟩ := hf (s.cell c)
  have hcell : (s.modify c f).cell c = s.cell c ∨
      (s.modify c f).cell c = { s.cell c with value := v } := by
    rw [cell_modify, hv]
    split
    · exact .inr rfl
    · exact .inl rfl
  have hobserved : ∀ cell, (f cell).observers = cell.observers := fun cell => by
    obtain ⟨v, hv⟩ := hf cell
    rw [hv]
  refine ⟨size_modify .., rfl, fun d hd => by rw [cell_modify_ne hd], ?_, ?_,
    proj_modify Cell.observers hobserved s c, .inr ⟨?_, ?_⟩⟩
  all_goals
    rcases hcell with h | h
    all_goals rw [h]

theorem amended_detach (s : Store K) (hc : c < s.cells.size) : Amended s (s.detach c) c := by
  have hcell : (s.detach c).cell c = _ := cell_modify_self hc _
  exact ⟨size_modify .., rfl, fun d hd => by rw [detach, cell_modify_ne hd], by rw [hcell],
    by rw [hcell], fun d => proj_modify Cell.observers (fun _ => by rfl) s c d,
      .inl ⟨by rw [hcell], by rw [hcell]⟩⟩

theorem linkRoot_of_partner (h : (s.cell c).partner = none) : s.linkRoot c = c := by
  unfold linkRoot follow partner?
  split
  · rfl
  · rw [h]

theorem Akin.amended (h : Akin s t) (c : CellId) : Amended s t c :=
  ⟨h.size, h.observers, fun d _ => h.content d, h.tracker c, h.dropped c, h.observed,
    .inr ⟨h.binding c, h.partner c⟩⟩

theorem Amended.trans {u : Store K} (h : Amended s t c) (h' : Amended t u c) : Amended s u c where
  size := h'.size.trans h.size
  observers := h'.observers.trans h.observers
  other d hd := (h'.other d hd).trans (h.other d hd)
  tracker := h'.tracker.trans h.tracker
  dropped := h'.dropped.trans h.dropped
  observed d := (h'.observed d).trans (h.observed d)
  detached := by
    rcases h'.detached with h' | ⟨hb', hp'⟩
    · exact .inl h'
    · rcases h.detached with ⟨hb, hp⟩ | ⟨hb, hp⟩
      · exact .inl ⟨hb'.trans hb, hp'.trans hp⟩
      · exact .inr ⟨hb'.trans hb, hp'.trans hp⟩

/-- What a write does to contents: only the cell written has another value, unless the value is
the same one, and it is no longer bound. -/
theorem amended_written (s : Store K) (c : CellId) (v : Value) :
    Amended s (s.written c v) c ∧ (c < s.cells.size → ((s.written c v).cell c).value = v ∨
      ((s.written c v).cell c).value = (s.cell c).value ∧ (s.cell c).value.same v = true) := by
  have hfirst : ∃ t, (if (s.cell c).binding.isSome then s.detach c else s) = t ∧ Amended s t c ∧
      (t.cell c).value = (s.cell c).value := by
    refine ⟨_, rfl, ?_⟩
    split
    · rename_i hb
      have hc : c < s.cells.size := by
        by_contra hge
        rw [cell_of_size_le (not_lt.1 hge)] at hb
        simp at hb
      exact ⟨amended_detach s hc, proj_modify Cell.value (fun _ => by rfl) s c c⟩
    · exact ⟨(Akin.refl s).amended c, rfl⟩
  obtain ⟨t, ht, ha, hv⟩ := hfirst
  unfold written
  simp only [ht]
  split
  · rename_i hsame
    exact ⟨ha, fun _ => .inr ⟨hv, hv ▸ hsame⟩⟩
  · have hset : Amended t (t.modify c fun cell => { cell with value := v }) c :=
      amended_value c _ fun cell => ⟨v, rfl⟩
    have hakin := (t.modify c fun cell => { cell with value := v }).akin_invalidate c
    refine ⟨(ha.trans hset).trans (hakin.amended c), fun hc => .inl ?_⟩
    rw [hakin.value, cell_modify_self (by rw [ha.size]; exact hc)]

end Store

open Store

theorem Run.onCell_of_lt {body : Run S K α} {w : World S K}
    (h : c < w.store.cells.size) : Run.onCell c body w = body w := by
  show (if decide (c < w.store.cells.size) = true then body else throw (.unknownCell c) :
    Run S K α) w = _
  rw [if_pos (by simpa using h)]

theorem Run.onCell_of_not_lt {body : Run S K α} {w : World S K}
    (h : ¬c < w.store.cells.size) : Run.onCell c body w = .error (.unknownCell c) w := by
  show (if decide (c < w.store.cells.size) = true then body else throw (.unknownCell c) :
    Run S K α) w = _
  rw [if_neg (by simpa using h)]
  rfl

section

variable {body : Run S K α} {w w' : World S K} {c : CellId} {a : α}

theorem Run.of_onCell (h : Run.onCell c body w = .ok a w') :
    c < w.store.cells.size ∧ body w = .ok a w' := by
  by_cases hc : c < w.store.cells.size
  · rw [Run.onCell_of_lt hc] at h
    exact ⟨hc, h⟩
  · rw [Run.onCell_of_not_lt hc] at h
    cases h

theorem Run.of_onProperty (h : Run.onProperty c body w = .ok a w') :
    w.store.IsProperty c ∧ body w = .ok a w' := by
  rw [Run.onProperty_eq] at h
  split at h
  · exact ⟨‹_›, h⟩
  · cases h

theorem Run.of_onTracker (h : Run.onTracker c body w = .ok a w') :
    w.store.IsTracker c ∧ body w = .ok a w' := by
  rw [Run.onTracker_eq] at h
  split at h
  · exact ⟨‹_›, h⟩
  · cases h

theorem Told.of_untracked {body : Told S K α} {w w' : Tale S K}
    (h : Told.untracked body w = .ok a w') :
    ∃ u, body (Told.sheltering w) = .ok a u ∧ w' = Told.baring u := by
  rw [Told.untracked_eq] at h
  cases hbody : body (Told.sheltering w) with
  | ok b u =>
    rw [hbody] at h
    cases h
    exact ⟨u, rfl, rfl⟩
  | error stop u =>
    rw [hbody] at h
    cases h

theorem Run.of_bind {f : α → Run S K β} {b : β}
    (h : (body >>= f) w = .ok b w') : ∃ a u, body w = .ok a u ∧ f a u = .ok b w' := by
  have h : EStateM.bind body f w = .ok b w' := h
  unfold EStateM.bind at h
  cases hbody : body w with
  | ok a u =>
    rw [hbody] at h
    exact ⟨a, u, rfl, h⟩
  | error stop u =>
    rw [hbody] at h
    cases h

end

section

variable {nested : Nested (S × Chronicle K) K} {x : Act S K β} {f : β → Act S K α} {w w' : Tale S K}

theorem Act.tell_bind_of_ok {b : β} (h : x.tell nested w = .ok b w') :
    (x >>= f).tell nested w = (f b).tell nested w' := by
  show (Act.bind x f).tell nested w = _
  simp only [Act.tell, h]

theorem Act.tell_bind_of_error {stop : Stop} (h : x.tell nested w = .error stop w') :
    (x >>= f).tell nested w = .error stop w' := by
  show (Act.bind x f).tell nested w = _
  simp only [Act.tell, h]

theorem Act.of_tell_bind (h : (x >>= f).tell nested w = .ok a w') :
    ∃ b u, x.tell nested w = .ok b u ∧ (f b).tell nested u = .ok a w' := by
  cases hx : x.tell nested w with
  | ok b u => exact ⟨b, u, rfl, Act.tell_bind_of_ok hx ▸ h⟩
  | error stop u =>
    rw [Act.tell_bind_of_error hx] at h
    cases h

theorem Act.of_tell_ensure {act : Act S K α} {after : S → S}
    (h : (Act.ensure act after).tell nested w = .ok a w') :
    ∃ u, act.tell nested w.beat = .ok a u ∧ w' = ⟨u.store, after u.host.1, u.host.2⟩ := by
  have h : Run.ensure (act.tell nested) (fun host => (after host.1, host.2)) w.beat =
      .ok a w' := h
  unfold Run.ensure at h
  cases hact : act.tell nested w.beat with
  | ok b u =>
    rw [hact] at h
    cases h
    exact ⟨u, rfl, rfl⟩
  | error stop u =>
    rw [hact] at h
    cases h

end

/-! ## Regimes and their laws -/

def World.withStore (w : World S K) (s : Store K) : World S K := ⟨s, w.host⟩

/-- A world with another host, and the same chronicle. -/
def World.withHost (w : Tale S K) (host : S) : Tale S K := ⟨w.store, host, w.past⟩

structure Regime (S : Type) (K : Type → Type) (γ : Type) where
  /-- The invariant. -/
  holds : γ → Tale S K → Prop
  /-- The second world is a later one. -/
  le : γ → Tale S K → γ → Tale S K → Prop
  /-- The code that may run. -/
  admits : {α : Type} → γ → Tale S K → K α → Prop
  /-- What such code may return. -/
  returns : {α : Type} → γ → Tale S K → K α → α → Prop
  /-- The values that a cell may hold. -/
  fits : γ → Tale S K → CellId → Value → Prop
  /-- Why a run may end without a value. -/
  stops : Stop → Prop
  /-- The cells that may be written, bound, linked or invalidated. -/
  writes : CellId → Prop := fun _ => True
  /-- The cells of a store that may be evaluated. -/
  begins : Store K → CellId → Prop := fun _ _ => True
  /-- What a read of a cell may return. -/
  shows : γ → Tale S K → CellId → Value → Prop := fits
  /-- The invariant survives a run that stops, too. -/
  strict : Prop := True

namespace Regime

def allows (R : Regime S K γ) (s : Store K) : Event → Prop
  | .wrote c => R.writes c
  | .began c => R.begins s c
  | _ => True

/-- The regime survives a change of the store to `s`. -/
abbrev Lets (R : Regime S K γ) (g : γ) (w : Tale S K) (s : Store K) : Prop :=
  R.holds g (w.withStore s) ∧ R.le g w g (w.withStore s)

/-- The regime survives what the store does in its bookkeeping. -/
class Sober (R : Regime S K γ) : Prop where
  refl : ∀ g w, R.le g w g w
  trans : ∀ {g w g' w' g'' w''}, R.le g w g' w' → R.le g' w' g'' w'' → R.le g w g'' w''
  kept : ∀ {g w g' w'}, R.le g w g' w' → Kept w.store w'.store
  note : ∀ {g w} (e : Event), R.allows w.store e → R.holds g w →
    R.holds g (w.noting e) ∧ R.le g w g (w.noting e)
  akin : ∀ {g w s}, R.holds g w → Akin w.store s →
    R.Lets g w s
  fits_mono : ∀ {g w g' w' c v}, R.le g w g' w' → R.fits g w c v → R.fits g' w' c v := by
    exact fun _ _ => trivial

/-- The regime survives evaluations, however they end. -/
class Readable (R : Regime S K γ) : Prop extends R.Sober where
  strict : R.strict := by exact trivial
  /-- A cell keeps the value of its binding. -/
  cache : ∀ {g w s c}, R.holds g w → Amended w.store s c →
    (s.cell c).binding = (w.store.cell c).binding ∧ (s.cell c).partner = (w.store.cell c).partner →
    (R.fits g w c (s.cell c).value ∨ (s.cell c).value = (w.store.cell c).value) →
    R.Lets g w s
  /-- The code of a binding may run, and what it returns then fits its cell. -/
  code : ∀ {g w c code}, R.holds g w → (w.store.cell c).binding = some (.code code) →
    R.admits g w code ∧
      ∀ {g' w' v}, R.le g w g' w' → R.returns g' w' code v → R.fits g' w' c v
  /-- A cell that follows another one takes its values. -/
  follow : ∀ {g w c r}, R.holds g w → (w.store.cell c).binding = some (.follow r) →
    (w.store.IsProperty r ∨ R.stops (.unknownCell r)) ∧
      ∀ {g' w' v}, R.le g w g' w' → R.shows g' w' r v → R.fits g' w' c v := by
    exact fun _ _ => ⟨.inr trivial, fun _ _ => trivial⟩
  value : ∀ {g w c}, R.holds g w → c < w.store.cells.size → R.shows g w c
    (w.store.cell c).value := by
    exact fun _ _ => trivial
  shows_mono : ∀ {g w g' w' c v}, R.le g w g' w' → R.shows g w c v → R.shows g' w' c v := by
    exact fun _ _ => trivial
  cycle : ∀ e, R.stops (.cycle e) := by exact fun _ => trivial
  deep : R.stops .tooDeep := by exact trivial
  /-- A cell with a binding may be evaluated. -/
  bound : ∀ {g w c b}, R.holds g w → (w.store.cell c).binding = some b → R.begins w.store c := by
    exact fun _ _ => trivial

/-- The regime survives writes, after which observers run. -/
class Writable (R : Regime S K γ) : Prop extends R.Sober where
  observer :
      ∀ {g w} {o : ObserverId} {x : Observer K}, R.holds g w → w.store.observers[o]? = some x →
    R.admits g w x.code
  /-- Only the root of a chain of links loses its partner, which it had in vain. -/
  amend : ∀ {g w s c}, R.holds g w → Amended w.store s c →
    (R.fits g w c (s.cell c).value ∨ (s.cell c).value = (w.store.cell c).value) →
    ((s.cell c).partner = (w.store.cell c).partner ∨ ∃ d, w.store.linkRoot d = c) →
    R.Lets g w s
  /-- A cell gives the writes to it to its partner. -/
  partner : ∀ {g w c p v}, R.holds g w → w.store.partner? c = some p → R.fits g w c v →
    R.fits g w p v := by
    exact fun _ _ _ => trivial

/-- The regime survives whatever the store does by itself. -/
class Lawful (R : Regime S K γ) : Prop extends R.Readable, R.Writable where
  cache := fun hw hs hb hv => amend hw hs hv (.inl hb.2)

/-- A run from `w` that ends like this has kept the regime, and if it returned a value then
`Q` holds of it. -/
def Goes (R : Regime S K γ) (g : γ) (w : Tale S K) (Q : γ → Tale S K → α → Prop) :
    EStateM.Result Stop (Tale S K) α → Prop
  | .ok a w' => ∃ g', R.le g w g' w' ∧ R.holds g' w' ∧ Q g' w' a
  | .error stop w' => R.stops stop ∧ (R.strict → ∃ g', R.le g w g' w' ∧ R.holds g' w')

/-- What stays true in later worlds. -/
def Stable (R : Regime S K γ) (Q : γ → Tale S K → α → Prop) : Prop :=
  ∀ ⦃g w g' w' a⦄, R.le g w g' w' → Q g w a → Q g' w' a

theorem stable_true {R : Regime S K γ} : R.Stable fun _ _ (_ : α) => True :=
  fun _ _ _ _ _ _ _ => trivial

/-- The nested code keeps the regime. -/
structure Obeys (R : Regime S K γ) (nested : Nested (S × Chronicle K) K) : Prop where
  code : ∀ {α : Type} {c : K α} {g w}, R.holds g w → R.admits g w c →
    R.Goes g w (fun g' w' a => R.returns g' w' c a) (nested.code c w)
  get : ∀ {c g w}, R.holds g w → w.store.IsProperty c ∨ R.stops (.unknownCell c) →
    R.Goes g w (fun g' w' v => R.shows g' w' c v) (nested.get c w)

variable {R : Regime S K γ} {g : γ} {w : Tale S K} {Q Q' : γ → Tale S K → α → Prop}

/-! ## Rules -/

theorem Goes.mono (h : R.Goes g w Q r)
    (hQ : ∀ g' w' a, R.le g w g' w' → R.holds g' w' → Q g' w' a → Q' g' w' a) :
    R.Goes g w Q' r := by
  cases r with
  | ok a w' =>
    obtain ⟨g', hle, hw', hq⟩ := h
    exact ⟨g', hle, hw', hQ g' w' a hle hw' hq⟩
  | error stop w' => exact h

theorem Goes.keeps (h : R.Goes g w Q r) : R.Goes g w (fun _ _ _ => True) r :=
  h.mono fun _ _ _ _ _ _ => trivial

theorem Goes.of_ok
    (h : R.Goes g w Q r) (hr : r = .ok a w') :
    ∃ g', R.le g w g' w' ∧ R.holds g' w' ∧ Q g' w' a := by
  subst hr
  exact h

theorem Goes.outcome {R : Regime S K γ} {g : γ} {Q : γ → Tale S K → α → Prop} (h : R.Goes g w Q r)
    (hs : R.strict) : ∃ g', R.holds g' (Act.outcome r) := by
  cases r with
  | ok a w' =>
    obtain ⟨g', -, hw', -⟩ := h
    exact ⟨g', hw'⟩
  | error stop w' =>
    obtain ⟨g', -, hw'⟩ := h.2 hs
    exact ⟨g', hw'⟩

/-- However a run ended, it ended in a later world. -/
theorem Goes.later (h : R.Goes g w Q r) (hs : R.strict) :
    ∃ g', R.le g w g' (Act.outcome r) ∧ R.holds g' (Act.outcome r) := by
  cases r with
  | ok a w' =>
    obtain ⟨g', hle, hw', -⟩ := h
    exact ⟨g', hle, hw'⟩
  | error stop w' => exact h.2 hs

theorem Goes.weaken {R' : Regime S K γ} (h : R.Goes g w Q r)
    (hle : ∀ g' w', R.le g w g' w' → R.holds g' w' → R'.le g w g' w' ∧ R'.holds g' w')
    (hstops : ∀ stop, R.stops stop → R'.stops stop) (hstrict : R'.strict → R.strict) :
    R'.Goes g w Q r := by
  cases r with
  | ok a w' =>
    obtain ⟨g', h, hw', hq⟩ := h
    exact ⟨g', (hle g' w' h hw').1, (hle g' w' h hw').2, hq⟩
  | error stop w' =>
    refine ⟨hstops stop h.1, fun hs => ?_⟩
    obtain ⟨g', h, hw'⟩ := h.2 (hstrict hs)
    exact ⟨g', hle g' w' h hw'⟩

namespace Sober

variable (hR : R.Sober)
include hR

section

variable (hw : R.holds g w)
include hw

theorem error {stop : Stop} (h : R.stops stop) : R.Goes g w Q (.error stop w) :=
  ⟨h, fun _ => ⟨g, hR.refl g w, hw⟩⟩

theorem ok (hq : Q g w a) : R.Goes g w Q (.ok a w) :=
  ⟨g, hR.refl g w, hw, hq⟩

omit hw in
/-- A run that begins with a step of its own. -/
theorem after (hle : R.le g w g' w') (h : R.Goes g' w' Q r) : R.Goes g w Q r := by
  cases r with
  | ok a u =>
    obtain ⟨g'', hle', hu, hq⟩ := h
    exact ⟨g'', hR.trans hle hle', hu, hq⟩
  | error stop u =>
    refine ⟨h.1, fun hs => ?_⟩
    obtain ⟨g'', hle', hu⟩ := h.2 hs
    exact ⟨g'', hR.trans hle hle', hu⟩

omit hw in
/-- A run that ends with a step of its own, which changes the store only in its
bookkeeping. -/
theorem bind {x : Told S K β} {f : β → Told S K α} {P : γ → Tale S K → β → Prop}
    (hx : R.Goes g w P (x w))
    (hf : ∀ g' w' b, R.le g w g' w' → R.holds g' w' → P g' w' b → R.Goes g' w' Q (f b w')) :
    R.Goes g w Q ((x >>= f) w) := by
  show R.Goes g w Q (EStateM.bind x f w)
  unfold EStateM.bind
  cases hr : x w with
  | ok b w' =>
    rw [hr] at hx
    obtain ⟨g', hle, hw', hp⟩ := hx
    exact hR.after hle (hf g' w' b hle hw' hp)
  | error stop w' =>
    rw [hr] at hx
    exact hx

omit hw in
theorem noted (e : Event) (he : R.allows w.store e) (hw : R.holds g w)
    (h : R.holds g (w.noting e) → R.Goes g (w.noting e) Q r) : R.Goes g w Q r :=
  hR.after (hR.note e he hw).2 (h (hR.note e he hw).1)

theorem le_beat : R.le g w g w.beat := (hR.note .control trivial hw).2

theorem beat (h : R.holds g w.beat → R.Goes g w.beat Q r) : R.Goes g w Q r :=
  hR.noted .control trivial hw h

theorem akinTo (hs : Akin w.store s)
    (h : R.holds g (w.withStore s) → R.Goes g (w.withStore s) Q r) : R.Goes g w Q r :=
  hR.after (hR.akin hw hs).2 (h (hR.akin hw hs).1)

omit hw in
/-- The end of a run may be followed by a change of the bookkeeping. -/
theorem leaving (c : CellId) (completed : Bool) (hw' : R.holds g' w') :
    R.holds g' (Told.leaving c completed w') ∧ R.le g' w' g' (Told.leaving c completed w') := by
  obtain ⟨hs, hle⟩ := hR.akin hw' (w'.store.akin_leave c completed)
  obtain ⟨hn, hle'⟩ := hR.note (.ended c completed) trivial hs
  exact ⟨hn, hR.trans hle hle'⟩

theorem entering (hc : R.begins w.store c) :
    R.holds g (Told.entering c w) ∧ R.le g w g (Told.entering c w) := by
  obtain ⟨hn, hle⟩ := hR.note (.began c) hc hw
  obtain ⟨hs, hle'⟩ := hR.akin hn ((w.noting (.began c)).store.akin_enter c)
  exact ⟨hs, hR.trans hle hle'⟩

theorem onCell (hmiss : ¬c < w.store.cells.size → R.stops (.unknownCell c))
    (h : c < w.store.cells.size → R.Goes g w Q (body w)) : R.Goes g w Q (Run.onCell c body w) := by
  by_cases hc : c < w.store.cells.size
  · rw [Run.onCell_of_lt hc]
    exact h hc
  · rw [Run.onCell_of_not_lt hc]
    exact hR.error hw (hmiss hc)

theorem onProperty (hmiss : ¬w.store.IsProperty c → R.stops (.unknownCell c))
    (h : w.store.IsProperty c → R.Goes g w Q (body w)) :
    R.Goes g w Q (Run.onProperty c body w) := by
  rw [Run.onProperty_eq]
  split
  · exact h ‹_›
  · exact hR.error hw (hmiss ‹_›)

theorem onTracker {t : CellId}
    (hmiss : ¬w.store.IsTracker t → R.stops (.unknownCell t))
    (h : w.store.IsTracker t → R.Goes g w Q (body w)) : R.Goes g w Q (Run.onTracker t body w) := by
  rw [Run.onTracker_eq]
  split
  · exact h ‹_›
  · exact hR.error hw (hmiss ‹_›)

theorem untracked {body : Told S K α}
    (h : ∀ w', R.le g w g w' → R.holds g w' → R.Goes g w' Q (body w')) (hQ : R.Stable Q) :
    R.Goes g w Q (Told.untracked body w) := by
  obtain ⟨hn, hle⟩ := hR.note .sheltered trivial hw
  obtain ⟨hin, hle'⟩ := hR.akin hn (w.store.akin_pushFrame none)
  have hb := hR.after (hR.trans hle hle') (h (Told.sheltering w) (hR.trans hle hle') hin)
  -- in both modes the region is left
  have hend {g' w'} (hw' : R.holds g' w') :
      R.holds g' (Told.baring w') ∧ R.le g' w' g' (Told.baring w') := by
    obtain ⟨hout, hle⟩ := hR.akin hw' w'.store.akin_popFrame
    obtain ⟨hn, hle'⟩ := hR.note .bared trivial hout
    exact ⟨hn, hR.trans hle hle'⟩
  rw [Told.untracked_eq]
  cases hr : body (Told.sheltering w) with
  | ok a w' =>
    rw [hr] at hb
    obtain ⟨g', hle, hw', hq⟩ := hb
    exact ⟨g', hR.trans hle (hend hw').2, (hend hw').1, hQ (hend hw').2 hq⟩
  | error stop w' =>
    rw [hr] at hb
    refine ⟨hb.1, fun hs => ?_⟩
    obtain ⟨g', hle, hw'⟩ := hb.2 hs
    exact ⟨g', hR.trans hle (hend hw').2, (hend hw').1⟩

end

end Sober

theorem Readable.evaluate (hR : R.Readable) (hw : R.holds g w) (hc : R.begins w.store c)
    (h : R.holds g (Told.entering c w) → R.Goes g (Told.entering c w) Q (body (Told.entering c w)))
    (hQ : R.Stable Q) :
    R.Goes g w (fun g' w' r => ∀ a, r = .ok a → Q g' w' a) (Told.evaluate c body w) := by
  obtain ⟨hin, hle⟩ := hR.entering hw hc
  have hb := h hin
  cases hr : body (Told.entering c w) with
  | ok a w' =>
    rw [hr] at hb
    obtain ⟨g', hle', hw', hq⟩ := hb
    obtain ⟨hout, hle''⟩ := hR.leaving c true hw'
    rw [Told.evaluate_of_ok hr]
    refine ⟨g', hR.trans hle (hR.trans hle' hle''), hout, fun b hb => ?_⟩
    cases hb
    exact hQ hle'' hq
  | error stop w' =>
    rw [hr] at hb
    obtain ⟨g', hle', hw'⟩ := hb.2 hR.strict
    obtain ⟨hout, hle''⟩ := hR.leaving c false hw'
    have hall := hR.trans hle (hR.trans hle' hle'')
    rcases Told.evaluate_of_error hr with ⟨e, -, -, heq⟩ | ⟨-, heq⟩
    · rw [heq]
      exact ⟨g', hall, hout, nofun⟩
    · rw [heq]
      exact ⟨hb.1, fun _ => ⟨g', hall, hout⟩⟩

/-! ## What the store does with nested code -/

section Nested

variable {nested : Nested (S × Chronicle K) K} (hR : R.Readable) (hN : R.Obeys nested)
include hR

theorem Readable.keep (hw' : R.holds g' w') (c : CellId) (bindings : Nat)
    (hv : R.fits g' w' c v) : R.Lets g' w' (w'.store.keep c bindings v) := by
  by_cases hc : c < w'.store.cells.size
  · have hcell : (w'.store.keep c bindings v).cell c = _ := cell_modify_self hc _
    refine hR.cache hw' (amended_value c _ fun cell => ?_) ?_ ?_
    · by_cases hb : (cell.bindings = bindings && !cell.dropped) = true
      · exact ⟨v, by rw [if_pos hb]⟩
      · exact ⟨cell.value, by rw [if_neg hb]⟩
    · rw [hcell]
      split
      · exact ⟨rfl, rfl⟩
      · exact ⟨rfl, rfl⟩
    · rw [hcell]
      split
      · exact .inl hv
      · exact .inr rfl
  · have hsame : ∀ d, (w'.store.keep c bindings v).cell d = w'.store.cell d := fun d => by
      rw [Store.keep, cell_modify, if_neg fun h => hc h.2]
    exact hR.akin hw' ⟨size_modify .., rfl, fun d => by rw [hsame], fun d => by rw [hsame]⟩

include hN

theorem Readable.compute {b : Binding K} (hw : R.holds g w)
    (hb : (w.store.cell c).binding = some b) :
    R.Goes g w (fun g' w' v => R.fits g' w' c v) (Run.compute nested b w) := by
  cases b with
  | follow r =>
    obtain ⟨hr, hfit⟩ := hR.follow hw hb
    exact (hN.get hw hr).mono fun g' w' v hle _ => hfit hle
  | code code =>
    obtain ⟨hadm, hfit⟩ := hR.code hw hb
    exact (hN.code hw hadm).mono fun g' w' v hle _ => hfit hle

theorem Readable.refresh {b : Binding K} (hw : R.holds g w)
    (hb : (w.store.cell c).binding = some b) :
    R.Goes g w (fun _ _ _ => True) (Told.refresh nested c b w) := by
  rw [Told.refresh_eq]
  refine (hR.evaluate hw (hR.bound hw hb) (fun hin => ?_)
    stable_true).keeps
  have hb' : ((Told.entering c w).store.cell c).binding = some b := by
    rw [← hb]
    exact (w.store.akin_enter c).binding c
  refine hR.bind (hR.compute hN hin hb') fun g' w' v _ hw' hv => ?_
  obtain ⟨hk, hle⟩ := hR.keep hw' c (w.store.cell c).bindings hv
  exact ⟨g', hle, hk, trivial⟩

/-- A read keeps the regime, and returns a value that fits the cell. -/
theorem Readable.tryGet (hw : R.holds g w) (hc : c < w.store.cells.size) :
    R.Goes g w (fun g' w' r => R.shows g' w' c r.1) (Told.tryGet nested c w) := by
  have hfit := hR.value hw hc
  cases hd : (w.store.cell c).dropped with
  | true =>
    rw [Told.tryGet_of_dropped hd]
    exact hR.noted (.got c (w.store.cell c).value) trivial hw fun hn => hR.ok hn (hR.value hn hc)
  | false =>
    rw [Told.tryGet_of_live hd]
    refine hR.akinTo hw (w.store.akin_track c) fun ht => ?_
    have hfit' := hR.shows_mono (hR.akin hw (w.store.akin_track c)).2 hfit
    cases hst : (w.store.cell c).state with
    | clean =>
      exact hR.noted (.got c (w.store.cell c).value) trivial ht fun hn =>
        hR.ok hn (hR.shows_mono (hR.note (.got ..) trivial ht).2 hfit')
    | evaluating =>
      exact hR.noted (.refused c) trivial ht fun hn => hR.error hn (hR.cycle _)
    | dirty =>
      cases hb : (w.store.cell c).binding with
      | none =>
        have hk : Akin (w.store.track c)
            ((w.store.track c).modify c fun cell => { cell with state := .clean }) :=
          .modify _ c (fun _ => rfl) fun _ => rfl
        refine hR.akinTo ht hk fun hs => ?_
        refine hR.noted (.got c (w.store.cell c).value) trivial hs fun hn => hR.ok hn ?_
        exact hR.shows_mono (hR.note (.got ..) trivial hs).2 (hR.shows_mono (hR.akin ht hk).2 hfit')
      | some b =>
        have hb' : ((w.store.track c).cell c).binding = some b := by
          rw [(w.store.akin_track c).binding, hb]
        refine hR.bind (hR.refresh hN ht hb')
          fun g' w' r hle hw' _ => ?_
        have hc' : c < w'.store.cells.size :=
          hc.trans_le (hR.kept (hR.trans (hR.akin hw (w.store.akin_track c)).2 hle)).size
        cases r with
        | ok u =>
          exact hR.noted (.got c (w'.store.cell c).value) trivial hw' fun hn =>
            hR.ok hn (hR.value hn hc')
        | error e => exact hR.ok hw' (hR.value hw' hc')

theorem Readable.get {c : CellId} (hw : R.holds g w) (hc : c < w.store.cells.size) :
    R.Goes g w (fun g' w' v => R.shows g' w' c v) (Told.get nested c w) := by
  refine hR.bind (hR.tryGet hN hw hc) fun g' w' r _ hw' hv => ?_
  obtain ⟨v, error⟩ := r
  cases error with
  | none => exact hR.ok hw' hv
  | some e =>
    have hk : Akin w'.store (if w'.store.reports then w'.store.record (.report e)
        else w'.store.log s!"binding error: {e.message}") := by
      split
      · exact akin_record ..
      · exact akin_record ..
    refine hR.akinTo hw' hk fun hs => hR.ok hs ?_
    exact hR.shows_mono (hR.akin hw' hk).2 hv

end Nested

section Nested

variable {nested : Nested (S × Chronicle K) K} (hR : R.Writable) (hN : R.Obeys nested)
include hR hN

theorem Writable.fire (observers : List ObserverId) (hw : R.holds g w) :
    R.Goes g w (fun _ _ _ => True) (Run.fire nested observers w) := by
  induction observers generalizing g w with
  | nil => exact hR.ok hw trivial
  | cons o rest ih =>
    rw [Run.fire_cons]
    cases ho : w.store.observers[o]? with
    | none => exact ih hw
    | some observer =>
      dsimp only [Option.elim]
      split
      · exact ih hw
      · exact hR.bind (hN.code hw (hR.observer hw ho)) fun _ _ _ _ hw' _ => ih hw'

theorem Writable.notify (cells : List CellId) (hw : R.holds g w) :
    R.Goes g w (fun _ _ _ => True) (Run.notify nested cells w) := by
  induction cells generalizing g w with
  | nil => exact hR.ok hw trivial
  | cons c rest ih =>
    show R.Goes g w _ ((if (w.store.cell c).dropped = true then (do pure (); Run.notify nested rest)
      else (do Run.fire nested (w.store.cell c).observers; Run.notify nested rest) :
        Told S K Unit) w)
    split
    · exact ih hw
    · exact hR.bind (hR.fire hN _ hw) fun _ _ _ _ hw' _ => ih hw'

/-- A change of the bookkeeping after which cells may be notified. -/
theorem Writable.told (hw : R.holds g w) (hs : Akin w.store s)
    {r : EStateM.Result Stop (Tale S K) Unit}
    (hr : r = .ok () (w.withStore s) ∨ ∃ cells, r = Run.notify nested cells (w.withStore s)) :
    R.Goes g w (fun _ _ _ => True) r := by
  refine hR.akinTo hw hs fun hs => ?_
  rcases hr with rfl | ⟨cells, rfl⟩
  · exact hR.ok hs trivial
  · exact hR.notify hN cells hs

theorem Writable.disturb (c : CellId) (hw : R.holds g w) :
    R.Goes g w (fun _ _ _ => True) (Run.disturb nested c w) :=
  hR.told hN hw (w.store.akin_upset c) (Told.disturb_eq nested c w)

omit hN in
theorem Writable.fits_linkRoot (hw : R.holds g w) (hv : R.fits g w c v) :
    R.fits g w (w.store.linkRoot c) v := by
  suffices h : ∀ limit d, R.fits g w d v → R.fits g w (w.store.follow limit d) v from h _ c hv
  intro limit
  induction limit with
  | zero => exact fun _ h => h
  | succ limit ih =>
    intro d hd
    unfold Store.follow
    cases hp : w.store.partner? d with
    | none => exact hd
    | some p => exact ih p (hR.partner hw hp hd)

theorem Writable.set (hw : R.holds g w) (hv : R.fits g w c v) :
    R.Goes g w (fun _ _ _ => True) (Run.set nested c v w) := by
  cases hd : (w.store.cell c).dropped with
  | true =>
    have heq : Run.set nested c v w = .ok () (w.withStore (w.store.log
        s!"write to dropped property {w.store.nameOf c} ignored")) := by
      show (if (w.store.cell c).dropped = true then _ else _ : Told S K Unit) w = _
      rw [if_pos hd]
      rfl
    rw [heq]
    exact hR.akinTo hw (w.store.akin_record _) fun hs => hR.ok hs trivial
  | false =>
    have hroot := hR.fits_linkRoot hw hv
    generalize hr : w.store.linkRoot c = root at hroot
    obtain ⟨hamended, hvalue⟩ := w.store.amended_written root v
    have hfits : R.fits g w root ((w.store.written root v).cell root).value ∨
        ((w.store.written root v).cell root).value = (w.store.cell root).value := by
      by_cases hlt : root < w.store.cells.size
      · exact (hvalue hlt).imp (fun heq => by rw [heq]; exact hroot) And.left
      · refine .inr ?_
        rw [cell_of_size_le (not_lt.1 hlt),
          cell_of_size_le (by rw [hamended.size]; exact not_lt.1 hlt)]
    obtain ⟨hw', hle⟩ := hR.amend hw hamended hfits (.inr ⟨c, hr⟩)
    refine hR.after hle ?_
    rcases Told.set_eq nested v hd with heq | ⟨cells, heq⟩
    · rw [heq, hr]
      exact hR.ok hw' trivial
    · rw [heq, hr]
      exact hR.notify hN cells hw'

theorem Writable.forget (t : CellId) (hw : R.holds g w) :
    R.Goes g w (fun _ _ _ => True) (Run.invalidateTracker nested t w) := by
  show R.Goes g w _ ((if (w.store.cell t).dropped = true then pure () else (do
    Run.update fun s => s.modify t fun cell => { cell with epoch := cell.epoch + 1 }
    Run.disturb nested t) : Told S K Unit) w)
  split
  · exact hR.ok hw trivial
  · have hk : Akin w.store (w.store.modify t fun cell => { cell with epoch := cell.epoch + 1 }) :=
      .modify _ t (fun _ => rfl) fun _ => rfl
    exact hR.akinTo hw hk fun hs => hR.disturb hN t hs

theorem Writable.rebind {c : CellId} {b : Binding K} (hw : R.holds g w)
    (hb : (w.store.cell c).dropped = false → R.Lets g w (w.store.rebind c b)) :
    R.Goes g w (fun _ _ _ => True) (Run.bind nested c b w) := by
  show R.Goes g w _ ((if (w.store.cell c).dropped = true then pure () else (do
    Run.update fun s => s.rebind c b
    Run.disturb nested c) : Told S K Unit) w)
  split
  · exact hR.ok hw trivial
  · rename_i hd
    obtain ⟨hs, hle⟩ := hb (by simpa using hd)
    exact hR.after hle (hR.disturb hN c hs)

/-- A link: a change of binding that keeps the regime, and after the observers have run a
partner that does. -/
theorem Writable.linkTo {a b : CellId} {Q : γ → Tale S K → Bool → Prop} (hw : R.holds g w)
    (hsame : w.store.linkRoot b = a → Q g w false)
    (hb : w.store.linkRoot b ≠ a → (w.store.cell a).dropped = false →
      R.Lets g w (w.store.rebind a (.follow (w.store.linkRoot b))))
    (hp : w.store.linkRoot b ≠ a → ∀ g' w', R.le g w g' w' → R.holds g' w' →
      ∃ g'', R.holds g'' (w'.withStore (w'.store.pair a (w.store.linkRoot b))) ∧
      R.le g' w' g'' (w'.withStore (w'.store.pair a (w.store.linkRoot b))) ∧
      Q g'' (w'.withStore (w'.store.pair a (w.store.linkRoot b))) true) :
    R.Goes g w Q (Run.link nested a b w) := by
  show R.Goes g w _ ((if w.store.linkRoot b = a then pure false else (do
    Run.bind nested a (.follow (w.store.linkRoot b))
    Run.update fun s => s.pair a (w.store.linkRoot b)
    return true) : Told S K Bool) w)
  split
  · rename_i heq
    exact hR.ok hw (hsame heq)
  · rename_i hne
    refine hR.bind (hR.rebind hN hw (hb hne)) fun g' w' _ hle hw' _ => ?_
    obtain ⟨g'', hs, hle', hq⟩ := hp hne g' w' hle hw'
    exact ⟨g'', hle', hs, hq⟩

end Nested

theorem Readable.trackWork (hR : R.Readable) {t : CellId} (hw : R.holds g w)
    (h : ∀ w', R.le g w g w' → w' = Told.entering t w → R.holds g w' → R.Goes g w' Q (body w'))
    (hQ : R.Stable Q) (ht : R.begins w.store t) :
    R.Goes g w (fun g' w' r => (∀ a, r = .done a → Q g' w' a) ∧
      (r = .skipped → (w.store.cell t).dropped = true)) (Told.trackWork t body w) := by
  show R.Goes g w _ ((if (w.store.cell t).dropped = true then pure .skipped
    else if (w.store.cell t).state = .evaluating then (do
      Told.note (.refused t)
      throw (.cycle (← Run.view fun s => s.cycleError t)))
    else Told.evaluate t body >>= _ : Told S K (Evaluation α)) w)
  split
  · rename_i hd
    exact hR.ok hw ⟨by simp, fun _ => hd⟩
  · split
    · exact hR.noted (.refused t) trivial hw fun hn => hR.error hn (hR.cycle _)
    · refine hR.bind (hR.evaluate hw ht (fun hin => h _ (hR.entering hw ht).2 rfl hin) hQ)
        fun g' w' r _ hw' hr => ?_
      cases r with
      | ok a =>
        refine hR.ok hw' ⟨fun b hb => ?_, by simp⟩
        cases hb
        exact hr a rfl
      | error e => exact hR.ok hw' ⟨by simp, by simp⟩

/-! ## Programs -/

/-- A program, run from `w`, keeps the regime and returns what `Q` says. -/
def Runs (R : Regime S K γ) (nested : Nested (S × Chronicle K) K) (g : γ) (w : Tale S K)
    (act : Act S K α) (Q : γ → Tale S K → α → Prop) : Prop := R.Goes g w Q (act.tell nested w)

abbrev Keeps (R : Regime S K γ) (nested : Nested (S × Chronicle K) K) (g : γ) (w : Tale S K)
    (act : Act S K α) : Prop := R.Runs nested g w act fun _ _ _ => True

namespace Runs

variable {nested : Nested (S × Chronicle K) K} [hR : R.Sober]
include hR

section

variable (hw : R.holds g w)
include hw

theorem ret (hq : Q g w.beat a) :
    R.Runs nested g w (.pure a) Q :=
  hR.beat hw fun hn => hR.ok hn hq

omit hw in
theorem seq {x : Act S K β} {f : β → Act S K α} {P : γ → Tale S K → β → Prop}
    (hx : R.Runs nested g w x P)
    (hf : ∀ g' w' b, R.le g w g' w' → R.holds g' w' → P g' w' b → R.Runs nested g' w' (f b) Q) :
    R.Runs nested g w (.bind x f) Q := by
  have hx' : R.Goes g w P (x.tell nested w) := hx
  show R.Goes g w Q ((x >>= f).tell nested w)
  cases hr : x.tell nested w with
  | ok b w' =>
    rw [hr] at hx'
    rw [Act.tell_bind_of_ok hr]
    obtain ⟨g', hle, hw', hp⟩ := hx'
    exact hR.after hle (hf g' w' b hle hw' hp)
  | error stop w' =>
    rw [hr] at hx'
    rw [Act.tell_bind_of_error hr]
    exact hx'

omit hw in
theorem seq_ret {x : Act S K β} {f : β → α} {P : γ → Tale S K → β → Prop}
    (hx : R.Runs nested g w x P) : R.Keeps nested g w (.bind x fun b => .pure (f b)) :=
  .seq hx fun _ _ _ _ hw _ => .ret hw trivial

theorem host {f : S → α × S} (h : R.holds g w.beat → ∃ g',
      R.le g w.beat g' (w.beat.withHost (f w.host.1).2) ∧
      R.holds g' (w.beat.withHost (f w.host.1).2) ∧
      Q g' (w.beat.withHost (f w.host.1).2) (f w.host.1).1) :
    R.Runs nested g w (.host f) Q :=
  hR.beat hw fun hn => h hn

theorem view {f : Store K → α}
    (hq : Q g w.beat (f w.store)) : R.Runs nested g w (.view f) Q :=
  hR.beat hw fun hn => hR.ok hn hq

omit hw in
theorem record (e : Entry) (hw : R.holds g w) : R.Keeps nested g w (.record e) :=
  hR.beat hw fun hn =>
    hR.akinTo hn (w.beat.store.akin_record e) fun hs => hR.ok hs trivial

theorem panic {text : String} (h : R.stops (.panic text)) :
    R.Runs nested g w (.panic text) Q :=
  hR.beat hw fun hn => hR.error hn h

theorem untracked {body : Act S K α}
    (h : ∀ w', R.le g w g w' → R.holds g w' → R.Runs nested g w' body Q) (hQ : R.Stable Q) :
    R.Runs nested g w (.untracked body) Q :=
  hR.beat hw fun hn => hR.untracked hn
    (fun w' hle hw' => h w' (hR.trans (hR.le_beat hw) hle) hw') hQ

theorem ensure {body : Act S K α} {after : S → S}
    (h : ∀ w', R.le g w g w' → R.holds g w' → R.Runs nested g w' body Q) (hQ : R.Stable Q)
    (hafter : ∀ g' w', R.le g w g' w' → R.holds g' w' →
      R.holds g' (w'.withHost (after w'.host.1)) ∧ R.le g' w' g' (w'.withHost (after w'.host.1))) :
    R.Runs nested g w (.ensure body after) Q := by
  refine hR.beat hw fun hn => ?_
  have hle := (hR.le_beat hw)
  have hb : R.Goes g w.beat Q (body.tell nested w.beat) := h _ hle hn
  show R.Goes g w.beat Q
    (Run.ensure (body.tell nested) (fun host => (after host.1, host.2)) w.beat)
  unfold Run.ensure
  cases hr : body.tell nested w.beat with
  | ok a w' =>
    rw [hr] at hb
    obtain ⟨g', hle', hw', hq⟩ := hb
    obtain ⟨hs, hle''⟩ := hafter g' w' (hR.trans hle hle') hw'
    exact ⟨g', hR.trans hle' hle'', hs, hQ hle'' hq⟩
  | error stop w' =>
    rw [hr] at hb
    refine ⟨hb.1, fun hstrict => ?_⟩
    obtain ⟨g', hle', hw'⟩ := hb.2 hstrict
    obtain ⟨hs, hle''⟩ := hafter g' w' (hR.trans hle hle') hw'
    exact ⟨g', hR.trans hle' hle'', hs⟩

omit hw in
theorem step {act : Act S K α} {f : Store K → α × Store K}
    (hact : act.tell nested = Told.control (Run.step f)) (hw : R.holds g w)
    (h : R.holds g w.beat → ∃ g',
      R.le g w.beat g' (w.beat.withStore (f w.store).2) ∧
      R.holds g' (w.beat.withStore (f w.store).2) ∧
      Q g' (w.beat.withStore (f w.store).2) (f w.store).1) : R.Runs nested g w act Q := by
  unfold Runs
  rw [hact]
  exact hR.beat hw fun hn => h hn

theorem drop (hmiss : ¬c < w.store.cells.size → R.stops (.unknownCell c))
    (h : c < w.store.cells.size → R.holds g w.beat →
      R.Lets g w.beat (w.store.drop c)) :
    R.Keeps nested g w (.drop c) :=
  hR.beat hw fun hn => hR.onCell hn hmiss fun hc =>
    ⟨g, (h hc hn).2, (h hc hn).1, trivial⟩

theorem unobserve {o : ObserverId} (h : R.holds g w.beat →
      R.Lets g w.beat (w.store.unobserve o)) :
    R.Keeps nested g w (.unobserve o) :=
  hR.beat hw fun hn => ⟨g, (h hn).2, (h hn).1, trivial⟩

theorem observe {code : K Unit}
    (hmiss : ¬c < w.store.cells.size → R.stops (.unknownCell c)) (h : R.holds g w.beat →
      R.Lets g w.beat (w.store.observe c code).2) :
    R.Keeps nested g w (.observe c code) :=
  hR.beat hw fun hn => hR.onCell hn hmiss fun _ => ⟨g, (h hn).2, (h hn).1, trivial⟩

/-! A program is read off from its start: each rule takes its first step away. -/

theorem ask {f : S → β}
    (h : R.holds g w.beat → R.Runs nested g w.beat (k (f w.host.1)) Q) :
    R.Runs nested g w (Act.ask f >>= k) Q :=
  hR.beat hw h

theorem view_then {f : Store K → β}
    (h : R.holds g w.beat → R.Runs nested g w.beat (k (f w.store)) Q) :
    R.Runs nested g w (.view f >>= k) Q :=
  hR.beat hw h

theorem pure_then {a : β}
    (h : R.holds g w.beat → R.Runs nested g w.beat (k a) Q) :
    R.Runs nested g w (pure a >>= k) Q :=
  hR.beat hw h

/-- A change of the host, which may come with a growth of the ghost. -/
theorem host_then {f : S → β × S} (g' : γ)
    (h : R.holds g w.beat → R.holds g' (w.beat.withHost (f w.host.1).2) ∧
      R.le g w.beat g' (w.beat.withHost (f w.host.1).2))
    (hk : R.holds g' (w.beat.withHost (f w.host.1).2) →
      R.Runs nested g' (w.beat.withHost (f w.host.1).2) (k (f w.host.1).1) Q) :
    R.Runs nested g w (.host f >>= k) Q :=
  hR.beat hw fun hn => hR.after (h hn).2 (hk (h hn).1)

theorem change_then {f : S → S} {k : Unit → Act S K α}
    (h : R.holds g w.beat → R.holds g (w.beat.withHost (f w.host.1)) ∧
      R.le g w.beat g (w.beat.withHost (f w.host.1)))
    (hk : R.holds g (w.beat.withHost (f w.host.1)) →
      R.Runs nested g (w.beat.withHost (f w.host.1)) (k ()) Q) :
    R.Runs nested g w (Act.change f >>= k) Q :=
  .host_then hw g h hk

/-- After a cell was dropped the regime may be broken, as long as the rest mends it. -/
theorem drop_then {k : Unit → Act S K α}
    (hmiss : ¬c < w.store.cells.size → R.stops (.unknownCell c)) (hle : c < w.store.cells.size →
      R.le g w.beat g (w.beat.withStore (w.store.drop c)))
    (hk : c < w.store.cells.size →
      R.Runs nested g (w.beat.withStore (w.store.drop c)) (k ()) Q) :
    R.Runs nested g w (.drop c >>= k) Q := by
  refine hR.beat hw fun hn => ?_
  by_cases hc : c < w.store.cells.size
  · have htell : (Act.drop c).tell nested w =
        .ok () (w.beat.withStore (w.store.drop c)) := Run.onCell_of_lt hc
    rw [Act.tell_bind_of_ok htell]
    exact hR.after (hle hc) (hk hc)
  · have htell : (Act.drop c).tell nested w = .error (.unknownCell c) w.beat :=
      Run.onCell_of_not_lt hc
    rw [Act.tell_bind_of_error htell]
    exact hR.error hn (hmiss hc)

theorem change {f : S → S} (h : R.holds g w.beat →
      R.holds g (w.beat.withHost (f w.host.1)) ∧
      R.le g w.beat g (w.beat.withHost (f w.host.1))) :
    R.Keeps nested g w (Act.change f) :=
  .host hw fun hn => ⟨g, (h hn).2, (h hn).1, trivial⟩

theorem forM {xs : List β} {f : β → Act S K PUnit}
    (hf : ∀ x ∈ xs, ∀ g' w', R.le g w g' w' → R.holds g' w' → R.Keeps nested g' w' (f x)) :
    R.Keeps nested g w (xs.forM f) := by
  induction xs generalizing g w with
  | nil => exact .ret hw trivial
  | cons x xs ih =>
    refine .seq (hf x (by simp) g w (hR.refl g w) hw) fun g' w' _ hle hw' _ => ih hw' ?_
    intro y hy g'' w'' hle' hw''
    exact hf y (by simp [hy]) g'' w'' (hR.trans hle hle') hw''

omit hw in
theorem mapM {xs : List β} {f : β → Act S K α} {P : β → γ → Tale S K → α → Prop}
    (hP : ∀ x, R.Stable (P x)) (hw : R.holds g w)
    (hf : ∀ x ∈ xs, ∀ g' w', R.le g w g' w' → R.holds g' w' → R.Runs nested g' w' (f x) (P x)) :
    R.Runs nested g w (xs.mapM f) fun g' w' ys => List.Forall₂ (fun x y => P x g' w' y) xs ys := by
  suffices h :
      ∀ (done : List β) (acc : List α), List.Forall₂ (fun x y => P x g w y) done acc.reverse →
        R.Runs nested g w (List.mapM.loop f xs acc) fun g' w' ys =>
        List.Forall₂ (fun x y => P x g' w' y) (done ++ xs) ys by
    exact h [] [] .nil
  induction xs generalizing g w with
  | nil =>
    intro done acc hacc
    refine .ret hw ?_
    rw [List.append_nil]
    exact hacc.imp fun _ _ h => hP _ (hR.le_beat hw) h
  | cons x xs ih =>
    intro done acc hacc
    refine .seq (hf x (by simp) g w (hR.refl g w) hw) fun g' w' y hle hw' hy => ?_
    have hacc' : List.Forall₂ (fun x y => P x g' w' y) (done ++ [x]) (y :: acc).reverse := by
      rw [List.reverse_cons]
      exact List.rel_append (hacc.imp fun _ _ h => hP _ hle h) (.cons hy .nil)
    have hrest := ih hw' (fun y hy g'' w'' hle' hw'' =>
      hf y (by simp [hy]) g'' w'' (hR.trans hle hle') hw'') (done ++ [x]) (y :: acc) hacc'
    rwa [List.append_assoc] at hrest

theorem link {a b : CellId} {Q : γ → Tale S K → Bool → Prop}
    (hstops : ∀ c, R.stops (.unknownCell c)) (hwrites : R.writes a)
    (h : R.holds g (w.beat.noting (.wrote a)) → w.store.IsProperty a →
      R.Goes g (w.beat.noting (.wrote a)) Q
        (Run.link nested a b (w.beat.noting (.wrote a)))) :
    R.Runs nested g w (.link a b) Q :=
  hR.beat hw fun hn => hR.onProperty hn (fun _ => hstops a) fun ha =>
    hR.onProperty hn (fun _ => hstops b) fun _ => hR.noted (.wrote a) hwrites hn fun hn' => h hn' ha

end

theorem perform (hN : R.Obeys nested) {c : K α} (hw : R.holds g w)
    (hc : R.holds g w.beat → R.admits g w.beat c) :
    R.Runs nested g w (.perform c) fun g' w' a => R.returns g' w' c a :=
  hR.beat hw fun hn => hN.code hn (hc hn)

end Runs

namespace Runs

variable {nested : Nested (S × Chronicle K) K} [hR : R.Readable]
include hR

theorem track {t : CellId} {body : Act S K α} (hw : R.holds g w)
    (hmiss : ¬w.store.IsTracker t → R.stops (.unknownCell t)) (ht : R.begins w.store t)
    (h : ∀ w', R.le g w g w' → R.holds g w' → R.Runs nested g w' body Q) (hQ : R.Stable Q) :
    R.Runs nested g w (.track t body) fun g' w' r => (∀ a, r = .done a → Q g' w' a) ∧
      (r = .skipped → (w.store.cell t).dropped = true) :=
  hR.beat hw fun hn => hR.onTracker hn hmiss fun _ => hR.trackWork hn
    (fun w' hle _ hw' => h w' (hR.trans (hR.le_beat hw) hle) hw') hQ ht

variable (hN : R.Obeys nested)
include hN

theorem tryGet (hw : R.holds g w) (hc : w.store.IsProperty c ∨ R.stops (.unknownCell c)) :
    R.Runs nested g w (.tryGet c) fun g' w' r => R.shows g' w' c r.1 :=
  hR.beat hw fun hn => hR.onProperty hn (fun hp => hc.resolve_left hp) fun hp =>
    hR.tryGet hN hn hp.1

theorem get (hw : R.holds g w) (hc : w.store.IsProperty c ∨ R.stops (.unknownCell c)) :
    R.Runs nested g w (.get c) fun g' w' v => R.shows g' w' c v :=
  hR.beat hw fun hn => hR.onProperty hn (fun hp => hc.resolve_left hp) fun hp =>
    hR.get hN hn hp.1

end Runs

namespace Runs

variable {nested : Nested (S × Chronicle K) K} [hR : R.Writable] (hN : R.Obeys nested)
include hR hN

theorem set (hw : R.holds g w)
    (hc : w.store.IsProperty c ∨ R.stops (.unknownCell c)) (hwrites : R.writes c)
    (hv : R.fits g w c v) : R.Keeps nested g w (.set c v) :=
  hR.beat hw fun hn => hR.onProperty hn (fun hp => hc.resolve_left hp) fun _ =>
    hR.noted (.wrote c) hwrites hn fun hn' => hR.set hN hn'
      (hR.fits_mono (hR.note (.wrote c) hwrites hn).2 (hR.fits_mono (hR.le_beat hw) hv))

theorem setBinding {code : K Value} (hw : R.holds g w)
    (hc : w.store.IsProperty c ∨ R.stops (.unknownCell c)) (hwrites : R.writes c)
    (hb : ∀ w', R.le g w g w' → R.holds g w' → w'.store = w.store → w.store.IsProperty c →
      (w.store.cell c).dropped = false → R.Lets g w' (w.store.rebind c (.code code))) :
    R.Keeps nested g w (.setBinding c code) :=
  hR.beat hw fun hn => hR.onProperty hn (fun hp => hc.resolve_left hp) fun hp =>
    hR.noted (.wrote c) hwrites hn fun hn' => hR.rebind hN hn' fun hd =>
      hb _ (hR.trans (hR.le_beat hw) (hR.note (.wrote c) hwrites hn).2) hn' rfl hp hd

theorem invalidate {t : CellId} (hw : R.holds g w)
    (hmiss : ¬w.store.IsTracker t → R.stops (.unknownCell t)) (hwrites : R.writes t) :
    R.Keeps nested g w (.invalidate t) :=
  hR.beat hw fun hn => hR.onTracker hn hmiss fun _ =>
    hR.noted (.wrote t) hwrites hn fun hn' => hR.forget hN t hn'

end Runs

/-- If all code that a regime admits keeps it, given that the code nested in it does, then
code keeps it however deep it is nested. -/
theorem Readable.toldTo_obeys (hR : R.Readable) {meaning : {α : Type} → K α → Act S K α}
    (hm : ∀ {nested}, R.Obeys nested → ∀ {α : Type} {c : K α} {g w}, R.holds g w →
      R.admits g w c → R.Runs nested g w (meaning c) fun g' w' a => R.returns g' w' c a)
    (depth : Nat) : R.Obeys (Act.toldTo meaning depth) := by
  induction depth with
  | zero =>
    exact ⟨fun hw _ => hR.error hw hR.deep, fun hw _ => hR.error hw hR.deep⟩
  | succ depth ih => exact ⟨fun hw hc => hm ih hw hc, fun hw hc => Runs.get ih hw hc⟩

end Regime

end ReactiveTree
