import Mathlib.Data.Finset.Lattice.Fold
import ReactiveTree.Proofs.Cell.Recompute

/-!
# Faithful stores

Where every binding is a formula, a clean cell shows what its formula gives for the values that
it has read, and it has read only cells that stand below it in some order. This makes the values
of clean cells those of a computation from scratch (`Faithful.recompute_clean`).

The file also says what reading leaves alone (`Calm`), whether a read succeeds or is cut short.
-/

namespace ReactiveTree

variable {S : Type} {K : Type → Type}

open Store

section

variable (meaning : {α : Type} → K α → Act S K α)

/-- The values of clean cells come from what they have read, which stands below them. -/
structure Explained (rank : CellId → Nat) (s : Store K) (past : Chronicle K) : Prop where
  yields : ∀ c b, (s.cell c).state = .clean → (s.cell c).rule = some b →
    (b.program meaning).Yields (fun x v => (x, v) ∈ past.reads c) (s.cell c).value
  below : ∀ c b, (s.cell c).state = .clean → (s.cell c).rule = some b →
    ∀ x v, (x, v) ∈ past.reads c → rank x < rank c

/-- A stage of a run in which only formulas are evaluated. -/
structure Faithful (k : Stage K) : Prop where
  coherence : Coherence [] k
  properties : ∀ c, (k.store.cell c).tracker = false
  consumers : ∀ c ∈ k.store.consumers,
    (k.store.cell c).rule.isSome = true ∧ (k.store.cell c).disturbed = false
  explained : ∃ rank, Explained meaning rank k.store k.past

end

variable {meaning : {α : Type} → K α → Act S K α}
variable {b : Binding K} {cell : Cell K} {c x : CellId} {rank : CellId → Nat} {k : Stage K}
  {t : Store K}

namespace Cell

theorem rule_eq_some : cell.rule = some b ↔ cell.dropped = false ∧ cell.binding = some b := by
  unfold rule
  split <;> simp_all

theorem rule_of_dropped (h : cell.dropped = true) : cell.rule = none := if_pos h

theorem rule_of_not_dropped (h : cell.dropped = false) :
    cell.rule = cell.binding := if_neg (by simp [h])

end Cell

theorem Stage.sound_of_clean
    (hst : (k.store.cell c).state = .clean) (hr : (k.store.cell c).rule = some b) : k.Sound c := by
  obtain ⟨hd, hb⟩ := Cell.rule_eq_some.mp hr
  exact ⟨.inl (by simp [hb]), hd, .inl hst⟩

theorem Explained.transfer {s : Store K} {past past' : Chronicle K}
    (h : Explained meaning rank s past)
    (hsame : ∀ c b, (t.cell c).state = .clean → (t.cell c).rule = some b →
      (s.cell c).state = .clean ∧ (s.cell c).rule = some b ∧
        (t.cell c).value = (s.cell c).value ∧ past'.reads c = past.reads c) :
    Explained meaning rank t past' := by
  constructor
  · intro c b hst hr
    obtain ⟨hst', hr', hv, hreads⟩ := hsame c b hst hr
    rw [hv, hreads]
    exact h.yields c b hst' hr'
  · intro c b hst hr
    obtain ⟨hst', hr', -, hreads⟩ := hsame c b hst hr
    rw [hreads]
    exact h.below c b hst' hr'

/-- The value of a clean or dropped cell is the one that is computed from scratch. -/
theorem Faithful.recompute_clean (h : Faithful meaning k)
    (he : Explained meaning rank k.store k.past) (hlt : c < k.store.cells.size)
    (hc : (k.store.cell c).state = .clean ∨ (k.store.cell c).dropped = true)
    {stack : List CellId} (hstack : ∀ d ∈ stack, rank c < rank d ∨
      (k.store.cell d).state = .evaluating ∧ (k.store.cell d).dropped = false) :
    k.store.recompute meaning stack c = .ok (k.store.cell c).value := by
  -- on the place of the cell in the order
  generalize hn : rank c = n
  induction n using Nat.strong_induction_on generalizing c stack with
  | _ n ih =>
    have hprop : k.store.IsProperty c := ⟨hlt, h.properties c⟩
    have hmem : c ∉ stack := fun hmem => by
      rcases hstack c hmem with hlt | ⟨hev, hnd⟩
      · exact Nat.lt_irrefl _ hlt
      · rcases hc with hc | hc
        · rw [hev] at hc
          cases hc
        · rw [hnd] at hc
          cases hc
    cases hr : (k.store.cell c).rule with
    | none => exact recompute_stored hprop hmem hr
    | some b =>
      have hst : (k.store.cell c).state = .clean := hc.resolve_right fun hd => by
        rw [Cell.rule_of_dropped hd] at hr
        cases hr
      rw [recompute_bound hprop hmem hr]
      refine (he.yields c b hst hr).consult fun x v hx => ?_
      obtain ⟨hxlt, rfl, hx'⟩ := h.coherence.upheld c (Stage.sound_of_clean hst hr) x v hx
      have hrank : rank x < rank c := he.below c b hst hr x _ hx
      refine ih (rank x) (hn ▸ hrank) hxlt (hx'.symm.imp And.left id) (fun d hd => ?_) rfl
      rcases List.mem_cons.mp hd with rfl | hd
      · exact .inl hrank
      · exact (hstack d hd).imp hrank.trans id

/-- A consumer of a faithful stage is under evaluation and not disturbed. -/
theorem Faithful.evaluating (h : Faithful meaning k) (hc : c ∈ k.store.consumers) :
    (k.store.cell c).state = .evaluating ∧ (k.store.cell c).dropped = false := by
  obtain ⟨b, hb⟩ := Option.isSome_iff_exists.mp (h.consumers c hc).1
  have hd := (Cell.rule_eq_some.mp hb).1
  rcases (h.coherence.sane.consumer c hc).2 with ⟨-, hev, -⟩ | ⟨hd', -⟩
  · exact ⟨hev, hd⟩
  · rw [hd] at hd'
    cases hd'

/-- There are fewer cells under evaluation than cells, as long as one is not. -/
theorem Store.Sane.length_consumers_lt {s : Store K} (h : s.Sane)
    (hc : c < s.cells.size) (hn : c ∉ s.consumers) : s.consumers.length < s.cells.size := by
  have hsub : (c :: s.consumers) ⊆ List.range s.cells.size := fun d hd => by
    rcases List.mem_cons.mp hd with rfl | hd
    · exact List.mem_range.mpr hc
    · exact List.mem_range.mpr (h.consumer d hd).1
  have hlen := ((List.nodup_cons.mpr ⟨hn, h.nodup⟩).subperm hsub).length_le
  rw [List.length_cons, List.length_range] at hlen
  omega

/-! ## What reading leaves alone -/

/-- From `u` to `w` cells were read, and formulas evaluated to that end. -/
structure Calm (u w : Tale S K) : Prop where
  sources : SameSources u.store w.store
  stack : w.store.stack = u.store.stack
  bindings : ∀ c, (w.store.cell c).bindings = (u.store.cell c).bindings
  clean : ∀ c, (u.store.cell c).state = .clean →
    (w.store.cell c).state = .clean ∧ (w.store.cell c).value = (u.store.cell c).value
  evaluating : ∀ c, (u.store.cell c).state = .evaluating →
    (w.store.cell c).state = .evaluating ∧
      (w.store.cell c).disturbed = (u.store.cell c).disturbed
  reads : ∀ c, (u.store.cell c).state ≠ .dirty → u.store.reader ≠ some c →
    w.past.reads c = u.past.reads c
  more : ∀ c, u.store.reader = some c → u.past.reads c ⊆ w.past.reads c
  /-- Only the code of evaluations had control. -/
  moments : ∃ new, w.past = new ++ u.past ∧
    ∀ m ∈ new, m.event = .control → m.store.consumers ≠ []

namespace Calm

variable {u w : Tale S K}

theorem refl (w : Tale S K) : Calm w w where
  sources := .refl _
  stack := rfl
  bindings _ := rfl
  clean _ h := ⟨h, rfl⟩
  evaluating _ h := ⟨h, rfl⟩
  reads _ _ _ := rfl
  more _ _ := List.Subset.refl _
  moments := ⟨[], rfl, nofun⟩

theorem reader (h : Calm u w) : w.store.reader = u.store.reader := by
  rw [Store.reader, Store.reader, h.stack]

theorem consumers (h : Calm u w) : w.store.consumers = u.store.consumers := by
  rw [Store.consumers, Store.consumers, h.stack]

theorem not_dirty (h : Calm u w) (hc : (u.store.cell c).state ≠ .dirty) :
    (w.store.cell c).state ≠ .dirty := by
  cases hst : (u.store.cell c).state with
  | clean => simp [(h.clean c hst).1]
  | evaluating => simp [(h.evaluating c hst).1]
  | dirty => exact absurd hst hc

theorem trans {v : Tale S K} (h : Calm u v) (h' : Calm v w) : Calm u w where
  sources := h.sources.trans h'.sources
  stack := h'.stack.trans h.stack
  bindings c := (h'.bindings c).trans (h.bindings c)
  clean c hc := ⟨(h'.clean c (h.clean c hc).1).1,
    (h'.clean c (h.clean c hc).1).2.trans (h.clean c hc).2⟩
  evaluating c hc := ⟨(h'.evaluating c (h.evaluating c hc).1).1,
    (h'.evaluating c (h.evaluating c hc).1).2.trans (h.evaluating c hc).2⟩
  reads c hc hr := (h'.reads c (h.not_dirty hc) (h.reader ▸ hr)).trans (h.reads c hc hr)
  more c hr := List.Subset.trans (h.more c hr) (h'.more c (h.reader.trans hr))
  moments := by
    obtain ⟨new, hpast, hnew⟩ := h.moments
    obtain ⟨new', hpast', hnew'⟩ := h'.moments
    refine ⟨new' ++ new, by rw [hpast', hpast, List.append_assoc], fun m hm => ?_⟩
    exact (List.mem_append.mp hm).elim (hnew' m) (hnew m)

/-- A change of cells that no formula and no evaluation looks at. -/
theorem of_cells {host : S × Chronicle K} (hsize : t.cells.size = w.store.cells.size)
    (hstack : t.stack = w.store.stack) (hpast : host.2 = w.past)
    (hcell : ∀ c, (t.cell c).tracker = (w.store.cell c).tracker ∧
      (t.cell c).rule = (w.store.cell c).rule ∧ (t.cell c).value = (w.store.cell c).value ∧
      (t.cell c).bindings = (w.store.cell c).bindings ∧
      (t.cell c).disturbed = (w.store.cell c).disturbed ∧
      ((w.store.cell c).state ≠ .dirty → (t.cell c).state = (w.store.cell c).state)) :
    Calm w ⟨t, host⟩ where
  sources := ⟨hsize, fun c => (hcell c).1, fun c => (hcell c).2.1, fun c _ => (hcell c).2.2.1⟩
  stack := hstack
  bindings c := (hcell c).2.2.2.1
  clean c hc := ⟨((hcell c).2.2.2.2.2 (by simp [hc])).trans hc, (hcell c).2.2.1⟩
  evaluating c hc := ⟨((hcell c).2.2.2.2.2 (by simp [hc])).trans hc, (hcell c).2.2.2.2.1⟩
  reads c _ _ := congrArg _ hpast
  more c _ := (congrArg (Chronicle.reads c) hpast) ▸ List.Subset.refl _
  moments := ⟨[], hpast, nofun⟩

theorem track (hx : x < w.store.cells.size) : Calm w ⟨w.store.track x, w.host⟩ := by
  refine .of_cells (size_track ..) (stack_track ..) rfl fun c => ?_
  obtain ⟨edges, room, hcell⟩ := w.store.track_same hx c
  simp [hcell, Cell.rule]

theorem settle (hst : (w.store.cell x).state = .dirty) :
    Calm w ⟨w.store.modify x fun cell => { cell with state := .clean }, w.host⟩ := by
  refine .of_cells (size_modify ..) rfl rfl fun c => ?_
  rw [cell_modify]
  split
  · rename_i hc
    simp [hc.1, hst, Cell.rule]
  · simp

theorem note {e : Event} (hreads : ∀ c, (w.noting e).past.reads c = w.past.reads c)
    (hctl : e = .control → w.store.consumers ≠ []) : Calm w (w.noting e) where
  sources := .refl _
  stack := rfl
  bindings _ := rfl
  clean _ h := ⟨h, rfl⟩
  evaluating _ h := ⟨h, rfl⟩
  reads c _ _ := hreads c
  more c _ := (hreads c) ▸ List.Subset.refl _
  moments := ⟨[⟨e, w.store⟩], rfl, fun m hm => by
    cases List.mem_singleton.mp hm
    exact hctl⟩

theorem reads_got (w : Tale S K) (c x : CellId) (v : Value) : (w.noting (.got x v)).past.reads c =
      if w.store.reader = some c then (x, v) :: w.past.reads c else w.past.reads c := rfl

theorem got (w : Tale S K) (x : CellId) (v : Value) : Calm w (w.noting (.got x v)) where
  sources := .refl _
  stack := rfl
  bindings _ := rfl
  clean _ h := ⟨h, rfl⟩
  evaluating _ h := ⟨h, rfl⟩
  reads c _ hr := by rw [reads_got, if_neg hr]
  more c hr := by
    rw [reads_got, if_pos hr]
    exact List.subset_cons_self ..
  moments := ⟨[⟨.got x v, w.store⟩], rfl, fun m hm => by
    cases List.mem_singleton.mp hm
    nofun⟩

/-- The dirty cell `x` was evaluated. However the evaluation ended, it changed nothing in `x`
but its value and state. -/
theorem evaluated (hx : x < u.store.cells.size)
    (hst : (u.store.cell x).state = .dirty) (hrule : (u.store.cell x).rule.isSome = true)
    (hreader : ∀ c, u.store.reader = some c → (u.store.cell c).state ≠ .dirty)
    (h : Calm (Told.entering x u) w) (hsize : t.cells.size = w.store.cells.size)
    (hstack : t.stack = w.store.stack.tail) (hother : ∀ d, d ≠ x → t.cell d = w.store.cell d)
    (hself : ∃ v state, t.cell x = { w.store.cell x with value := v, state := state })
    (completed : Bool) : Calm u (World.noting (.ended x completed) ⟨t, w.host⟩) := by
  obtain ⟨v, state, hself⟩ := hself
  have hent : ∀ d, d ≠ x → (Told.entering x u).store.cell d = u.store.cell d := fun d hd =>
    (u.store.cell_enter hx d).trans (if_neg hd)
  have hentx : (Told.entering x u).store.cell x = _ := (u.store.cell_enter hx x).trans (if_pos rfl)
  have hentr : (Told.entering x u).store.reader = some x := by simp [Told.entering, Store.reader]
  have hne : ∀ c, (u.store.cell c).state ≠ .dirty → c ≠ x := fun c hc hcx => hc (hcx ▸ hst)
  have hreads : ∀ c, (u.store.cell c).state ≠ .dirty → w.past.reads c = u.past.reads c :=
    fun c hc => by
      have hcx := hne c hc
      rw [h.reads c (by rwa [hent c hcx]) (by rw [hentr]; simpa using hcx.symm)]
      exact if_neg hcx.symm
  constructor
  · refine ⟨hsize.trans (h.sources.size.trans (size_enter ..)), fun c => ?_, fun c => ?_,
      fun c hc => ?_⟩
    · show (t.cell c).tracker = _
      by_cases hcx : c = x
      · subst hcx
        rw [hself]
        exact (h.sources.tracker c).trans (by rw [hentx])
      · rw [hother c hcx, h.sources.tracker c, hent c hcx]
    · show (t.cell c).rule = _
      by_cases hcx : c = x
      · subst hcx
        rw [hself]
        exact (h.sources.rule c).trans (by rw [hentx]; rfl)
      · rw [hother c hcx, h.sources.rule c, hent c hcx]
    · have hcx : c ≠ x := fun hcx => by simp [hcx ▸ hc] at hrule
      show (t.cell c).value = _
      rw [hother c hcx, h.sources.value c (by rwa [hent c hcx]), hent c hcx]
  · show t.stack = _
    rw [hstack, h.stack]
    simp [Told.entering]
  · intro c
    show (t.cell c).bindings = _
    by_cases hcx : c = x
    · subst hcx
      rw [hself]
      exact (h.bindings c).trans (by rw [hentx])
    · rw [hother c hcx, h.bindings c, hent c hcx]
  · intro c hc
    have hcx := hne c (by simp [hc])
    obtain ⟨hcl, hv⟩ := h.clean c (by rwa [hent c hcx])
    show (t.cell c).state = _ ∧ (t.cell c).value = _
    rw [hother c hcx]
    exact ⟨hcl, hv.trans (by rw [hent c hcx])⟩
  · intro c hc
    have hcx := hne c (by simp [hc])
    obtain ⟨hev, hq⟩ := h.evaluating c (by rwa [hent c hcx])
    show (t.cell c).state = _ ∧ (t.cell c).disturbed = _
    rw [hother c hcx]
    exact ⟨hev, hq.trans (by rw [hent c hcx])⟩
  · exact fun c hc _ => hreads c hc
  · intro c hc
    have heq : (World.noting (.ended x completed) ⟨t, w.host⟩).past.reads c = u.past.reads c :=
      hreads c (hreader c hc)
    exact heq ▸ List.Subset.refl _
  · obtain ⟨new, hpast, hnew⟩ := h.moments
    refine ⟨⟨.ended x completed, t⟩ :: new ++ [⟨.began x, u.store⟩], ?_, fun m hm => ?_⟩
    · show _ :: w.past = _
      rw [hpast]
      simp [Told.entering, World.past, World.noting]
    · rcases List.mem_append.mp hm with hm | hm
      · rcases List.mem_cons.mp hm with rfl | hm
        · simp
        · exact hnew m hm
      · cases List.mem_singleton.mp hm
        simp

end Calm

/-- Reading keeps a stage faithful. -/
theorem Faithful.calm {u w : Tale S K} {stop stop' : Option Stop}
    (h : Faithful meaning ⟨u.store, u.past, stop⟩) (hcalm : Calm u w)
    (hcoh : Coherence [] ⟨w.store, w.past, stop'⟩)
    (he : ∃ rank, Explained meaning rank w.store w.past) :
    Faithful meaning ⟨w.store, w.past, stop'⟩ := by
  refine ⟨hcoh, fun c => (hcalm.sources.tracker c).trans (h.properties c), fun c hc => ?_, he⟩
  have hc' : c ∈ u.store.consumers := hcalm.consumers ▸ hc
  exact ⟨(congrArg Option.isSome (hcalm.sources.rule c)).trans (h.consumers c hc').1,
    (hcalm.evaluating c (h.evaluating hc').1).2.trans (h.consumers c hc').2⟩

/-- The cell `x` got the value `v` from its evaluation and stands above all others now. -/
theorem Explained.completed {w : Tale S K} {stop : Option Stop}
    (he : Explained meaning rank w.store w.past) (hcoh : Coherence [] ⟨w.store, w.past, stop⟩)
    {past' : Chronicle K}
    (hev : (w.store.cell x).state = .evaluating) (hnd : (w.store.cell x).dropped = false)
    (hsound : Stage.Sound ⟨w.store, w.past, stop⟩ x)
    (hother : ∀ d, d ≠ x → t.cell d = w.store.cell d) (hrule : (t.cell x).rule = some b)
    (hy : (b.program meaning).Yields (fun y v => (y, v) ∈ w.past.reads x) (t.cell x).value)
    (hreads : ∀ c, c = x ∨ (w.store.cell c).state = .clean → past'.reads c = w.past.reads c) :
    ∃ rank', Explained meaning rank' t past' := by
  -- what a sound cell has read is clean or dropped, so it is not `x`
  have hne : ∀ c, Stage.Sound ⟨w.store, w.past, stop⟩ c → ∀ y v, (y, v) ∈ w.past.reads c →
      y ≠ x ∧ y < w.store.cells.size := fun c hc y v hyv => by
    obtain ⟨hlt, -, hcase⟩ := hcoh.upheld c hc y v hyv
    refine ⟨fun hyx => ?_, hlt⟩
    subst hyx
    rcases hcase with hd | ⟨hcl, -⟩
    · exact absurd hd (by simp [hnd])
    · exact absurd hcl (by simp [hev])
  refine ⟨fun y => if y = x then (Finset.range w.store.cells.size).sup rank + 1 else rank y, ?_, ?_⟩
  · intro c b' hst hr
    by_cases hcx : c = x
    · subst hcx
      rw [hrule, Option.some.injEq] at hr
      rw [hreads c (.inl rfl), ← hr]
      exact hy
    · rw [hother c hcx] at hst hr ⊢
      rw [hreads c (.inr hst)]
      exact he.yields c b' hst hr
  · intro c b' hst hr y v hyv
    by_cases hcx : c = x
    · subst hcx
      rw [hreads c (.inl rfl)] at hyv
      obtain ⟨hyx, hlt⟩ := hne c hsound y v hyv
      rw [if_neg hyx, if_pos rfl]
      exact Nat.lt_succ_of_le (Finset.le_sup (Finset.mem_range.mpr hlt))
    · rw [hother c hcx] at hst hr
      rw [hreads c (.inr hst)] at hyv
      obtain ⟨hyx, -⟩ := hne c (Stage.sound_of_clean hst hr) y v hyv
      rw [if_neg hyx, if_neg hcx]
      exact he.below c b' hst hr y v hyv

end ReactiveTree
