import ReactiveTree.Proofs.Cell.Faithful

/-!
# Evaluations keep step with the computation from scratch

A read of a cell does one of two things. It takes what is cached, and then the value is the one
that a computation from scratch gives. Or it runs a binding, and then the cells under evaluation
are those that the computation from scratch is computing at this point. So both return the same
value, come upon the same cell a second time, or fail at the same name.
-/

namespace ReactiveTree

variable {S : Type} {K : Type → Type} {α β : Type}

open Store Told

/-- How a run ends for which the computation from scratch has the given result. If it may not
nest `deep` enough, it may also stop for that. -/
inductive Matches (deep : Prop) :
    Except Obstacle α → EStateM.Result Stop (Tale S K) α → Prop where
  | value (a : α) (w : Tale S K) : Matches deep (.ok a) (.ok a w)
  | cycle (c : CellId) (e : CycleError) (w : Tale S K) :
      Matches deep (.error (.reentered c)) (.error (.cycle e) w)
  | unknown (c : CellId) (w : Tale S K) :
      Matches deep (.error (.unknown c)) (.error (.unknownCell c) w)
  | tooDeep (o : Except Obstacle α) (w : Tale S K) (h : ¬deep) :
      Matches deep o (.error .tooDeep w)

/-- How a read ends. The outermost one turns a cycle into an error. -/
inductive Answers (deep outermost : Prop) : Except Obstacle Value →
    EStateM.Result Stop (Tale S K) (Value × Option CycleError) → Prop where
  | value (v : Value) (w : Tale S K) : Answers deep outermost (.ok v) (.ok (v, none) w)
  | caught (c : CellId) (v : Value) (e : CycleError) (w : Tale S K)
      (h : outermost) : Answers deep outermost (.error (.reentered c)) (.ok (v, some e) w)
  | cycle (c : CellId) (e : CycleError) (w : Tale S K) (h : ¬outermost) :
      Answers deep outermost (.error (.reentered c)) (.error (.cycle e) w)
  | unknown (c : CellId) (w : Tale S K) :
      Answers deep outermost (.error (.unknown c)) (.error (.unknownCell c) w)
  | tooDeep (o : Except Obstacle Value) (w : Tale S K) (h : ¬deep) :
      Answers deep outermost o (.error .tooDeep w)

variable (meaning : {α : Type} → K α → Act S K α)

/-- The limit `depth` on nesting lets each cell be under evaluation once. -/
def Store.Deep (s : Store K) (depth : Nat) : Prop := s.cells.size ≤ depth + s.consumers.length

/-- From `w`, a run with the result `r` has only read cells, and the clean cells are explained. -/
structure Keeps (w : Tale S K)
    (r : EStateM.Result Stop (Tale S K) α) : Prop where
  calm : Calm w (Act.outcome r)
  explained : ∃ rank, Explained meaning rank (Act.outcome r).store (Act.outcome r).past

/-- The run of a formula from `w` keeps step with the computation from scratch. -/
structure InStep (depth : Nat) (act : Act S K α) (w : Tale S K) : Prop
    extends Keeps meaning w (act.tell (Act.toldTo meaning depth) w) where
  agrees : Matches (w.store.Deep depth)
    (act.consult (w.store.recompute meaning w.store.consumers))
    (act.tell (Act.toldTo meaning depth) w)
  yields : ∀ a w', act.tell (Act.toldTo meaning depth) w = .ok a w' →
    ∀ c, w.store.reader = some c → act.Yields (fun x v => (x, v) ∈ w'.past.reads c) a

/-- A read from `w` keeps step with the computation from scratch. -/
structure ReadInStep (depth : Nat) (x : CellId) (w : Tale S K) : Prop
    extends Keeps meaning w (tryGet (Act.toldTo meaning depth) x w) where
  agrees : Answers (w.store.Deep depth) (w.store.consumers = [])
    (w.store.recompute meaning w.store.consumers x) (tryGet (Act.toldTo meaning depth) x w)
  recorded : ∀ v w', tryGet (Act.toldTo meaning depth) x w = .ok (v, none) w' →
    ∀ c, w.store.reader = some c → (x, v) ∈ w'.past.reads c

variable {meaning}
variable {c x : CellId} {depth : Nat} {u w : Tale S K}

theorem Explained.calm {rank : CellId → Nat}
    (he : Explained meaning rank u.store u.past) (h : Calm u w)
    (hreader : ∀ c, u.store.reader = some c → (u.store.cell c).state ≠ .clean)
    (hnew : ∀ c b, (w.store.cell c).state = .clean → (w.store.cell c).rule = some b →
      (u.store.cell c).state = .clean) : Explained meaning rank w.store w.past := by
  refine he.transfer fun c b hst hr => ?_
  have hst' := hnew c b hst hr
  exact ⟨hst', (h.sources.rule c).symm.trans hr, (h.clean c hst').2,
    h.reads c (by simp [hst']) fun hc => hreader c hc hst'⟩

section

variable {w : Tale S K} (hw : Faithful meaning ⟨w.store, w.past, none⟩)

include hw

theorem Faithful.reader_evaluating (hc : w.store.reader = some c) :
    (w.store.cell c).state = .evaluating :=
  (hw.evaluating (mem_consumers_of_reader hc)).1

/-- A stage in which the same cells are clean is explained in the same way. -/
theorem Faithful.keeps {w' : Tale S K} (h : Calm w w')
    (hnew : ∀ c b, (w'.store.cell c).state = .clean → (w'.store.cell c).rule = some b →
      (w.store.cell c).state = .clean) :
    Calm w w' ∧ ∃ rank, Explained meaning rank w'.store w'.past := by
  obtain ⟨rank, he⟩ := hw.explained
  exact ⟨h, rank, he.calm h (fun c hc => by simp [hw.reader_evaluating hc]) hnew⟩

theorem Faithful.recompute_consumers (hx : x < w.store.cells.size)
    (hc : (w.store.cell x).state = .clean ∨ (w.store.cell x).dropped = true) :
    w.store.recompute meaning w.store.consumers x = .ok (w.store.cell x).value := by
  obtain ⟨rank, he⟩ := hw.explained
  exact hw.recompute_clean he hx hc fun d hd => .inr (hw.evaluating hd)

end

/-! ## Reads -/

section

variable {depth : Nat} {x : CellId} {w : Tale S K} (hw : Faithful meaning ⟨w.store, w.past, none⟩)

include hw

theorem readInStep_of_value {v : Value}
    (heq : tryGet (Act.toldTo meaning depth) x w = .ok (v, none) (u.noting (.got x v)))
    (hcalm : Calm w u) (he : ∃ rank, Explained meaning rank u.store u.past)
    (hv : w.store.recompute meaning w.store.consumers x = .ok v) :
    ReadInStep meaning depth x w := by
  have hreader : ∀ c, u.store.reader = some c → (u.store.cell c).state ≠ .clean := fun c hc => by
    rw [hcalm.reader] at hc
    simp [(hcalm.evaluating c (hw.reader_evaluating hc)).1]
  obtain ⟨rank, he⟩ := he
  refine ⟨⟨?_, rank, ?_⟩, ?_, ?_⟩
  · rw [heq]
    exact hcalm.trans (.got u x v)
  · rw [heq]
    exact he.calm (.got u x v) hreader fun _ _ hst _ => hst
  · rw [heq, hv]
    exact .value ..
  · rw [heq]
    rintro _ _ ⟨rfl, rfl⟩ c hc
    rw [Calm.reads_got, if_pos (hcalm.reader.trans hc)]
    exact .head _

theorem Faithful.not_mem_consumers (hst : (w.store.cell x).state = .dirty) :
    x ∉ w.store.consumers := fun hmem => by
  rw [(hw.evaluating hmem).1] at hst
  cases hst

variable (hx : w.store.IsProperty x)

include hx

theorem readInStep_dropped (hd : (w.store.cell x).dropped = true) : ReadInStep meaning depth x w :=
  readInStep_of_value hw (tryGet_of_dropped hd) (.refl w) hw.explained
    (hw.recompute_consumers hx.1 (.inr hd))

theorem Faithful.keeps_track : ∃ rank, Explained meaning rank (w.store.track x) w.past :=
  (hw.keeps (Calm.track hx.1) fun c _ hcl _ => by
    obtain ⟨_, _, hcell⟩ := w.store.track_same hx.1 c
    exact (congrArg Cell.state hcell).symm.trans hcl).2

theorem readInStep_clean (hd : (w.store.cell x).dropped = false)
    (hst : (w.store.cell x).state = .clean) : ReadInStep meaning depth x w :=
  readInStep_of_value hw (tryGet_of_clean hd hst) (.track hx.1) (hw.keeps_track hx)
    (hw.recompute_consumers hx.1 (.inl hst))

theorem readInStep_evaluating (hd : (w.store.cell x).dropped = false)
    (hst : (w.store.cell x).state = .evaluating) : ReadInStep meaning depth x w := by
  have heq : tryGet (Act.toldTo meaning depth) x w = _ := tryGet_of_evaluating hd hst
  have hmem := hw.coherence.sane.evaluating x hst
  refine ⟨⟨?_, ?_⟩, ?_, ?_⟩
  · rw [heq]
    exact (Calm.track hx.1).trans (.note (fun _ => rfl) nofun)
  · obtain ⟨rank, he⟩ := hw.keeps_track hx
    rw [heq]
    exact ⟨rank, he.transfer fun c b hst hr => ⟨hst, hr, rfl, rfl⟩⟩
  · rw [heq, recompute_reentered hx hmem]
    exact .cycle _ _ _ (List.ne_nil_of_mem hmem)
  · rw [heq]
    nofun

theorem readInStep_unbound (hd : (w.store.cell x).dropped = false)
    (hst : (w.store.cell x).state = .dirty) (hb : (w.store.cell x).binding = none) :
    ReadInStep meaning depth x w := by
  have hrule : (w.store.cell x).rule = none := (Cell.rule_of_not_dropped hd).trans hb
  have hstate : ∀ c, ((w.store.track x).cell c).state = (w.store.cell c).state := fun c => by
    obtain ⟨_, _, hcell⟩ := w.store.track_same hx.1 c
    rw [hcell]
  have hcalm := (Calm.track hx.1).trans (Calm.settle ((hstate x).trans hst))
  refine readInStep_of_value hw (tryGet_of_unbound hd hst hb) hcalm ?_
    (recompute_stored hx (hw.not_mem_consumers hst) hrule)
  refine (hw.keeps hcalm fun c b hcl hr => ?_).2
  -- the cell that is newly clean has no rule
  have hcx : c ≠ x := fun hcx => by
    rw [hcalm.sources.rule c, hcx, hrule] at hr
    cases hr
  rw [← hstate c, ← cell_modify_ne hcx]
  exact hcl

theorem Faithful.entering (hd : (w.store.cell x).dropped = false)
    (hst : (w.store.cell x).state = .dirty) {b : Binding K} (hb : (w.store.cell x).binding = some b)
    (hu : u = Told.entering x ⟨w.store.track x, w.host⟩) :
    Faithful meaning ⟨u.store, u.past, none⟩ ∧ SameSources w.store u.store ∧
      u.store.consumers = x :: w.store.consumers := by
  have hstep : Step ⟨w.store, w.past, none⟩ ⟨u.store, u.past, none⟩ := by
    rw [hu]
    exact .beginRead hx hd hst (by simp [hb])
  have hxt : x < (w.store.track x).cells.size := by simpa using hx.1
  have hstore : u.store = (w.store.track x).enter x := by
    rw [hu]
    rfl
  have hother : ∀ c, c ≠ x → u.store.cell c = w.store.cell c := fun c hcx => by
    rw [hstore]
    exact (((w.store.track x).cell_enter hxt c).trans (if_neg hcx)).trans (cell_track_ne hcx)
  obtain ⟨_, _, htrack, -⟩ := w.store.cell_track hx.1
  have hself := ((w.store.track x).cell_enter hxt x).trans (if_pos rfl)
  rw [← hstore, htrack] at hself
  have hsources : SameSources w.store u.store := by
    refine ⟨by simp [hstore], fun c => ?_, fun c => ?_, fun c _ => ?_⟩
    all_goals
      by_cases hcx : c = x
      · simp [hcx, hself, Cell.rule]
      · rw [hother c hcx]
  have hcons : u.store.consumers = x :: w.store.consumers := by
    simp [hstore, Store.consumers]
  refine ⟨⟨hstep.coherence hw.coherence, fun c => ?_, fun c hc => ?_, ?_⟩, hsources, hcons⟩
  · exact (hsources.tracker c).trans (hw.properties c)
  · rw [show Stage.store ⟨u.store, u.past, none⟩ = u.store from rfl] at hc ⊢
    by_cases hcx : c = x
    · rw [hsources.rule, hcx, Cell.rule_of_not_dropped hd, hb, hself]
      exact ⟨rfl, rfl⟩
    · rw [hother c hcx]
      rw [hcons, List.mem_cons] at hc
      exact hw.consumers c (hc.resolve_left hcx)
  · obtain ⟨rank, he⟩ := hw.explained
    refine ⟨rank, he.transfer fun c b' hcl hr => ?_⟩
    have hcx : c ≠ x := fun hcx => by
      rw [hcx, hself] at hcl
      cases hcl
    rw [show Stage.store ⟨u.store, u.past, none⟩ = u.store from rfl, hother c hcx] at hcl hr
    refine ⟨hcl, hr, by rw [hother c hcx], ?_⟩
    rw [hu]
    exact if_neg (Ne.symm hcx)

end

section

variable (meaning) in
/-- Formulas keep step where code may be nested one level less deep than `depth`. -/
def BelowInStep (depth : Nat) : Prop :=
  ∀ d, depth = d + 1 → ∀ (act : Act S K Value), act.Formula →
    ∀ w : Tale S K, Faithful meaning ⟨w.store, w.past, none⟩ →
      (∃ c, w.store.reader = some c) → InStep meaning d act w

variable (hm : ∀ code : K Value, (meaning code).Formula) {depth : Nat}
  (ih : BelowInStep meaning depth) {x : CellId} {w : Tale S K}
  (hw : Faithful meaning ⟨w.store, w.past, none⟩) (hx : w.store.IsProperty x)

include hm ih hw hx

/-- The binding of a dirty cell keeps step with its computation from scratch. -/
theorem compute_inStep (hd : (w.store.cell x).dropped = false)
    (hst : (w.store.cell x).state = .dirty) {b : Binding K} (hb : (w.store.cell x).binding = some b)
    (hu : u = Told.entering x ⟨w.store.track x, w.host⟩) :
    Keeps meaning u (Run.compute (Act.toldTo meaning depth) b u) ∧
      Matches (w.store.Deep depth) (w.store.recompute meaning w.store.consumers x)
        (Run.compute (Act.toldTo meaning depth) b u) ∧
      ∀ v w', Run.compute (Act.toldTo meaning depth) b u = .ok v w' →
        (b.program meaning).Yields (fun y v => (y, v) ∈ w'.past.reads x) v := by
  obtain ⟨hfaith, hsrc, hcons⟩ := hw.entering hx hd hst hb hu
  have hmem := hw.not_mem_consumers hst
  cases depth with
  | zero =>
    have hcomp : Run.compute (Act.toldTo meaning 0) b u = .error .tooDeep u := by cases b <;> rfl
    have hlt : w.store.consumers.length < w.store.cells.size :=
      hw.coherence.sane.length_consumers_lt hx.1 hmem
    rw [hcomp]
    refine ⟨⟨.refl u, hfaith.explained⟩, .tooDeep _ _ fun hdeep => ?_, nofun⟩
    have hle : w.store.cells.size ≤ 0 + w.store.consumers.length := hdeep
    omega
  | succ d =>
    have hcomp : Run.compute (Act.toldTo meaning (d + 1)) b u =
        (b.program meaning).tell (Act.toldTo meaning d) u := by cases b <;> rfl
    have hformula : (b.program meaning).Formula := by
      cases b with
      | follow root => exact .get root
      | code c => exact hm c
    have hreader : u.store.reader = some x := by simp [hu, Told.entering, Store.reader]
    have hin := ih d rfl (b.program meaning) hformula u hfaith ⟨x, hreader⟩
    have hdeep : u.store.Deep d ↔ w.store.Deep (d + 1) := by
      unfold Store.Deep
      rw [hsrc.size, hcons, List.length_cons]
      omega
    have hrule : (w.store.cell x).rule = some b := (Cell.rule_of_not_dropped hd).trans hb
    rw [hcomp, recompute_bound hx hmem hrule, ← hsrc.recompute, ← hcons]
    exact ⟨hin.toKeeps, by simpa only [hdeep] using hin.agrees,
      fun v w' heq => hin.yields v w' heq x hreader⟩

end

section

variable {depth : Nat} {x : CellId} {w : Tale S K}
  (hw : Faithful meaning ⟨w.store, w.past, none⟩) (hx : w.store.IsProperty x)
  (hd : (w.store.cell x).dropped = false) (hst : (w.store.cell x).state = .dirty) {b : Binding K}
  (hb : (w.store.cell x).binding = some b) {u w' : Tale S K}
  (hu : u = Told.entering x ⟨w.store.track x, w.host⟩)

include hw hx hd hst hb hu

/-- The read of a dirty cell has left its evaluation, however that ended. -/
theorem Faithful.calm_evaluated (h : Calm u w') {t : Store K}
    (hsize : t.cells.size = w'.store.cells.size) (hstack : t.stack = w'.store.stack.tail)
    (hother : ∀ d, d ≠ x → t.cell d = w'.store.cell d)
    (hself : ∃ v state, t.cell x = { w'.store.cell x with value := v, state := state })
    (completed : Bool) : Calm w (World.noting (.ended x completed) ⟨t, w'.host⟩) := by
  have hsame : ∀ c, ((w.store.track x).cell c).state = (w.store.cell c).state ∧
      ((w.store.track x).cell c).rule = (w.store.cell c).rule := fun c => by
    obtain ⟨_, _, hcell⟩ := w.store.track_same hx.1 c
    simp [hcell, Cell.rule]
  refine (Calm.track hx.1).trans (Calm.evaluated (by simpa using hx.1) ((hsame x).1.trans hst) ?_
    (fun c hc => ?_) (hu ▸ h) hsize hstack hother hself completed)
  · rw [(hsame x).2, Cell.rule_of_not_dropped hd, hb]
    rfl
  · rw [(hsame c).1, hw.reader_evaluating ((reader_track ..).symm.trans hc)]
    simp

theorem readInStep_completed {v : Value}
    (hr : Run.compute (Act.toldTo meaning depth) b u = .ok v w') (hk : Keeps meaning u (.ok v w'))
    (ho : w.store.recompute meaning w.store.consumers x = .ok v)
    (hy : (b.program meaning).Yields (fun y v => (y, v) ∈ w'.past.reads x) v) :
    ReadInStep meaning depth x w := by
  obtain ⟨hfaith, hsrc, hcons⟩ := hw.entering hx hd hst hb hu
  have hxu : x ∈ u.store.consumers := hcons ▸ .head _
  have hcalm : Calm u w' := hk.calm
  have hreach := (Act.toldTo_flows meaning depth).compute b u hfaith.coherence.sane trivial
  rw [hr] at hreach
  have hcoh := Path.coherence hreach.1.path hfaith.coherence
  -- the cell was not disturbed and still has its binding, so that it keeps the value
  obtain ⟨hev, hquiet⟩ := hcalm.evaluating x (hfaith.evaluating hxu).1
  have hquiet' : (w'.store.cell x).disturbed = false := hquiet.trans (hfaith.consumers x hxu).2
  have hrule : (w'.store.cell x).rule = some b := by
    rw [hcalm.sources.rule, hsrc.rule, Cell.rule_of_not_dropped hd, hb]
  obtain ⟨hnd, hb'⟩ := Cell.rule_eq_some.mp hrule
  have hxlt : x < w'.store.cells.size := by
    rw [hcalm.sources.size, hsrc.size]
    exact hx.1
  have hbind : (w'.store.cell x).bindings = ((w.store.track x).cell x).bindings := by
    have hent := (w.store.track x).cell_enter (by simpa using hx.1) x
    rw [if_pos rfl] at hent
    rw [hcalm.bindings, hu]
    show (((w.store.track x).enter x).cell x).bindings = _
    rw [hent]
  set s := w'.store.keep x ((w.store.track x).cell x).bindings v with hs
  have hkeep : s.cell x = { w'.store.cell x with value := v } := by
    rw [hs, Store.keep, cell_modify_self hxlt]
    simp [hbind, hnd]
  have hself : (s.leave x true).cell x = { w'.store.cell x with value := v, state := .clean } := by
    rw [cell_leave (by simpa [hs, Store.keep] using hxlt), if_pos rfl, hkeep]
    simp [hquiet']
  have hother : ∀ d, d ≠ x → (s.leave x true).cell d = w'.store.cell d := fun d hdx => by
    rw [cell_leave (by simpa [hs, Store.keep] using hxlt), if_neg hdx]
    exact cell_modify_ne hdx _
  have hvalue : ((s.leave x true).cell x).value = v := by rw [hself]
  have heq := tryGet_of_ok hd hst hb (hu ▸ hr) rfl
  rw [show ((leaving x true ⟨s, w'.host⟩).store.cell x).value = v from hvalue] at heq
  refine readInStep_of_value hw heq ?_ ?_ ho
  · exact hw.calm_evaluated hx hd hst hb hu hcalm (by simp [hs, Store.keep])
      (by rw [stack_leave]; rfl) hother ⟨v, .clean, hself⟩ true
  · obtain ⟨rank, he⟩ := hk.explained
    have hsound : Stage.Sound ⟨w'.store, w'.past, none⟩ x :=
      ⟨.inl (by simp [hb']), hnd, .inr ⟨rfl, hev, hquiet'⟩⟩
    have hrule' : ((s.leave x true).cell x).rule = some b := by
      rw [hself]
      exact hrule
    exact Explained.completed he hcoh hev hnd hsound hother hrule' (hvalue.symm ▸ hy)
      fun _ _ => rfl

theorem readInStep_cut {stop : Stop}
    (hr : Run.compute (Act.toldTo meaning depth) b u = .error stop w')
    (hk : Keeps meaning u (.error stop w' : EStateM.Result Stop _ Value))
      (hmatch : Matches (w.store.Deep depth)
        (w.store.recompute meaning w.store.consumers x) (.error stop
          w')) : ReadInStep meaning depth x w := by
  obtain ⟨hfaith, hsrc, hcons⟩ := hw.entering hx hd hst hb hu
  have hcalm : Calm u w' := hk.calm
  have hreach := (Act.toldTo_flows meaning depth).compute b u hfaith.coherence.sane trivial
  rw [hr] at hreach
  have hxlt : x < w'.store.cells.size := by
    rw [hcalm.sources.size, hsrc.size]
    exact hx.1
  have hself : (w'.store.leave x false).cell x = { w'.store.cell x with state := .dirty } := by
    rw [cell_leave hxlt, if_pos rfl]
    rfl
  have hother : ∀ d, d ≠ x → (w'.store.leave x false).cell d = w'.store.cell d := fun d hdx => by
    rw [cell_leave hxlt, if_neg hdx]
  -- the outermost evaluation is the one with nothing below it
  have hactive : (leaving x false w').store.active = w.store.consumers.length := by
    have hact := (Path.sane hreach.1.path hfaith.coherence.sane).active
    show w'.store.active - 1 = _
    rw [show w'.store.active = w'.store.consumers.length from hact, hcalm.consumers, hcons]
    rfl
  have hkeeps : Calm w (leaving x false w') ∧
      ∃ rank, Explained meaning rank (leaving x false w').store (leaving x false w').past := by
    refine ⟨hw.calm_evaluated hx hd hst hb hu hcalm (size_leave ..) (stack_leave ..) hother
      ⟨_, .dirty, hself⟩ false, ?_⟩
    obtain ⟨rank, he⟩ := hk.explained
    refine ⟨rank, he.transfer fun c b' hcl hrule => ?_⟩
    have hcx : c ≠ x := fun hcx => by
      have hdirty : ((leaving x false w').store.cell c).state = .dirty := by
        rw [hcx]
        exact congrArg Cell.state hself
      rw [hdirty] at hcl
      cases hcl
    have hcell : (leaving x false w').store.cell c = w'.store.cell c := hother c hcx
    rw [hcell] at hcl hrule ⊢
    exact ⟨hcl, hrule, rfl, rfl⟩
  generalize ho : w.store.recompute meaning w.store.consumers x = o at hmatch
  rcases tryGet_of_error hd hst hb (hu ▸ hr) with ⟨e, rfl, hact, heq⟩ | ⟨hact, heq⟩
  · have hnil : w.store.consumers = [] := List.length_eq_zero_iff.mp (hactive.symm.trans hact)
    refine ⟨⟨heq ▸ hkeeps.1, heq ▸ hkeeps.2⟩, ?_, ?_⟩
    · rw [heq, ho]
      cases hmatch
      exact .caught _ _ _ _ hnil
    · rw [heq]
      rintro _ _ ⟨⟩
  · refine ⟨⟨heq ▸ hkeeps.1, heq ▸ hkeeps.2⟩, ?_, ?_⟩
    · rw [heq, ho]
      cases hmatch with
      | cycle c e => exact .cycle _ _ _ fun hnil => hact e rfl (hactive.trans (by rw [hnil]; rfl))
      | unknown c => exact .unknown ..
      | tooDeep _ _ h => exact .tooDeep _ _ h
    · rw [heq]
      nofun

end

/-! ## Formulas -/

section

variable (hm : ∀ code : K Value, (meaning code).Formula)

include hm

theorem readInStep_of_below (ih : BelowInStep meaning depth)
    (hw : Faithful meaning ⟨w.store, w.past, none⟩)
    (hx : w.store.IsProperty x) : ReadInStep meaning depth x w := by
  cases hd : (w.store.cell x).dropped with
  | true => exact readInStep_dropped hw hx hd
  | false =>
    cases hst : (w.store.cell x).state with
    | clean => exact readInStep_clean hw hx hd hst
    | evaluating => exact readInStep_evaluating hw hx hd hst
    | dirty =>
      cases hb : (w.store.cell x).binding with
      | none => exact readInStep_unbound hw hx hd hst hb
      | some b =>
        obtain ⟨u, hu⟩ : ∃ u, u = Told.entering x ⟨w.store.track x, w.host⟩ := ⟨_, rfl⟩
        obtain ⟨hk, hmatch, hy⟩ := compute_inStep hm ih hw hx hd hst hb hu
        cases hr : Run.compute (Act.toldTo meaning depth) b u with
        | ok v w' =>
          rw [hr] at hk hmatch
          generalize ho : w.store.recompute meaning w.store.consumers x = o at hmatch
          cases hmatch
          exact readInStep_completed hw hx hd hst hb hu hr hk ho (hy v w' hr)
        | error stop w' =>
          rw [hr] at hk hmatch
          exact readInStep_cut hw hx hd hst hb hu hr hk hmatch

omit hm in
theorem Faithful.control (hw : Faithful meaning ⟨w.store, w.past, none⟩) :
    Faithful meaning ⟨w.beat.store, w.beat.past, none⟩ := by
  obtain ⟨rank, he⟩ := hw.explained
  exact ⟨Step.control.coherence hw.coherence, hw.properties, hw.consumers, rank,
    he.transfer fun _ _ hst hr => ⟨hst, hr, rfl, rfl⟩⟩

omit hm in
theorem Calm.control (hc : w.store.reader = some c) : Calm w w.beat :=
  .note (fun _ => rfl) fun _ => List.ne_nil_of_mem (mem_consumers_of_reader hc)

omit hm in
theorem InStep.of_error {act : Act S K α} {w' : Tale S K}
    {stop : Stop} (htell : act.tell (Act.toldTo meaning depth) w = .error stop w')
    (hcalm : Calm w w') (he : ∃ rank, Explained meaning rank w'.store w'.past)
    (hmatch : Matches (w.store.Deep depth)
      (act.consult (w.store.recompute meaning w.store.consumers)) (.error stop w')) :
    InStep meaning depth act w := by
  refine ⟨⟨?_, ?_⟩, ?_, ?_⟩
  · rwa [htell]
  · rwa [htell]
  · rwa [htell]
  · rw [htell]
    nofun

theorem get_inStep (ih : BelowInStep meaning depth) (x : CellId)
    (hw : Faithful meaning ⟨w.store, w.past, none⟩)
    (hc : w.store.reader = some c) : InStep meaning depth (.get x) w := by
  have hw1 := hw.control
  have hcalm := Calm.control hc
  have hcons : w.store.consumers ≠ [] := List.ne_nil_of_mem (mem_consumers_of_reader hc)
  have htell : (Act.get x : Act S K Value).tell (Act.toldTo meaning depth) w =
      if w.store.IsProperty x then Told.get (Act.toldTo meaning depth) x w.beat
      else .error (.unknownCell x) w.beat := Run.onProperty_eq ..
  by_cases hx : w.store.IsProperty x
  · have hread := readInStep_of_below hm ih hw1 hx
    have hagrees := hread.agrees
    have hrecorded := hread.recorded
    have hk := hread.toKeeps
    rw [if_pos hx] at htell
    have hget : Told.get (Act.toldTo meaning depth) x w.beat =
        EStateM.bind (tryGet (Act.toldTo meaning depth) x) _ w.beat := rfl
    unfold EStateM.bind at hget
    rw [hget] at htell
    generalize tryGet (Act.toldTo meaning depth) x w.beat = r at hagrees hrecorded hk htell
    generalize ho : w.beat.store.recompute meaning w.beat.store.consumers x = o
      at hagrees
    have hask : (Act.get x : Act S K Value).consult (w.store.recompute meaning w.store.consumers)
      = o := ho
    cases hagrees with
    | value v w' =>
      refine ⟨⟨htell ▸ hcalm.trans hk.calm, htell ▸ hk.explained⟩, ?_, ?_⟩
      · rw [htell, hask]
        exact .value ..
      · rw [htell]
        rintro _ _ ⟨rfl, rfl⟩ d hd
        exact .get (hrecorded v w' rfl d hd)
    | caught _ _ _ _ h => exact absurd h hcons
    | cycle d e w' => exact .of_error htell (hcalm.trans hk.calm) hk.explained (hask ▸
      .cycle d e w')
    | unknown d w' => exact .of_error htell (hcalm.trans hk.calm) hk.explained (hask ▸
      .unknown d w')
    | tooDeep _ w' h =>
      exact .of_error htell (hcalm.trans hk.calm) hk.explained (.tooDeep _ w' h)
  · rw [if_neg hx] at htell
    refine .of_error htell hcalm hw1.explained ?_
    rw [Act.consult, recompute_unknown hx]
    exact .unknown ..

theorem formula_inStep (ih : BelowInStep meaning depth) {act : Act S K α} (hf : act.Formula)
    (hw : Faithful meaning ⟨w.store, w.past, none⟩) (hc : w.store.reader = some c) :
    InStep meaning depth act w := by
  induction hf generalizing w with
  | pure a =>
    refine ⟨⟨.control hc, hw.control.explained⟩, .value .., ?_⟩
    rintro _ _ ⟨rfl, rfl⟩ _ _
    exact .pure a
  | get x => exact get_inStep hm ih x hw hc
  | @bind α β x f hx hf ihx ihf =>
    have hxw := ihx hw hc
    have hreach := Act.tell_flows (Act.toldTo_flows meaning depth) x w hw.coherence.sane trivial
    have hbind : (Act.bind x f).tell (Act.toldTo meaning depth) w =
        match x.tell (Act.toldTo meaning depth) w with
        | .ok a w' => (f a).tell (Act.toldTo meaning depth) w'
        | .error stop w' => .error stop w' := by
      rw [Act.tell]
      rfl
    have hask : (Act.bind x f).consult (w.store.recompute meaning w.store.consumers) = _ :=
      Act.consult.eq_2 ..
    obtain ⟨⟨hcalm, he⟩, hagrees, hyields⟩ := hxw
    generalize x.tell (Act.toldTo meaning depth) w = r at hcalm he hagrees hyields hreach hbind
    generalize x.consult (w.store.recompute meaning w.store.consumers) = o at hagrees hask
    cases hagrees with
    | value a w' =>
      have hcalm : Calm w w' := hcalm
      have hw' := hw.calm hcalm (Path.coherence hreach.1.path hw.coherence) he
      have hfw := ihf a hw' (hcalm.reader.trans hc)
      have hbind : (Act.bind x f).tell (Act.toldTo meaning depth) w =
        (f a).tell (Act.toldTo meaning depth) w' := hbind
      have hdeep : w'.store.Deep depth ↔ w.store.Deep depth := by
        rw [Store.Deep, Store.Deep, hcalm.sources.size, hcalm.consumers]
      refine ⟨⟨hbind ▸ hcalm.trans hfw.calm, hbind ▸ hfw.explained⟩, ?_, ?_⟩
      · rw [hbind, hask, ← hcalm.sources.recompute, ← hcalm.consumers]
        simpa only [hdeep] using hfw.agrees
      · rw [hbind]
        intro b w'' hb d hd
        have hmore := hfw.calm.more d (hcalm.reader.trans hd)
        rw [hb] at hmore
        exact .bind ((hyields a w' rfl d hd).mono fun y v hyv => hmore hyv)
          (hfw.yields b w'' hb d (hcalm.reader.trans hd))
    | cycle d e w' => exact .of_error hbind hcalm he (hask ▸ .cycle d e w')
    | unknown d w' => exact .of_error hbind hcalm he (hask ▸ .unknown d w')
    | tooDeep _ w' h => exact .of_error hbind hcalm he (.tooDeep _ w' h)

theorem belowInStep (depth : Nat) : BelowInStep meaning depth := by
  induction depth with
  | zero => nofun
  | succ depth ih =>
    rintro d hd act hf w hw ⟨c, hc⟩
    cases hd
    exact formula_inStep hm ih hf hw hc

/-- Every read of a property keeps step with the computation from scratch. -/
theorem readInStep (depth : Nat)
    (hw : Faithful meaning ⟨w.store, w.past, none⟩) (hx : w.store.IsProperty x) :
    ReadInStep meaning depth x w :=
  readInStep_of_below hm (belowInStep hm depth) hw hx

end

end ReactiveTree
