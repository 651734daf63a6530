import ReactiveTree.Proofs.Cell.Regime
import ReactiveTree.Proofs.Cell.Unwinding
import ReactiveTree.Proofs.Cell.UpToDate

/-!
# Work that only reads

A program that reads cells and leaves messages does the same again when it is given the same
answers. Run under a consumer, it returns what follows from the answers that the chronicle keeps
for that consumer (`Act.Reading.answered`). As long as these are still good it would return the
same value now (`Act.Answered.again`).
-/

namespace ReactiveTree

variable {S : Type} {K : Type → Type} {α : Type}

open Store Told

namespace Act

/-- A program that reads cells and leaves messages. What it has read may decide what it does
next. -/
inductive Reading : {α : Type} → Act S K α → Prop where
  | pure {α : Type} (a : α) : Reading (.pure a)
  | bind {α β : Type} {x : Act S K α} {f : α → Act S K β} (hx : Reading x)
      (hf : ∀ a, Reading (f a)) : Reading (.bind x f)
  | get (c : CellId) : Reading (.get c)
  | record (e : Entry) : Reading (.record e)

/-- A program whose reads were answered by `answer` returned a value. -/
inductive Answered (answer : CellId → Value → Prop) : {α : Type} → Act S K α → α → Prop where
  | pure {α : Type} (a : α) : Answered answer (.pure a) a
  | bind {α β : Type} {x : Act S K α} {f : α → Act S K β} {a : α} {b : β}
      (hx : Answered answer x a) (hf : Answered answer (f a) b) : Answered answer (.bind x f) b
  | get {c : CellId} {v : Value} (h : answer c v) : Answered answer (.get c) v
  | record (e : Entry) : Answered answer (.record e) ()

theorem Answered.mono {answer answer' : CellId → Value → Prop} {act : Act S K α} {a : α}
    (h : Answered answer act a) (himp : ∀ c v, answer c v → answer' c v) :
    Answered answer' act a := by
  induction h with
  | pure a => exact .pure a
  | bind _ _ ihx ihf => exact .bind ihx ihf
  | get h => exact .get (himp _ _ h)
  | record e => exact .record e

end Act

/-! ## Reads under a consumer -/

theorem Step.reads_subset {k k' : Stage K} (step : Step k k') (hs : k.store.Sane) {t : CellId}
    (ht : t ∈ k.store.consumers) : k.past.reads t ⊆ k'.past.reads t := by
  have hgot : ∀ (x : CellId) (v : Value) (s : Store K) (past : Chronicle K),
      past.reads t ⊆ Chronicle.reads t (⟨.got x v, s⟩ :: past) := by
    intro x v s past
    simp only [Chronicle.reads]
    split
    · exact List.subset_cons_self ..
    · exact List.Subset.refl _
  have hbegan : ∀ {c : CellId} {s : Store K} {past : Chronicle K}, c ≠ t →
      past.reads t ⊆ Chronicle.reads t (⟨.began c, s⟩ :: past) := by
    intro c s past hne
    simp [Chronicle.reads, hne]
  -- no evaluation of `t` begins while one is in progress
  have hbusy : ∀ c, (k.store.cell c).dropped = false → (k.store.cell c).state ≠ .evaluating →
    c ≠ t := by
    rintro c hd hst rfl
    rcases (hs.consumer c ht).2 with ⟨-, hst', -⟩ | ⟨hd', -⟩
    · exact hst hst'
    · rw [hd] at hd'
      cases hd'
  cases step with
  | readDropped | readClean | readUnbound => exact hgot ..
  | @finishRead s u past c => exact hgot c _ u (⟨.ended c true, u⟩ :: past)
  | beginRead h hd hst hb => exact hbegan (hbusy _ hd (by simp [hst]))
  | beginWork h hd hst => exact hbegan (hbusy _ hd hst)
  | control | wrote | refuseRead | refuseWork | finishWork | abort | caught | record | observe
  | unobserve | add | shelter | unshelter | fail | resume | write | rebind | pair | drop | forget =>
    exact List.Subset.refl _

theorem PathOver.reads_subset {base : List (Option CellId)} {k k' : Stage K}
    (path : PathOver base k k') (hs : k.store.Sane) {t : CellId} (hk : base <:+ k.store.stack)
    (ht : some t ∈ base) : k.past.reads t ⊆ k'.past.reads t := by
  suffices h : base <:+ k'.store.stack ∧ k.past.reads t ⊆ k'.past.reads t from h.2
  induction path with
  | refl => exact ⟨hk, List.Subset.refl _⟩
  | tail path step ih =>
    refine ⟨step.2, List.Subset.trans ih.2
      (step.1.reads_subset (Path.sane (PathOver.path path) hs) ?_)⟩
    exact mem_consumers.mpr (ih.1.subset ht)

theorem Store.Level.reader {s t : Store K} (h : Level s t) : t.reader = s.reader := by
  rw [Store.reader, Store.reader, h.stack]

section

variable {nested : Nested (S × Chronicle K) K} {w w' : Tale S K} {t : CellId}

/-- A read that a consumer waits for is answered in the chronicle, or stops. -/
theorem Told.get_of_ok (hN : NestedFlows nested) (hs : w.store.Sane) (hr : w.store.reader = some t)
    {c : CellId} (hc : w.store.IsProperty c) {v : Value} (h : Told.get nested c w = .ok v w') :
    ∃ past, w'.past = ⟨.got c v, w'.store⟩ :: past := by
  rw [get_eq] at h
  have hlevel := hN.tryGet c w hs hc
  cases hd : (w.store.cell c).dropped with
  | true =>
    rw [tryGet_of_dropped hd] at h
    cases h
    exact ⟨w.past, rfl⟩
  | false =>
    cases hst : (w.store.cell c).state with
    | clean =>
      rw [tryGet_of_clean hd hst] at h
      cases h
      exact ⟨w.past, rfl⟩
    | evaluating =>
      rw [tryGet_of_evaluating hd hst] at h
      cases h
    | dirty =>
      cases hb : (w.store.cell c).binding with
      | none =>
        rw [tryGet_of_unbound hd hst hb] at h
        cases h
        exact ⟨w.past, rfl⟩
      | some b =>
        cases hcompute : Run.compute nested b (entering c ⟨w.store.track c, w.host⟩) with
        | ok v' u =>
          rw [tryGet_of_ok hd hst hb hcompute rfl] at h
          cases h
          exact ⟨_, rfl⟩
        | error stop u =>
          rcases tryGet_of_error hd hst hb hcompute with ⟨e, -, hactive, heq⟩ | ⟨-, heq⟩
          · -- the consumer is under evaluation, so this one is not the outermost
            rw [heq] at hlevel
            have hactive' := hlevel.2.active
            rw [hactive, hs.active] at hactive'
            have hmem := mem_consumers_of_reader hr
            rw [List.eq_nil_of_length_eq_zero hactive'.symm] at hmem
            cases hmem
          · rw [heq] at h
            cases h

/-- What a reading program returns follows from the answers in the chronicle. -/
theorem Act.Reading.answered (hN : NestedFlows nested) {act : Act S K α} (hact : act.Reading)
    (hs : w.store.Sane) (hr : w.store.reader = some t) {a : α} (h : act.tell nested w = .ok a w') :
    act.Answered (fun c v => (c, v) ∈ w'.past.reads t) a := by
  induction hact generalizing w w' with
  | pure a =>
    cases h
    exact .pure a
  | @bind α β x f hx hf ihx ihf =>
    obtain ⟨b, u, hxu, hfu⟩ := Act.of_tell_bind h
    have hpath := tell_flows hN x w hs trivial
    rw [hxu] at hpath
    have hsu := Path.sane hpath.1.path hs
    have hru : u.store.reader = some t := hpath.2.reader.trans hr
    have hpath' := tell_flows hN (f b) u hsu trivial
    rw [hfu] at hpath'
    have hmem : some t ∈ u.store.stack := mem_consumers.mp (mem_consumers_of_reader hru)
    have hsub := hpath'.1.reads_subset hsu List.suffix_rfl hmem
    exact .bind ((ihx hs hr hxu).mono fun _ _ h => hsub h) (ihf b hsu hru hfu)
  | get c =>
    have htell : (Act.get c).tell nested w = if w.store.IsProperty c
        then Told.get nested c w.beat
        else .error (.unknownCell c) w.beat := Run.onProperty_eq ..
    have hlevel := tell_flows hN (.get c) w hs trivial
    rw [h] at hlevel
    rw [htell] at h
    split at h
    · rename_i hc
      obtain ⟨past, hpast⟩ := Told.get_of_ok hN (w := w.beat) hs hr hc h
      have hr' : w'.store.reader = some t := hlevel.2.reader.trans hr
      refine .get ?_
      rw [hpast]
      simp [Chronicle.reads, hr']
    · cases h
  | record e =>
    cases h
    exact .record e

end

/-! ## Doing it again -/

/-- A read from outside of a cell that is clean or dropped returns its value and changes
nothing. -/
theorem Run.get_of_settled {nested : Nested S K} {w : World S K} {c : CellId}
    (hf : w.store.consumers = [])
    (hc : (w.store.cell c).state = .clean ∨ (w.store.cell c).dropped = true) :
    Run.get nested c w = .ok (w.store.cell c).value w := by
  have htry : Run.tryGet nested c w = .ok ((w.store.cell c).value, none) w := by
    have hview (f : Cell K → Run S K (Value × Option CycleError)) :
        ((Run.view fun s => s.cell c) >>= f) w = f (w.store.cell c) w := rfl
    rw [Run.tryGet, hview]
    split
    · rfl
    · rename_i hd
      rw [hc.resolve_right hd]
      show (pure _ : Run S K _) ⟨w.store.track c, w.host⟩ = _
      rw [track_of_rest hf]
      rfl
  show EStateM.bind (Run.tryGet nested c) _ w = _
  unfold EStateM.bind
  rw [htry]
  rfl

/-- Where every answer is still good, a program returns what it returned before. -/
theorem Act.Answered.again {nested : Nested S K} {answer : CellId → Value → Prop} {act : Act S K α}
    {a b : α} {w w' : World S K} (h : act.Answered answer a) (hf : w.store.frames = [])
    (hgood : ∀ c v, answer c v → ((w.store.cell c).state = .clean ∨
      (w.store.cell c).dropped = true) ∧ (w.store.cell c).value = v)
        (hr : act.interpret nested w = .ok b w') :
    b = a ∧ w'.store.frames = [] ∧ w'.store.cells = w.store.cells := by
  induction h generalizing w w' with
  | pure a =>
    cases hr
    exact ⟨rfl, hf, rfl⟩
  | @bind α β x f a c _ _ ihx ihf =>
    simp only [Act.interpret] at hr
    cases hx : x.interpret nested w with
    | ok a' u =>
      rw [hx] at hr
      obtain ⟨rfl, hfu, hcells⟩ := ihx hf hgood hx
      have hsame : ∀ d, u.store.cell d = w.store.cell d := fun d => by rw [cell, cell, hcells]
      obtain ⟨hb, hfw, hcells'⟩ := ihf hfu (fun d v hd => by rw [hsame]; exact hgood d v hd) hr
      exact ⟨hb, hfw, hcells'.trans hcells⟩
    | error stop u =>
      rw [hx] at hr
      cases hr
  | @get c v hc =>
    obtain ⟨hsettled, hv⟩ := hgood c v hc
    have hread : (Act.get c).interpret nested w = if w.store.IsProperty c
        then Run.get nested c w else .error (.unknownCell c) w := Run.onProperty_eq ..
    rw [hread, Run.get_of_settled (by simp [consumers, stack, hf]) hsettled] at hr
    split at hr
    · cases hr
      exact ⟨hv, hf, rfl⟩
    · cases hr
  | record e =>
    cases hr
    exact ⟨rfl, hf, rfl⟩

end ReactiveTree
