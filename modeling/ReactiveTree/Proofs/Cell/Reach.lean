import ReactiveTree.Proofs.Cell.Unwinding
import ReactiveTree.Proofs.Cell.Upstream

/-!
# What a write reaches

A write marks the cells that depend on the one written before it runs any observer. Marking passes
by a cell that is dirty already, so what it reaches is what can be reached along live edges through
clean cells.
-/

namespace ReactiveTree

variable {S : Type} {K : Type → Type}

namespace Store

variable {s t : Store K} {p d : CellId} {v : Value}

/-- From `s` to `t` the value `v` was written to `p` and what depends on it was marked. -/
structure Marked (s t : Store K) (p : CellId) (v : Value) : Prop where
  value : (t.cell p).value = v
  binding : (t.cell p).binding = none
  /-- Nothing was evaluated. -/
  evaluations : t.evaluations = s.evaluations
  dirty : ∀ d, d ≠ p → ((t.cell d).state = .dirty ↔ (s.cell d).state = .dirty ∨ s.Touched p d)
  touched : ∀ d, d ≠ p → s.Touched p d → (s.cell d).state = .clean ∧
    t.cell d = { s.cell d with state := .dirty, dependents := [], room := 0 }
  apart : ∀ d, ¬s.Touched p d → t.cell d = s.cell d

/-- What a write to a property does that stores its value itself, while nothing is being
evaluated. -/
structure WritesReach (s : Store K) (p : CellId) (v : Value) : Prop where
  /-- Observers run when all is marked. -/
  changed : (s.cell p).value.same v = false → ∃ t cells, s.Marked t p v ∧
    ∀ {S : Type} (nested : Nested S K) (host : S),
      Run.set nested p v ⟨s, host⟩ = Run.notify nested cells ⟨t, host⟩
  same : (s.cell p).value.same v = true → (s.cell p).binding = none →
    ∀ {S : Type} (nested : Nested S K) (host : S), Run.set nested p v ⟨s, host⟩ = .ok () ⟨s, host⟩

theorem Sane.state_of_fresh (hs : s.Sane) (h0 : s.active = 0) (h : (s.cell d).Fresh) :
    (s.cell d).state = .clean := by
  rcases h with h | ⟨h, -⟩
  · exact h
  · have hmem := hs.evaluating d h
    rw [List.length_eq_zero_iff.mp (hs.active.symm.trans h0)] at hmem
    cases hmem

theorem Sane.writesReach (hs : s.Sane) (h0 : s.active = 0) (hp : s.IsProperty p)
    (hd : (s.cell p).dropped = false) (hpartner : (s.cell p).partner = none) (v : Value) :
    s.WritesReach p v := by
  have hset := fun {S : Type} (nested : Nested S K) (host : S) =>
    Told.set_told nested v (w := ⟨s, host⟩) hd
  simp only [linkRoot_of_partner hpartner] at hset
  have hvalue : ∀ t, t = (if (s.cell p).binding.isSome then s.detach p else s) →
      (t.cell p).value = (s.cell p).value := by
    rintro t rfl
    split
    · exact proj_modify Cell.value (fun _ => by rfl) s p p
    · rfl
  refine ⟨fun hne => ?_, fun hsame hb => ?_⟩
  · obtain ⟨hr, hb, -, hv⟩ := ripple_written hs.arena hp.1 v
    have hsome : (s.toldOfWrite p v).isSome = true := by
      simp [toldOfWrite, hvalue _ rfl, hne]
    obtain ⟨cells, hcells⟩ := Option.isSome_iff_exists.mp hsome
    have hmem : ∀ d, d ∈ (s.toldOfWrite p v).getD [] ↔ s.Touched p d := fun d =>
      (mem_toldOfWrite hs.arena hp.1 v).trans (and_iff_right hsome)
    have htouched : ∀ d, d ≠ p → s.Touched p d → (s.cell d).state = .clean ∧
        (s.written p v).cell d =
          { s.cell d with state := .dirty, dependents := [], room := 0 } := by
      intro d hdp h
      have hclean := hs.state_of_fresh h0 (h.fresh hdp)
      rw [cell_written hs.arena hp.1 v hdp, if_pos ((hmem d).mpr h)]
      exact ⟨hclean, by simp [Cell.spoil, Cell.clear, hclean]⟩
    have hapart : ∀ d, d ≠ p → ¬s.Touched p d → (s.written p v).cell d = s.cell d :=
      fun d hdp h => by
      rw [cell_written hs.arena hp.1 v hdp, if_neg fun hm => h ((hmem d).mp hm)]
    refine ⟨s.written p v, cells, ⟨by simp [hv, hne], hb, hr.around.evaluations, fun d hdp => ?_,
      htouched, fun d h => hapart d (fun hdp => h (hdp ▸ .refl)) h⟩, fun nested host => ?_⟩
    · by_cases h : s.Touched p d
      · simp [(htouched d hdp h).2, h]
      · simp [hapart d hdp h, h]
    · rw [hset, hcells]
  · intro S nested host
    rw [hset]
    unfold toldOfWrite Store.written
    simp [hb, hsame]

end Store

open Store

/-- In every session of every program, a write that changes a value marks exactly what it reaches
through clean cells, and an equal one does nothing, whenever code of others has control and nothing
is being evaluated, and when the session is over. -/
theorem session_writes_reach (meaning : {α : Type} → K α → Act S K α) (depth : Nat) (reports : Bool)
    (host : S) (acts : List (Act S K Unit)) :
    let told := Act.toldSession meaning depth acts ⟨{ reports }, host, []⟩
    told.untold = Act.session meaning depth acts ⟨{ reports }, host⟩ ∧
      ∀ s, s = told.store ∨ (∃ m ∈ told.past, m.event = .control ∧ m.store = s) → s.active = 0 →
        ∀ p v, s.IsProperty p → (s.cell p).dropped = false → (s.cell p).partner = none →
          s.WritesReach p v := by
  obtain ⟨hs, hms⟩ := toldSession_sane meaning depth reports host acts
  refine ⟨Act.untold_toldSession ..,
    fun s hstate h0 p v hp hd hpartner => ?_⟩
  rcases hstate with rfl | ⟨m, hm, hctl, rfl⟩
  · exact hs.writesReach h0 hp hd hpartner v
  · exact (hms m hm hctl).writesReach h0 hp hd hpartner v

/-! ## A clean cell behind a dirty one -/

/-- The code of two bindings: of cell 1, which reads cell 0 and fails, and of cell 2, which writes
its own cell and then reads cell 1. -/
inductive Stubborn : Type → Type where
  | fails : Stubborn Value
  | overwrites : Stubborn Value

def Stubborn.meaning {α : Type} : Stubborn α → Act Unit Stubborn α
  | .fails => .bind (.get 0) fun _ => .panic "boom"
  | .overwrites => .bind (.set 2 (.int 5)) fun _ => .get 1

/-- The session, with one more program at its end. -/
def Stubborn.store (last : List (Act Unit Stubborn Unit)) : Store Stubborn :=
  (Act.session Stubborn.meaning 4
    ([.bind (.new "p" (.int 1)) fun _ => .pure (), .bind (.newBound "x" .fails) fun _ => .pure (),
      .bind (.newBound "d" .overwrites) fun _ => .pure (), .bind (.get 2) fun _ => .pure (),
      .bind (.get 2) fun _ => .pure ()] ++ last) ⟨{}, ()⟩).store

/-- A write does not reach a clean cell that can be reached along live edges through a dirty one
only. -/
theorem clean_behind_dirty :
    (Stubborn.store []).Upstream 0 2 ∧ ((Stubborn.store []).cell 1).state = .dirty ∧
      ((Stubborn.store [.set 0 (.int 2)]).cell 2).state = .clean := by
  have h : (Stubborn.store []).Feeds 0 1 ∧ (Stubborn.store []).Feeds 1 2 ∧
      ((Stubborn.store []).cell 1).state = .dirty ∧
      ((Stubborn.store [.set 0 (.int 2)]).cell 2).state = .clean := by
    decide +kernel
  exact ⟨.tail (.single h.1) h.2.1, h.2.2⟩

end ReactiveTree
