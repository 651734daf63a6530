import ReactiveTree.Proofs.Cell.Coherence

/-!
# Clean cells are up to date

In every session, whenever code of others has control and when the session is over: what a
clean cell read in its latest evaluation is clean or dropped and has the value that was
read, and no dirty cell has an edge to a clean consumer, unless that consumer has lost its
binding to a write.
-/

namespace ReactiveTree

variable {S : Type} {K : Type → Type}

open Store

/-- What code that looks at the cells of `s` can rely on, when `past` is what has happened. -/
structure Coherent (s : Store K) (past : Chronicle K) : Prop where
  upToDate : ∀ c, (s.cell c).Computed → (s.cell c).state = .clean → (s.cell c).dropped = false →
    ∀ x v, (x, v) ∈ past.reads c →
      ((s.cell x).state = .clean ∨ (s.cell x).dropped = true) ∧ (s.cell x).value = v
  dependents : ∀ x d, ∀ e ∈ (s.cell x).dependents, (s.cell x).state = .dirty →
    s.consumer? e = some d → (s.cell d).Computed → (s.cell d).state ≠ .clean

theorem Coherence.coherent {k : Stage K} (h : Coherence [] k) : Coherent k.store k.past := by
  constructor
  · intro c hk hst hd x v hx
    obtain ⟨-, hv, hcase⟩ := h.upheld c ⟨hk, hd, .inl hst⟩ x v hx
    exact ⟨hcase.symm.imp (fun h => h.1) id, hv⟩
  · intro x d e he hdirty hcons hk hst
    obtain ⟨hslot, rfl⟩ := h.sane.arena.consumer?_eq_some.mp hcons
    have hdr : (k.store.cell d).dropped = false := Bool.eq_false_iff.mpr fun hdr => by
      rw [(h.sane.dropped d hdr).1] at hslot
      cases hslot
    have hsound : k.Sound d := ⟨hk, hdr, .inl hst⟩
    rcases h.live x d hsound he with ⟨v, hv⟩ | hadj
    · obtain ⟨-, -, hdx | ⟨hcl, -⟩⟩ := h.upheld d hsound x v hv
      · rw [h.sane.not_dropped_of_mem he] at hdx
        cases hdx
      · rw [hdirty] at hcl
        cases hcl
    · exact h.sane.not_mem_consumers hdr (by simp [hst]) (mem_consumers.mpr hadj.mem.2)

/-- At every moment in which code of others had control, the store was coherent. -/
def Chronicle.Coherent : Chronicle K → Prop
  | [] => True
  | m :: past => (m.event = .control → ReactiveTree.Coherent m.store past) ∧ Chronicle.Coherent past

theorem Step.chronicle {k k' : Stage K} (step : Step k k') (h : Coherence [] k)
    (hpast : k.past.Coherent) : k'.past.Coherent := by
  cases step with
  | control => exact ⟨fun _ => h.coherent, hpast⟩
  | finishRead => exact ⟨nofun, nofun, hpast⟩
  | wrote | readDropped | readClean | readUnbound | beginRead | beginWork | refuseRead | refuseWork
  | finishWork | abort | caught | shelter | unshelter => exact ⟨nofun, hpast⟩
  | record | observe | unobserve | add | fail | resume | write | rebind | pair | drop | forget =>
    exact hpast

theorem Path.chronicle {k k' : Stage K} (path : Path k k') (h : Coherence [] k)
    (hpast : k.past.Coherent) : k'.past.Coherent := by
  induction path with
  | refl => exact hpast
  | tail path step ih => exact step.chronicle (Path.coherence path h) ih

theorem coherence_start (reports : Bool) : Coherence [] (⟨{ reports }, [], none⟩ : Stage K) := by
  have hcell : ∀ c, ({ reports } : Store K).cell c = {} := fun c => cell_of_size_le (Nat.zero_le _)
  refine ⟨sane_empty reports, nofun, fun _ _ _ h => h.elim, nofun, fun x d _ he => ?_⟩
  simp only [hcell] at he
  cases he

/-- In every session of every program, clean cells are up to date whenever code of others has
control and when the session is over. -/
theorem session_coherent (meaning : {α : Type} → K α → Act S K α) (depth : Nat) (reports : Bool)
    (host : S) (acts : List (Act S K Unit)) :
    let told := Act.toldSession meaning depth acts ⟨{ reports }, host, []⟩
    told.untold = Act.session meaning depth acts ⟨{ reports }, host⟩ ∧
      Coherent told.store told.past ∧ told.past.Coherent := by
  obtain ⟨hpath, -⟩ := Act.toldSession_path meaning depth acts
    (w := ⟨{ reports }, host, []⟩) (sane_empty reports) rfl
  refine ⟨Act.untold_toldSession .., ?_, ?_⟩
  · exact (Path.coherence hpath (coherence_start reports)).coherent
  · exact Path.chronicle hpath (coherence_start reports) trivial

/-! ## A consumer that lost its binding -/

/-- The code of two bindings: of cell 0, which fails, and of cell 1, which writes its own cell
and then reads cell 0. -/
inductive Overwriting : Type → Type where
  | fails : Overwriting Value
  | overwrites : Overwriting Value

def Overwriting.meaning {α : Type} : Overwriting α → Act Unit Overwriting α
  | .fails => .panic "boom"
  | .overwrites => .bind (.set 1 (.int 5)) fun _ => .get 0

/-- Cell 1 is read twice. Its binding is gone after the first read, which fails. -/
def Overwriting.session : World Unit Overwriting :=
  Act.session Overwriting.meaning 4
    [.bind (.newBound "x" .fails) fun _ => .pure (),
      .bind (.newBound "d" .overwrites) fun _ => .pure (),
      .bind (.get 1) fun _ => .pure (), .bind (.get 1) fun _ => .pure ()]
    ⟨{}, ()⟩

/-- A dirty cell can have a live edge to a clean consumer that has no binding. -/
theorem dirty_with_clean_dependent :
    (Overwriting.session.store.cell 0).state = .dirty ∧
      (Overwriting.session.store.cell 0).dependents.map Overwriting.session.store.consumer? =
      [some 1] ∧ (Overwriting.session.store.cell 1).state = .clean ∧
      (Overwriting.session.store.cell 1).dropped = false := by
  decide +kernel

end ReactiveTree
