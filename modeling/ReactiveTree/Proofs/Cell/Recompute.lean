import ReactiveTree.Proofs.Cell.UpToDate

/-!
# Recomputing a cell from scratch

A binding that does nothing but read other cells is a *formula*. This file has the evaluator
that one writes for formulas when nothing is cached: to compute a cell is to run its binding
and to compute, in the same way, each cell that it reads. A computation that comes back to a
cell it is computing has no result.
-/

namespace ReactiveTree

variable {S : Type} {K : Type → Type} {α : Type}

/-- Why a cell cannot be computed. -/
inductive Obstacle where
  /-- The computation came back to a cell that it was computing. -/
  | reentered (c : CellId)
  | unknown (c : CellId)
  /-- A binding does more than read. -/
  | effect
  deriving DecidableEq, Repr

namespace Act

/-- A program that only reads cells. What it has read may decide what it reads next. -/
inductive Formula : {α : Type} → Act S K α → Prop where
  | pure {α : Type} (a : α) : Formula (.pure a)
  | bind {α β : Type} {x : Act S K α} {f : α → Act S K β} (hx : Formula x)
      (hf : ∀ a, Formula (f a)) : Formula (.bind x f)
  | get (c : CellId) : Formula (.get c)

/-- Runs a formula that is told the values of cells by `ask`. -/
def consult (ask : CellId → Except Obstacle Value) {α : Type} : Act S K α → Except Obstacle α
  | .pure a => .ok a
  | .bind x f =>
    match x.consult ask with
    | .ok a => (f a).consult ask
    | .error o => .error o
  | .get c => ask c
  | _ => .error .effect

/-- A formula whose reads were answered by `answer` returned a value. -/
inductive Yields (answer : CellId → Value → Prop) : {α : Type} → Act S K α → α → Prop where
  | pure {α : Type} (a : α) : Yields answer (.pure a) a
  | bind {α β : Type} {x : Act S K α} {f : α → Act S K β} {a : α} {b : β}
      (hx : Yields answer x a) (hf : Yields answer (f a) b) : Yields answer (.bind x f) b
  | get {c : CellId} {v : Value} (h : answer c v) : Yields answer (.get c) v

theorem Yields.mono {answer answer' : CellId → Value → Prop} {act : Act S K α} {a : α}
    (h : Yields answer act a) (himp : ∀ c v, answer c v → answer' c v) : Yields answer' act a := by
  induction h with
  | pure a => exact .pure a
  | bind _ _ ihx ihf => exact .bind ihx ihf
  | get h => exact .get (himp _ _ h)

theorem Yields.consult {answer : CellId → Value → Prop} {ask : CellId → Except Obstacle Value}
    {act : Act S K α} {a : α} (h : Yields answer act a)
    (hask : ∀ c v, answer c v → ask c = .ok v) : act.consult ask = .ok a := by
  induction h with
  | pure a => rfl
  | bind _ _ ihx ihf =>
    rw [Act.consult, ihx]
    exact ihf
  | get h => exact hask _ _ h

end Act

def Binding.program (meaning : {α : Type} → K α → Act S K α) : Binding K → Act S K Value
  | .follow root => .get root
  | .code c => meaning c

/-- What computes a cell. A cell without a rule has a value of its own. -/
def Cell.rule (cell : Cell K) : Option (Binding K) := if cell.dropped then none else cell.binding

namespace Store

/-- How many cells a computation that is computing those of `stack` has not come to. -/
def ahead (s : Store K) (stack : List CellId) : Nat :=
  ((List.range s.cells.size).filter (· ∉ stack)).length

theorem ahead_cons_lt {s : Store K} {stack : List CellId} {c : CellId} (hc : c < s.cells.size)
    (hn : c ∉ stack) : s.ahead (c :: stack) < s.ahead stack := by
  have hsplit : (List.range s.cells.size).filter (· ∉ c :: stack) =
      ((List.range s.cells.size).filter (· ∉ stack)).filter (· ≠ c) := by
    rw [List.filter_filter]
    refine List.filter_congr fun d _ => ?_
    simp [not_or]
  rw [ahead, hsplit]
  refine List.length_filter_lt_length_iff_exists.mpr ⟨c, ?_, by simp⟩
  exact List.mem_filter.mpr ⟨List.mem_range.mpr hc, by simpa using hn⟩

variable (meaning : {α : Type} → K α → Act S K α)

/-- Computes a cell from the bindings and the values of the store, without regard to what is
clean. `stack` are the cells that are being computed. -/
def recompute (s : Store K) (stack : List CellId) (c : CellId) : Except Obstacle Value :=
  if _ : s.IsProperty c then
    if _ : c ∈ stack then .error (.reentered c)
    else
      match (s.cell c).rule with
      | none => .ok (s.cell c).value
      | some b => (b.program meaning).consult fun x => s.recompute (c :: stack) x
  else .error (.unknown c)
termination_by s.ahead stack
decreasing_by exact ahead_cons_lt (‹s.IsProperty c›).1 ‹c ∉ stack›

variable {meaning} {s : Store K} {stack : List CellId} {c : CellId}

theorem recompute_unknown (h : ¬s.IsProperty c) :
    s.recompute meaning stack c = .error (.unknown c) := by
  rw [recompute, dif_neg h]

theorem recompute_reentered (h : s.IsProperty c) (hc : c ∈ stack) :
    s.recompute meaning stack c = .error (.reentered c) := by
  rw [recompute, dif_pos h, dif_pos hc]

theorem recompute_stored (h : s.IsProperty c) (hc : c ∉ stack) (hr : (s.cell c).rule = none) :
    s.recompute meaning stack c = .ok (s.cell c).value := by
  rw [recompute, dif_pos h, dif_neg hc, hr]

theorem recompute_bound {b : Binding K} (h : s.IsProperty c) (hc : c ∉ stack)
    (hr : (s.cell c).rule = some b) : s.recompute meaning stack c =
      (b.program meaning).consult (s.recompute meaning (c :: stack)) := by
  rw [recompute, dif_pos h, dif_neg hc, hr]

/-- Two stores that agree on what a computation from scratch looks at. -/
structure SameSources (s t : Store K) : Prop where
  size : t.cells.size = s.cells.size
  tracker : ∀ c, (t.cell c).tracker = (s.cell c).tracker
  rule : ∀ c, (t.cell c).rule = (s.cell c).rule
  value : ∀ c, (s.cell c).rule = none → (t.cell c).value = (s.cell c).value

theorem SameSources.refl (s : Store K) : SameSources s s :=
  ⟨rfl, fun _ => rfl, fun _ => rfl, fun _ _ => rfl⟩

theorem SameSources.trans {t u : Store K} (h : SameSources s t) (h' : SameSources t u) :
    SameSources s u :=
  ⟨h'.size.trans h.size, fun c => (h'.tracker c).trans (h.tracker c),
    fun c => (h'.rule c).trans (h.rule c),
    fun c hc => (h'.value c ((h.rule c).trans hc)).trans (h.value c hc)⟩

theorem SameSources.isProperty {t : Store K} (h : SameSources s t) (c : CellId) :
    t.IsProperty c ↔ s.IsProperty c := by
  rw [IsProperty, IsProperty, h.size, h.tracker]

theorem SameSources.recompute {t : Store K} (h : SameSources s t) (stack : List CellId) :
    t.recompute meaning stack = s.recompute meaning stack := by
  -- on the number of cells that the computation has not come to
  generalize hn : s.ahead stack = n
  induction n using Nat.strong_induction_on generalizing stack with
  | _ n ih =>
    funext c
    by_cases hc : s.IsProperty c
    · have hct := (h.isProperty c).mpr hc
      by_cases hmem : c ∈ stack
      · rw [recompute_reentered hct hmem, recompute_reentered hc hmem]
      · cases hr : (s.cell c).rule with
        | none =>
          rw [recompute_stored hct hmem ((h.rule c).trans hr), recompute_stored hc hmem hr,
            h.value c hr]
        | some b =>
          have hlt : s.ahead (c :: stack) < n := hn ▸ ahead_cons_lt hc.1 hmem
          rw [recompute_bound hct hmem ((h.rule c).trans hr), recompute_bound hc hmem hr,
            ih _ hlt (c :: stack) rfl]
    · rw [recompute_unknown hc, recompute_unknown (mt (h.isProperty c).mp hc)]

end Store

end ReactiveTree
