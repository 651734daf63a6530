import ReactiveTree.Proofs.Cell.Marking

/-!
# Frames and evaluations

The evaluation stack as a list of consumers, and what recording a read, entering and
leaving an evaluation, and dropping a cell change in a store.
-/

namespace ReactiveTree

variable {K : Type → Type}
variable {c : CellId} {s : Store K}

/-- In a stack, `x` stands directly above `r`. -/
def Adjacent : List (Option CellId) → CellId → CellId → Prop
  | f :: g :: rest, x, r => f = some x ∧ g = some r ∨ Adjacent (g :: rest) x r
  | _, _, _ => False

theorem adjacent_cons {f : Option CellId} {stack : List (Option CellId)} {x r : CellId} :
    Adjacent (f :: stack) x r ↔ f = some x ∧ stack.head? = some (some r) ∨ Adjacent stack x r := by
  cases stack <;> simp [Adjacent]

theorem Adjacent.mem {stack : List (Option CellId)} {x r : CellId} (h : Adjacent stack x r) :
    some x ∈ stack ∧ some r ∈ stack := by
  induction stack with
  | nil => exact h.elim
  | cons f stack ih =>
    rcases adjacent_cons.mp h with ⟨rfl, hr⟩ | h
    · exact ⟨.head _, .tail _ (List.mem_of_mem_head? hr)⟩
    · exact ⟨.tail _ (ih h).1, .tail _ (ih h).2⟩

/-- Takes from a cell what it is computed by and written through. -/
def Cell.release (cell : Cell K) : Cell K := { cell with binding := none, partner := none }

def Cell.bury (cell : Cell K) : Cell K :=
  { cell with dropped := true, dependents := [], room := 0, observers := [], state := .clean }

namespace Store

/-- The consumers on the evaluation stack, innermost first; `none` is an untracked region. -/
def stack (s : Store K) : List (Option CellId) := s.frames.map Frame.consumer

/-- The innermost consumer, to which a read is attributed. -/
def reader (s : Store K) : Option CellId := s.stack.head?.join

theorem reader_eq_some : s.reader = some c ↔ ∃ rest, s.stack = some c :: rest := by
  unfold reader
  cases h : s.stack with
  | nil => simp
  | cons f rest => cases f <;> simp

theorem reader_eq_some_iff_head : s.reader = some c ↔ s.stack.head? = some (some c) := by
  simp [reader, Option.join_eq_some_iff]

theorem exists_frame_of_reader (h : s.reader = some c) :
    ∃ f rest, s.frames = f :: rest ∧ f.consumer = some c := by
  obtain ⟨rest, hs⟩ := reader_eq_some.mp h
  cases hf : s.frames with
  | nil => simp [stack, hf] at hs
  | cons f rest' =>
    rw [stack, hf, List.map_cons, List.cons.injEq] at hs
    exact ⟨f, rest', rfl, hs.1⟩

theorem reader_of_frames {f : Frame} {rest : List Frame}
    (hf : s.frames = f :: rest) (hc : f.consumer = some c) : s.reader = some c := by
  simp [reader, stack, hf, hc]

/-! ## Recording a read -/

theorem addEdge_eq (s : Store K) (cell : Cell K) (e : Edge) :
    ∃ edges room, s.addEdge cell e = { cell with dependents := edges, room := room } ∧
      e ∈ edges ∧ (∀ x ∈ edges, x = e ∨ x ∈ cell.dependents) ∧
      ∀ x ∈ cell.dependents, (s.consumer? x).isSome → x.consumer ≠ e.consumer → x ∈ edges := by
  unfold addEdge
  split
  · rename_i hany
    refine ⟨cell.dependents.map fun x => if x.consumer = e.consumer then e else x, cell.room, rfl,
      ?_, fun x hx => ?_, fun x hx _ hne => ?_⟩
    · obtain ⟨x, hx, hxe⟩ := List.any_eq_true.mp hany
      exact List.mem_map.mpr ⟨x, hx, if_pos (by simpa using hxe)⟩
    · obtain ⟨y, hy, rfl⟩ := List.mem_map.mp hx
      split
      · exact .inl rfl
      · exact .inr hy
    · exact List.mem_map.mpr ⟨x, hx, if_neg hne⟩
  · split
    · refine ⟨cell.dependents ++ [e], cell.room, rfl, by simp, fun x hx => ?_, fun x hx _ _ => ?_⟩
      · simpa [or_comm] using hx
      · exact List.mem_append_left _ hx
    · refine ⟨s.liveEdges cell.dependents ++ [e], _, rfl, by simp, fun x hx => ?_,
        fun x hx hlive _ => ?_⟩
      · rcases List.mem_append.mp hx with hx | hx
        · exact .inr (List.mem_filter.mp hx).1
        · exact .inl (by simpa using hx)
      · exact List.mem_append_left _ (List.mem_filter.mpr ⟨hx, hlive⟩)

/-- What recording a read of `dep` does: nothing if no consumer reads, if it reads itself or
has recorded the read before, and else an edge to the consumer. -/
inductive Tracked (s : Store K) (dep : CellId) : Store K → Prop where
  | idle (h : ∀ f rest c, s.frames = f :: rest → f.consumer = some c → c = dep ∨ dep ∈ f.seen) :
      Tracked s dep s
  | edge {f : Frame} {rest : List Frame} {c : CellId} (hf : s.frames = f :: rest)
      (hc : f.consumer = some c) (hne : c ≠ dep) (hs : dep ∉ f.seen) :
      Tracked s dep
        ({ s with frames := { f with seen := dep :: f.seen } :: rest }.modify dep fun _ =>
          s.addEdge (s.cell dep) (s.cell c).edge)

theorem tracked (s : Store K) (dep : CellId) : Tracked s dep (s.track dep) := by
  unfold track
  split
  · rename_i h
    exact .idle fun f rest c hf => by rw [h] at hf; cases hf
  · rename_i f rest hf
    split
    · rename_i hc
      exact .idle fun f' rest' c hf' hc' => by
        rw [hf, List.cons.injEq] at hf'
        rw [← hf'.1, hc] at hc'
        cases hc'
    · rename_i c hc
      split
      · rename_i h
        refine .idle fun f' rest' c' hf' hc' => ?_
        rw [hf, List.cons.injEq] at hf'
        rw [← hf'.1] at hc' ⊢
        rw [hc, Option.some.injEq] at hc'
        rw [← hc']
        simpa using h
      · rename_i h
        simp only [Bool.or_eq_true, decide_eq_true_eq, List.contains_iff_mem, not_or] at h
        exact .edge hf hc h.1 h.2

@[simp] theorem stack_track (s : Store K) (dep : CellId) : (s.track dep).stack = s.stack := by
  have ht := s.tracked dep
  generalize s.track dep = t at ht ⊢
  cases ht with
  | idle => rfl
  | edge hf => simp [stack, hf]

@[simp] theorem reader_track (s : Store K) (dep : CellId) : (s.track dep).reader = s.reader := by
  simp [reader]

@[simp] theorem size_track (s : Store K) (dep : CellId) :
    (s.track dep).cells.size = s.cells.size := by
  have ht := s.tracked dep
  generalize s.track dep = t at ht ⊢
  cases ht <;> simp

@[simp] theorem slots_track (s : Store K) (dep : CellId) : (s.track dep).slots = s.slots := by
  have ht := s.tracked dep
  generalize s.track dep = t at ht ⊢
  cases ht <;> rfl

@[simp] theorem free_track (s : Store K) (dep : CellId) : (s.track dep).free = s.free := by
  have ht := s.tracked dep
  generalize s.track dep = t at ht ⊢
  cases ht <;> rfl

@[simp] theorem active_track (s : Store K) (dep : CellId) : (s.track dep).active = s.active := by
  have ht := s.tracked dep
  generalize s.track dep = t at ht ⊢
  cases ht <;> rfl

theorem cell_track_ne {dep d : CellId} (h : d ≠ dep) : (s.track dep).cell d = s.cell d := by
  have ht := s.tracked dep
  generalize s.track dep = t at ht ⊢
  cases ht with
  | idle => rfl
  | edge => exact cell_modify_ne h _

/-- A read changes nothing in the cell that is read but its edges. -/
theorem cell_track (s : Store K) {dep : CellId} (h : dep < s.cells.size) :
    ∃ edges room, (s.track dep).cell dep = { s.cell dep with dependents := edges, room := room } ∧
      (∀ e ∈ edges, e ∈ (s.cell dep).dependents ∨
        ∃ r, s.reader = some r ∧ e = (s.cell r).edge) ∧
      (∀ e ∈ (s.cell dep).dependents, (s.consumer? e).isSome →
        (∀ r, s.reader = some r → (s.cell r).self = e.consumer → e = (s.cell r).edge) →
        e ∈ edges) ∧
      ∀ r, s.reader = some r → r = dep ∨ (∃ f ∈ s.frames, f.consumer = some r ∧ dep ∈ f.seen) ∨
        (s.cell r).edge ∈ edges := by
  have ht := s.tracked dep
  generalize s.track dep = t at ht ⊢
  cases ht with
  | idle h =>
    refine ⟨_, _, rfl, fun e he => .inl he, fun e he _ _ => he, fun r hr => ?_⟩
    obtain ⟨f, rest, hf, hc⟩ := exists_frame_of_reader hr
    rcases h f rest r hf hc with hrd | hseen
    · exact .inl hrd
    · exact .inr (.inl ⟨f, hf ▸ .head _, hc, hseen⟩)
  | @edge f rest c hf hc hne hs =>
    have hreader : s.reader = some c := reader_of_frames hf hc
    obtain ⟨edges, room, heq, hself, hof, hkept⟩ := s.addEdge_eq (s.cell dep) (s.cell c).edge
    refine ⟨edges, room, ?_, fun e he => ?_, fun e he hlive hr => ?_, fun r hr => ?_⟩
    · rw [← heq]
      exact cell_modify_self (by exact h) _
    · rcases hof e he with rfl | he
      · exact .inr ⟨c, hreader, rfl⟩
      · exact .inl he
    · by_cases hc' : (s.cell c).self = e.consumer
      · rw [hr c hreader hc']
        exact hself
      · exact hkept e he hlive (Ne.symm hc')
    · rw [hreader, Option.some.injEq] at hr
      exact .inr (.inr (hr ▸ hself))

/-! ## Evaluations -/

/-- Only the cell that is evaluated changes: it has a slot and another epoch. -/
theorem cell_enter (s : Store K) (hc : c < s.cells.size) (d : CellId) :
    (s.enter c).cell d = if d = c then
      { s.cell c with
        self := ((s.takeSlot c).cell c).self
        hasSlot := true
        epoch := (s.cell c).epoch + 1
        state := .evaluating
        disturbed := false }
      else s.cell d := by
  obtain ⟨r, hr⟩ := s.cell_takeSlot hc
  have hcell : (s.enter c).cell d = ((s.takeSlot c).modify c fun cell =>
      { cell with epoch := cell.epoch + 1, state := .evaluating, disturbed := false }).cell d := rfl
  rw [hcell, cell_modify_of_lt (by simpa using hc), hr, hr]
  by_cases hd : d = c <;> simp [hd]

@[simp] theorem stack_enter (s : Store K) (c : CellId) : (s.enter c).stack = some c :: s.stack := by
  simp [enter, pushFrame, stack]

@[simp] theorem frames_enter (s : Store K) (c : CellId) :
    (s.enter c).frames = ⟨some c, []⟩ :: s.frames := by
  simp [enter, pushFrame]

@[simp] theorem size_enter (s : Store K) (c : CellId) : (s.enter c).cells.size = s.cells.size := by
  simp [enter, pushFrame]

theorem active_enter (s : Store K) (c : CellId) : (s.enter c).active = s.active + 1 := by
  simp [enter, pushFrame]

theorem cell_leave (hc : c < s.cells.size) (completed : Bool) (d : CellId) :
    (s.leave c completed).cell d = if d = c then
      { s.cell c with state := if completed && !(s.cell c).disturbed then .clean else .dirty }
      else s.cell d :=
  cell_modify_of_lt hc d _

@[simp] theorem frames_leave (s : Store K) (c : CellId) (completed : Bool) :
    (s.leave c completed).frames = s.frames.tail := rfl

@[simp] theorem stack_leave (s : Store K) (c : CellId) (completed : Bool) :
    (s.leave c completed).stack = s.stack.tail := by
  simp [stack]

@[simp] theorem size_leave (s : Store K) (c : CellId) (completed : Bool) :
    (s.leave c completed).cells.size = s.cells.size := by
  simp [leave, popFrame]

@[simp] theorem active_leave (s : Store K) (c : CellId) (completed : Bool) :
    (s.leave c completed).active = s.active - 1 := rfl

/-! ## Dropping -/

theorem drop_eq (hc : c < s.cells.size) :
    s.drop c = if (s.cell c).dropped then s.modify c Cell.release
      else ((s.modify c Cell.release).leaveSlot c).modify c Cell.bury := by
  have hself : ((s.modify c Cell.release).cell c).dropped = (s.cell c).dropped := by
    rw [cell_modify_self hc, Cell.release]
  rw [← hself]
  rfl

theorem cell_drop (hc : c < s.cells.size) (d : CellId) : (s.drop c).cell d = if d = c then
      if (s.cell c).dropped then { s.cell c with binding := none, partner := none }
      else
        { s.cell c with
          binding := none, partner := none, hasSlot := false, dropped := true
          dependents := [], room := 0, observers := [], state := .clean }
      else s.cell d := by
  have hcr : c < (s.modify c Cell.release).cells.size := by simpa using hc
  have hcell : ∀ d, (s.modify c Cell.release).cell d = if d = c then _ else s.cell d := fun d =>
    cell_modify_of_lt hc d _
  rw [drop_eq hc]
  by_cases hdrop : (s.cell c).dropped
  · simp only [if_pos hdrop]
    exact hcell d
  · simp only [if_neg hdrop]
    rw [cell_modify_of_lt (by simpa using hcr), cell_leaveSlot hcr, cell_leaveSlot hcr,
      hcell, hcell]
    by_cases hd : d = c <;> simp [hd, Cell.bury, Cell.release]

/-- The references to a cell that is dropped are retired. -/
theorem Arena.drop {s : Store K} (h : Arena s) {c : CellId} (hc : c < s.cells.size)
    (hd : (s.cell c).dropped = false) :
      Arena (s.drop c) ∧ (∀ r, Retired s r → Retired (s.drop c) r) ∧
        ((s.cell c).hasSlot → Retired (s.drop c) (s.cell c).self) := by
  have hcr : c < (s.modify c Cell.release).cells.size := by simpa using hc
  have hslot : SameSlots s (s.modify c Cell.release) := fun d =>
    ⟨proj_modify Cell.hasSlot (f := Cell.release) (fun _ => rfl) s c d,
      proj_modify Cell.self (f := Cell.release) (fun _ => rfl) s c d⟩
  have hr : Arena (s.modify c Cell.release) := h.transfer (slots_modify ..) (free_modify ..) hslot
  obtain ⟨har, hret, hnew⟩ := hr.leaveSlot hcr
  rw [drop_eq hc, if_neg (by simp [hd])]
  refine ⟨har.transfer (slots_modify ..) (free_modify ..) fun d => ?_, fun r hr => ?_, fun hs => ?_⟩
  · exact ⟨proj_modify Cell.hasSlot (f := Cell.bury) (fun _ => rfl) _ c d,
      proj_modify Cell.self (f := Cell.bury) (fun _ => rfl) _ c d⟩
  · exact (hret r (hr.transfer (slots_modify ..))).transfer (slots_modify ..)
  · rw [← (hslot c).2]
    exact (hnew ((hslot c).1.trans hs)).transfer (slots_modify ..)

@[simp] theorem size_drop (s : Store K) (c : CellId) : (s.drop c).cells.size = s.cells.size := by
  unfold drop
  simp only
  split <;> simp

@[simp] theorem frames_drop (s : Store K) (c : CellId) : (s.drop c).frames = s.frames := by
  unfold drop
  simp only
  split <;> simp

@[simp] theorem active_drop (s : Store K) (c : CellId) : (s.drop c).active = s.active := by
  unfold drop
  simp only
  split <;> simp

@[simp] theorem stack_drop (s : Store K) (c : CellId) : (s.drop c).stack = s.stack := by
  simp [stack]

end Store

end ReactiveTree
