import ReactiveTree.Proofs.Cell.Flow

/-!
# Coherence

A clean cell is up to date: whatever its latest evaluation read is clean, or dropped, and
still has the value that was read. The invariant behind it also speaks of evaluations in
progress that nothing has disturbed. It relates the edges of the store to the reads of the
chronicle: an undisturbed consumer has an edge from everything it has read, and no edge
from anything else but the cell it waits for.
-/

namespace ReactiveTree

variable {K : Type → Type}

open Store

variable {c x : CellId} {stop : Option Stop} {k k' : Stage K}

/-- What the latest evaluation of `c` has read, with the values it got. -/
def Chronicle.reads (c : CellId) : Chronicle K → List (CellId × Value)
  | [] => []
  | m :: past =>
    match m.event with
    | .began d => if d = c then [] else Chronicle.reads c past
    | .got x v =>
      if m.store.reader = some c then (x, v) :: Chronicle.reads c past else Chronicle.reads c past
    | _ => Chronicle.reads c past

namespace Stage

/-- A computed cell that its consumers can rely on: clean or, while the run goes on, under
evaluation and not disturbed. -/
def Sound (k : Stage K) (c : CellId) : Prop :=
  (k.store.cell c).Computed ∧ (k.store.cell c).dropped = false ∧
    ((k.store.cell c).state = .clean ∨ k.stop = none ∧ (k.store.cell c).state = .evaluating ∧
      (k.store.cell c).disturbed = false)

theorem Sound.hasSlot (h : k.Sound c) (hs : k.store.Sane) : (k.store.cell c).hasSlot = true := by
  obtain ⟨hk, hd, hst | ⟨-, hst, -⟩⟩ := h
  · exact hs.slotted c hk hst hd
  · rcases (hs.consumer c (hs.evaluating c hst)).2 with ⟨-, -, hslot⟩ | ⟨hd', -⟩
    · exact hslot
    · simp [hd] at hd'

theorem Sound.of_cell (h : k'.Sound c)
    (hcell : k'.store.cell c = k.store.cell c) (hstop : k'.stop = none → k.stop = none) :
    k.Sound c := by
  obtain ⟨hk, hd, hst⟩ := h
  rw [hcell] at hk hd hst
  exact ⟨hk, hd, hst.imp id fun ⟨h1, h2⟩ => ⟨hstop h1, h2⟩⟩

theorem Sound.edge_inj (hs : k.store.Sane) {r : CellId} (hc : k.Sound c)
    (hr : k.store.reader = some r) (hself : (k.store.cell r).self = (k.store.cell c).self) :
    r = c := by
  rcases (hs.consumer r (mem_consumers_of_reader hr)).2 with ⟨-, -, hslot⟩ | ⟨-, hret⟩
  · exact hs.arena.self_inj hslot (hc.hasSlot hs) hself
  · rw [hself] at hret
    exact absurd rfl (hret.ne_self hs.arena (hc.hasSlot hs))

end Stage

/-- The value `v` that `c` read from `x` is still good, and `c` will hear when it is not. -/
def Store.Holds (s : Store K) (c x : CellId) (v : Value) : Prop :=
  x < s.cells.size ∧ (s.cell x).value = v ∧
    ((s.cell x).dropped = true ∨ (s.cell x).state = .clean ∧ (s.cell c).edge ∈
      (s.cell x).dependents)

/-- Not disturbed in an evaluation in progress. -/
def Cell.Quiet (cell : Cell K) : Prop := cell.state = .evaluating → cell.disturbed = false

/-- The invariant of a run. `top` are cells that the innermost consumer waits for but that
have not entered the stack yet, or have just left it. -/
structure Coherence (top : List (Option CellId)) (k : Stage K) : Prop where
  sane : k.store.Sane
  upheld : ∀ c, k.Sound c → ∀ x v, (x, v) ∈ k.past.reads c → k.store.Holds c x v
  waits : k.stop = none → ∀ x r, Adjacent (top ++ k.store.stack) x r → k.Sound r →
    (k.store.cell x).tracker = false → (k.store.cell x).dropped = true ∨
      (k.store.cell r).edge ∈ (k.store.cell x).dependents ∧ (k.store.cell x).Quiet
  seen : k.stop = none → ∀ f ∈ k.store.frames, ∀ r, f.consumer = some r → k.Sound r →
    ∀ x ∈ f.seen, (∃ v, (x, v) ∈ k.past.reads r) ∨ Adjacent (top ++ k.store.stack) x r
  live : ∀ x d, k.Sound d → (k.store.cell d).edge ∈ (k.store.cell x).dependents →
    (∃ v, (x, v) ∈ k.past.reads d) ∨ Adjacent (top ++ k.store.stack) x d

/-- What a consumer with the edge `e` needs of a cell it has read or waits for. -/
structure Cell.Relied (e : Edge) (a b : Cell K) : Prop where
  edge : e ∈ b.dependents
  clean : a.state = .clean → b.state = .clean ∧ b.value = a.value
  quiet : a.Quiet → b.Quiet

theorem Coherence.transfer {top top' : List (Option CellId)}
    (h : Coherence top k) (hsane : k'.store.Sane) (hsize : k.store.cells.size ≤ k'.store.cells.size)
    (hreads : ∀ c, k'.Sound c → k'.past.reads c = k.past.reads c)
    (hsound : ∀ c, k'.Sound c → k.Sound c ∧ (k'.store.cell c).edge = (k.store.cell c).edge)
    (hdropped : ∀ x, (k.store.cell x).dropped = true →
      (k'.store.cell x).dropped = true ∧ (k'.store.cell x).value = (k.store.cell x).value)
    (hrely : ∀ c x, k'.Sound c → (k.store.cell c).edge ∈ (k.store.cell x).dependents →
      (k'.store.cell x).dropped = true ∧ (k'.store.cell x).value = (k.store.cell x).value ∨
        Cell.Relied (k.store.cell c).edge (k.store.cell x) (k'.store.cell x))
    (hfewer : ∀ x d, k'.Sound d → (k.store.cell d).edge ∈ (k'.store.cell x).dependents →
      (k.store.cell d).edge ∈ (k.store.cell x).dependents)
    (hadj : ∀ x d, k'.Sound d → Adjacent (top ++ k.store.stack) x d →
      Adjacent (top' ++ k'.store.stack) x d)
    (hmode : k'.stop = none → top' = [] ∧ k'.store.consumers = [] ∨ k.stop = none ∧
      (∀ x r, Adjacent (top' ++ k'.store.stack) x r → (k'.store.cell x).tracker = false →
        Adjacent (top ++ k.store.stack) x r ∧ (k.store.cell x).tracker = false) ∧
      ∀ f' ∈ k'.store.frames, ∀ r, f'.consumer = some r →
        ∃ f ∈ k.store.frames, f.consumer = some r ∧ f'.seen ⊆ f.seen) : Coherence top' k' := by
  refine ⟨hsane, fun c hc x v hx => ?_, fun hstop x r hxr hr ht => ?_,
    fun hstop f' hf' r hfr hr x hx => ?_, fun x d hd he => ?_⟩
  · obtain ⟨hc0, hedge⟩ := hsound c hc
    rw [hreads c hc] at hx
    obtain ⟨hlt, hv, hcase⟩ := h.upheld c hc0 x v hx
    refine ⟨hlt.trans_le hsize, ?_⟩
    rcases hcase with hd | ⟨hcl, he⟩
    · exact ⟨(hdropped x hd).2.trans hv, .inl (hdropped x hd).1⟩
    · rcases hrely c x hc he with ⟨hd, hval⟩ | hrel
      · exact ⟨hval.trans hv, .inl hd⟩
      · exact ⟨(hrel.clean hcl).2.trans hv, .inr ⟨(hrel.clean hcl).1, hedge ▸ hrel.edge⟩⟩
  · rcases hmode hstop with ⟨rfl, hnone⟩ | ⟨hstop0, hadj', -⟩
    · rw [List.nil_append] at hxr
      have := mem_consumers.mpr hxr.mem.1
      rw [hnone] at this
      cases this
    · obtain ⟨hxr0, ht0⟩ := hadj' x r hxr ht
      obtain ⟨hr0, hedge⟩ := hsound r hr
      rcases h.waits hstop0 x r hxr0 hr0 ht0 with hd | ⟨he, hq⟩
      · exact .inl (hdropped x hd).1
      · rcases hrely r x hr he with ⟨hd, -⟩ | hrel
        · exact .inl hd
        · exact .inr ⟨hedge ▸ hrel.edge, hrel.quiet hq⟩
  · rcases hmode hstop with ⟨-, hnone⟩ | ⟨hstop0, -, hframes⟩
    · have hmem : r ∈ k'.store.consumers :=
        mem_consumers.mpr (List.mem_map.mpr ⟨f', hf', hfr⟩)
      rw [hnone] at hmem
      cases hmem
    · obtain ⟨f, hf, hfr0, hsub⟩ := hframes f' hf' r hfr
      rw [hreads r hr]
      exact (h.seen hstop0 f hf r hfr0 (hsound r hr).1 x (hsub hx)).imp id (hadj x r hr)
  · obtain ⟨hd0, hedge⟩ := hsound d hd
    rw [hedge] at he
    rw [hreads d hd]
    exact (h.live x d hd0 (hfewer x d hd he)).imp id (hadj x d hd)

/-! ## Steps that leave the stack alone -/

/-- All that consumers rely on agrees, but for the value of a cell under evaluation. -/
structure Cell.Constant (a b : Cell K) : Prop where
  tracker : b.tracker = a.tracker
  computed : b.Computed → a.Computed
  state : b.state = a.state
  disturbed : b.disturbed = a.disturbed
  dropped : b.dropped = a.dropped
  edge : b.edge = a.edge
  dependents : b.dependents = a.dependents
  value : a.state = .clean ∨ a.dropped = true → b.value = a.value

theorem Cell.Constant.refl (a : Cell K) : Constant a a :=
  ⟨rfl, id, rfl, rfl, rfl, rfl, rfl, fun _ => rfl⟩

theorem Cell.Constant.of_minor {a b : Cell K} (h : Minor a b)
    (hv : a.state = .clean ∨ a.dropped = true → b.value = a.value) : Constant a b :=
  ⟨h.tracker, fun hb => by rwa [Cell.Computed, ← h.binding, ← h.tracker], h.state, h.disturbed,
    h.dropped, by rw [Cell.edge, Cell.edge, h.self, h.epoch], h.dependents, hv⟩

theorem Store.constant_modify {s t : Store K} (c : CellId) (g : Cell K → Cell K)
    (ht : t.cells = s.cells.modify c g) (hg : ∀ cell, Cell.Constant cell (g cell)) (d : CellId) :
    (s.cell d).Constant (t.cell d) := by
  have hcell : t.cell d = (s.modify c g).cell d := by rw [cell, cell, ht, modify]
  rw [hcell, cell_modify]
  split
  · exact hg _
  · exact .refl _

section

variable {top : List (Option CellId)} {s t : Store K} {past : Chronicle K}

theorem Coherence.constant {past' : Chronicle K} {stop' : Option Stop}
    (h : Coherence top ⟨s, past, stop⟩) (hsane : t.Sane) (hsize : t.cells.size = s.cells.size)
    (hframes : t.frames = s.frames) (hc : ∀ d, (s.cell d).Constant (t.cell d))
    (hreads : ∀ c, past'.reads c = past.reads c) (hstop : stop' = none → stop = none) :
    Coherence top ⟨t, past', stop'⟩ := by
  have hstack : t.stack = s.stack := by rw [stack, stack, hframes]
  have hsound : ∀ c, Stage.Sound ⟨t, past', stop'⟩ c → Stage.Sound ⟨s, past, stop⟩ c := by
    rintro c ⟨hk, hd, hst⟩
    refine ⟨(hc c).computed hk, (hc c).dropped ▸ hd, ?_⟩
    rw [← (hc c).state, ← (hc c).disturbed]
    exact hst.imp id (And.imp_left hstop)
  refine h.transfer hsane hsize.ge (fun c _ => hreads c) (fun c hs => ⟨hsound c hs, (hc c).edge⟩)
    (fun x hx => ⟨(hc x).dropped.trans hx, (hc x).value (.inr hx)⟩) (fun c x _ he => .inr ?_)
    (fun x d _ he => ?_) (fun x d _ hxd => ?_) fun hn => .inr ⟨hstop hn, fun x r hxr ht => ?_,
      fun f hf r hr => ?_⟩
  · refine ⟨by rw [(hc x).dependents]; exact he, fun hcl => ?_, fun hq => ?_⟩
    · exact ⟨(hc x).state.trans hcl, (hc x).value (.inl hcl)⟩
    · rw [Cell.Quiet, (hc x).state, (hc x).disturbed]
      exact hq
  · rw [← (hc x).dependents]
    exact he
  · simp only [hstack]
    exact hxd
  · simp only [hstack] at hxr
    exact ⟨hxr, (hc x).tracker.symm.trans ht⟩
  · simp only [hframes] at hf
    exact ⟨f, hf, hr, List.Subset.refl _⟩

/-- A change that marks the consumers of `c`. Afterwards `c` is not sound. -/
theorem Coherence.ripple (h : Coherence top ⟨s, past, none⟩) (hsane : t.Sane)
    (hr : Ripple s t c) (hd : (s.cell c).dropped = false)
    (hc : ¬(t.cell c).Fresh ∨ ¬(t.cell c).Computed) : Coherence top ⟨t, past, none⟩ := by
  have hstack : t.stack = s.stack := by rw [stack, stack, hr.around.frames]
  have hfresh : ∀ d, Stage.Sound ⟨t, past, none⟩ d → (t.cell d).Fresh := by
    rintro d ⟨-, -, hst | ⟨-, hst, hdis⟩⟩
    · exact .inl hst
    · exact .inr ⟨hst, hdis⟩
  have hne : ∀ d, Stage.Sound ⟨t, past, none⟩ d → d ≠ c := by
    rintro d hs rfl
    exact hc.elim (fun hf => hf (hfresh d hs)) fun hk => hk hs.1
  have hsame : ∀ d, Stage.Sound ⟨t, past, none⟩ d → t.cell d = s.cell d := fun d hs => by
    rcases hr.other d (hne d hs) with heq | ⟨-, heq⟩
    · exact heq
    · have hf := hfresh d hs
      rw [heq] at hf
      exact absurd hf (Cell.not_fresh_spoil _)
  have hsound : ∀ d, Stage.Sound ⟨t, past, none⟩ d → Stage.Sound ⟨s, past, none⟩ d := fun d hs =>
    hs.of_cell (hsame d hs) fun _ => rfl
  have hlive : ∀ d, Stage.Sound ⟨t, past, none⟩ d → s.consumer? (s.cell d).edge = some d :=
    fun d hs => h.sane.arena.consumer?_eq_some.mpr ⟨(hsound d hs).hasSlot h.sane, rfl⟩
  refine h.transfer hsane hr.around.size.ge (fun _ _ => rfl)
    (fun d hs => ⟨hsound d hs, by simp only [hsame d hs]⟩) (fun x hx => ?_)
    (fun d x hs he => .inr ?_) (fun x d _ he => (hr.fewer x).subset he)
      (fun x d _ hxd => ?_) fun _ => .inr ⟨rfl, fun x r hxr ht => ?_, fun f hf r hfr => ?_⟩
  · have hxc : x ≠ c := fun hxc => by
      rw [← hxc, hx] at hd
      cases hd
    rcases hr.other x hxc with heq | ⟨-, heq⟩
    · simp only [heq]
      exact ⟨hx, trivial⟩
    · simp only [heq, Cell.dropped_spoil, Cell.value_spoil]
      exact ⟨hx, rfl⟩
  · have hst := hr.steady x _ d he (hlive d hs) (hne d hs) (hfresh d hs)
    refine ⟨by rw [hst.dependents]; exact he, fun hcl => ⟨hst.clean hcl, hst.value⟩,
      fun hq hev => ?_⟩
    rw [hst.disturbed]
    exact hq ((hr.alike x).evaluating.mp hev)
  · simp only [hstack]
    exact hxd
  · simp only [hstack] at hxr
    exact ⟨hxr, (hr.alike x).tracker.symm.trans ht⟩
  · simp only [hr.around.frames] at hf
    exact ⟨f, hf, hfr, List.Subset.refl _⟩

theorem Coherence.drop {c : CellId} (h : Coherence top ⟨s, past, none⟩) (hc : c < s.cells.size) :
    Coherence top ⟨s.drop c, past, none⟩ := by
  have hself : (s.drop c).cell c = _ := (cell_drop hc c).trans (if_pos rfl)
  have hother : ∀ d, d ≠ c → (s.drop c).cell d = s.cell d := fun d hdc =>
    (cell_drop hc d).trans (if_neg hdc)
  have hdrop : ((s.drop c).cell c).dropped = true ∧
      ((s.drop c).cell c).value = (s.cell c).value ∧
      ((s.drop c).cell c).dependents ⊆ (s.cell c).dependents ∧
      ((s.drop c).cell c).tracker = (s.cell c).tracker := by
    rw [hself]
    by_cases hd : (s.cell c).dropped = true
    · rw [if_pos hd]
      exact ⟨hd, rfl, List.Subset.refl _, rfl⟩
    · rw [if_neg hd]
      exact ⟨rfl, rfl, List.nil_subset _, rfl⟩
  have hne : ∀ d, Stage.Sound ⟨s.drop c, past, none⟩ d → d ≠ c := by
    rintro d ⟨-, hd, -⟩ rfl
    rw [hdrop.1] at hd
    cases hd
  refine h.transfer (h.sane.drop hc) (size_drop s c).ge (fun _ _ => rfl)
    (fun d hs => ?_) (fun x hx => ?_) (fun d x hs he => ?_) (fun x d _ he => ?_)
    (fun x d _ hxd => ?_) fun _ => .inr ⟨rfl, fun x r hxr ht => ?_, fun f hf r hfr => ?_⟩
  · have heq := hother d (hne d hs)
    exact ⟨hs.of_cell heq fun _ => rfl, by simp only [heq]⟩
  · by_cases hxc : x = c
    · subst hxc
      exact ⟨hdrop.1, hdrop.2.1⟩
    · simp only [hother x hxc]
      exact ⟨hx, trivial⟩
  · by_cases hxc : x = c
    · subst hxc
      exact .inl ⟨hdrop.1, hdrop.2.1⟩
    · simp only [hother x hxc]
      exact .inr ⟨he, fun hcl => ⟨hcl, rfl⟩, id⟩
  · by_cases hxc : x = c
    · subst hxc
      exact hdrop.2.2.1 he
    · simp only [hother x hxc] at he
      exact he
  · simp only [stack_drop]
    exact hxd
  · simp only [stack_drop] at hxr
    refine ⟨hxr, ?_⟩
    by_cases hxc : x = c
    · subst hxc
      exact hdrop.2.2.2.symm.trans ht
    · simp only [hother x hxc] at ht
      exact ht
  · simp only [frames_drop] at hf
    exact ⟨f, hf, hfr, List.Subset.refl _⟩

theorem Coherence.add {cell : Cell K} (h : Coherence top ⟨s, past, none⟩) (hb : cell.Blank) :
    Coherence top ⟨(s.add cell).2, past, none⟩ := by
  have hcell := s.cell_add cell
  have hold := cell_of_size_le (Nat.le_refl s.cells.size)
  have hblank : cell.dependents = [] ∧ cell.dropped = false ∧
      (cell.Computed → cell.state = .dirty) := by
    cases hb <;> simp [Cell.Computed]
  have hne : ∀ d, Stage.Sound ⟨(s.add cell).2, past, none⟩ d → d ≠ s.cells.size := by
    rintro d ⟨hk, -, hst⟩ rfl
    simp only [hcell, if_true] at hk hst
    simp [hblank.2.2 hk] at hst
  have hsame : ∀ x, (s.cell x).dependents ≠ [] ∨ (s.cell x).dropped = true → x ≠ s.cells.size := by
    rintro x hx rfl
    simp [hold] at hx
  refine h.transfer (h.sane.add hb) (by simp [Store.add]) (fun _ _ => rfl) (fun d hs => ?_)
    (fun x hx => ?_) (fun d x _ he => .inr ?_) (fun x d _ he => ?_) (fun x d _ hxd => hxd)
    fun _ => .inr ⟨rfl, fun x r hxr ht => ⟨hxr, ?_⟩, fun f hf r hfr => ⟨f, hf, hfr,
      List.Subset.refl _⟩⟩
  · have heq := (hcell d).trans (if_neg (hne d hs))
    exact ⟨hs.of_cell heq fun _ => rfl, by simp only [heq]⟩
  · simp only [hcell, if_neg (hsame x (.inr hx))]
    exact ⟨hx, trivial⟩
  · simp only [hcell, if_neg (hsame x (.inl (List.ne_nil_of_mem he)))]
    exact ⟨he, fun hcl => ⟨hcl, rfl⟩, id⟩
  · by_cases hx : x = s.cells.size
    · simp only [hcell, if_pos hx, hblank.1] at he
      cases he
    · simp only [hcell, if_neg hx] at he
      exact he
  · by_cases hx : x = s.cells.size
    · simp only [hx, hold]
    · simp only [hcell, if_neg hx] at ht
      exact ht

theorem Cell.Relied.refl {e : Edge} {a : Cell K} (h : e ∈ a.dependents) : Relied e a a :=
  ⟨h, fun hc => ⟨hc, rfl⟩, id⟩

theorem Coherence.settle (h : Coherence top ⟨s, past, none⟩) (hc : s.IsProperty c)
    (hs : (s.cell c).state = .dirty) (hb : (s.cell c).binding = none) :
    Coherence top ⟨s.modify c fun cell => { cell with state := .clean }, past, none⟩ := by
  have hself : (s.modify c fun cell => { cell with state := .clean }).cell c = _ :=
    cell_modify_self hc.1 _
  have hother :
      ∀ d, d ≠ c → (s.modify c fun cell => { cell with state := .clean }).cell d = s.cell d :=
    fun d hd => cell_modify_ne hd _
  have hne : ∀ d, Stage.Sound ⟨s.modify c fun cell => { cell with state := .clean }, past, none⟩ d →
      d ≠ c := by
    rintro d ⟨hk, -, -⟩ rfl
    simp [hself, Cell.Computed, hb, hc.2] at hk
  refine h.transfer (h.sane.settle hc hs hb) (by simp) (fun _ _ => rfl) (fun d hd => ?_)
    (fun x hx => ?_) (fun d x _ he => .inr ?_) (fun x d _ he => ?_) (fun x d _ hxd => hxd)
    fun _ => .inr ⟨rfl, fun x r hxr ht => ⟨hxr, ?_⟩, fun f hf r hfr => ⟨f, hf, hfr,
      List.Subset.refl _⟩⟩
  · have heq := hother d (hne d hd)
    exact ⟨hd.of_cell heq fun _ => rfl, by simp only [heq]⟩
  all_goals by_cases hxc : x = c
  · subst hxc
    simp only [hself]
    exact ⟨hx, trivial⟩
  · simp only [hother x hxc]
    exact ⟨hx, trivial⟩
  · subst hxc
    simp only [hself]
    exact ⟨he, fun hcl => by simp [hs] at hcl, fun _ h => by cases h⟩
  · simp only [hother x hxc]
    exact .refl he
  · subst hxc
    simpa only [hself] using he
  · simpa only [hother x hxc] using he
  · subst hxc
    simpa only [hself] using ht
  · simpa only [hother x hxc] using ht

/-! ## Steps of the stack -/

theorem Coherence.reframe {top' : List (Option CellId)} {past' : Chronicle K}
    (h : Coherence top ⟨s, past, stop⟩) (hsane : t.Sane) (hcells : t.cells = s.cells)
    (hreads : ∀ c, past'.reads c = past.reads c)
    (hadj : ∀ x r, Adjacent (top' ++ t.stack) x r ↔ Adjacent (top ++ s.stack) x r)
    (hframes : ∀ f ∈ t.frames, ∀ r, f.consumer = some r → f ∈ s.frames) :
    Coherence top' ⟨t, past', stop⟩ := by
  have hcell : ∀ d, t.cell d = s.cell d := fun d => by rw [cell, cell, hcells]
  refine h.transfer hsane (by rw [hcells]) (fun d _ => hreads d)
    (fun d hd => ⟨hd.of_cell (hcell d) id, by simp only [hcell]⟩) (fun x hx => ?_)
    (fun d x _ he => .inr ?_) (fun x d _ he => ?_) (fun x d _ hxd => (hadj x d).mpr hxd)
    fun hstop => .inr ⟨hstop, fun x r hxr ht => ⟨(hadj x r).mp hxr, ?_⟩,
      fun f hf r hfr => ⟨f, hframes f hf r hfr, hfr, List.Subset.refl _⟩⟩
  all_goals simp only [hcell] at *
  · exact ⟨hx, trivial⟩
  · exact .refl he
  · exact he
  · exact ht

/-- The innermost consumer waits for a tracker, or for a cell that is dropped. -/
theorem Coherence.await (h : Coherence [] ⟨s, past, none⟩)
    (hc : (s.cell c).tracker = true ∨ (s.cell c).dropped = true) :
    Coherence [some c] ⟨s, past, none⟩ := by
  have hadj : ∀ x r, Adjacent s.stack x r → Adjacent ([some c] ++ s.stack) x r := fun x r hxr =>
    adjacent_cons.mpr (.inr hxr)
  refine ⟨h.sane, h.upheld, fun hstop x r hxr hr ht => ?_, fun hstop f hf r hfr hr x hx => ?_,
    fun x d hd he => (h.live x d hd he).imp id (hadj x d)⟩
  · rcases adjacent_cons.mp hxr with ⟨hxc, -⟩ | hxr
    · cases hxc
      rcases hc with hc | hc
      · rw [hc] at ht
        cases ht
      · exact .inl hc
    · exact h.waits hstop x r hxr hr ht
  · exact (h.seen hstop f hf r hfr hr x hx).imp id (hadj x r)

theorem Coherence.dismiss (h : Coherence [some c] ⟨s, past, none⟩)
    (hc : (s.cell c).tracker = true) : Coherence [] ⟨s, past, none⟩ := by
  refine ⟨h.sane, h.upheld, fun hstop x r hxr hr ht => ?_, fun hstop f hf r hfr hr x hx => ?_,
    fun x d hd he => ?_⟩
  · exact h.waits hstop x r (adjacent_cons.mpr (.inr hxr)) hr ht
  · refine (h.seen hstop f hf r hfr hr x hx).imp id fun hxr => ?_
    rcases adjacent_cons.mp hxr with ⟨hxc, -⟩ | hxr
    · cases hxc
      rw [(h.sane.seen f hf c hx).2] at hc
      cases hc
    · exact hxr
  · refine (h.live x d hd he).imp id fun hxr => ?_
    rcases adjacent_cons.mp hxr with ⟨hxc, -⟩ | hxr
    · cases hxc
      rw [(h.sane.edges c _ he).1] at hc
      cases hc
    · exact hxr

/-- An evaluation has completed. Whoever waited for it still does. -/
theorem Coherence.finish (h : Coherence [] ⟨s, past, none⟩) (hr : s.reader = some c) :
    Coherence [some c] ⟨s.leave c true, ⟨.ended c true, s.leave c true⟩ :: past, none⟩ := by
  obtain ⟨rest, hstack⟩ := reader_eq_some.mp hr
  obtain ⟨hc, hcase⟩ := h.sane.consumer c (mem_consumers_of_reader hr)
  have hself : (s.leave c true).cell c = _ := (cell_leave hc true c).trans (if_pos rfl)
  have hother : ∀ d, d ≠ c → (s.leave c true).cell d = s.cell d := fun d hd =>
    (cell_leave hc true d).trans (if_neg hd)
  have hvirtual : [some c] ++ (s.leave c true).stack = s.stack := by simp [hstack]
  refine h.transfer (h.sane.leave hr true) (by simp) (fun _ _ => rfl) (fun d hd => ?_)
    (fun x hx => ?_) (fun d x _ he => ?_) (fun x d _ he => ?_)
    (fun x d _ hxd => by simp only [hvirtual]; exact hxd)
    fun _ => .inr ⟨rfl, fun x r hxr ht => ⟨by simp only [hvirtual] at hxr; exact hxr, ?_⟩,
      fun f hf r hfr => ⟨f, List.mem_of_mem_tail hf, hfr, List.Subset.refl _⟩⟩
  · by_cases hdc : d = c
    · subst hdc
      obtain ⟨hk, hdd, hst⟩ := hd
      simp only [hself] at hk hdd hst ⊢
      refine ⟨⟨hk, hdd, .inr ⟨rfl, ?_⟩⟩, rfl⟩
      rcases hcase with ⟨-, hev, -⟩ | ⟨hdr, -⟩
      · refine ⟨hev, ?_⟩
        cases hdis : (s.cell d).disturbed with
        | false => rfl
        | true => simp [hdis] at hst
      · rw [hdr] at hdd
        cases hdd
    · have heq := hother d hdc
      exact ⟨hd.of_cell heq fun _ => rfl, by simp only [heq]⟩
  all_goals by_cases hxc : x = c
  · subst hxc
    simp only [hself]
    exact ⟨hx, trivial⟩
  · simp only [hother x hxc]
    exact ⟨hx, trivial⟩
  · subst hxc
    simp only [hself]
    rcases hcase with ⟨-, hev, -⟩ | ⟨hdr, -⟩
    · refine .inr ⟨he, fun hcl => by simp [hev] at hcl, fun _ hq => ?_⟩
      split at hq <;> cases hq
    · exact .inl ⟨hdr, trivial⟩
  · simp only [hother x hxc]
    exact .inr (.refl he)
  · subst hxc
    simpa only [hself] using he
  · simpa only [hother x hxc] using he
  · subst hxc
    simpa only [hself] using ht
  · simpa only [hother x hxc] using ht

/-- An evaluation is cut short. -/
theorem Coherence.abort {stop : Stop} {stop' : Option Stop}
    (h : Coherence [] ⟨s, past, some stop⟩) (hr : s.reader = some c)
    (hcaught : stop' = none → (s.leave c false).active = 0) :
    Coherence [] ⟨s.leave c false, ⟨.ended c false, s.leave c false⟩ :: past, stop'⟩ := by
  obtain ⟨hc, hcase⟩ := h.sane.consumer c (mem_consumers_of_reader hr)
  have hsane := h.sane.leave hr false
  have hself : (s.leave c false).cell c = _ := (cell_leave hc false c).trans (if_pos rfl)
  have hother : ∀ d, d ≠ c → (s.leave c false).cell d = s.cell d := fun d hd =>
    (cell_leave hc false d).trans (if_neg hd)
  have hnone : stop' = none → (s.leave c false).consumers = [] := fun hn =>
    List.eq_nil_of_length_eq_zero (hsane.active ▸ hcaught hn)
  -- what is sound afterwards is clean, and does not stand on the stack
  have hclean :
      ∀ d, Stage.Sound ⟨s.leave c false, ⟨.ended c false, s.leave c false⟩ :: past, stop'⟩ d →
        d ≠ c ∧ (s.cell d).state = .clean ∧ (s.cell d).dropped = false := by
    rintro d ⟨-, hd, hst⟩
    have hcl : ((s.leave c false).cell d).state = .clean := by
      rcases hst with hst | ⟨hn, hst, -⟩
      · exact hst
      · have hmem := hsane.evaluating d hst
        rw [hnone hn] at hmem
        cases hmem
    have hdc : d ≠ c := by
      rintro rfl
      simp [hself] at hcl
    simp only [hother d hdc] at hcl hd
    exact ⟨hdc, hcl, hd⟩
  have hoff : ∀ d, (s.cell d).state = .clean → (s.cell d).dropped = false → d ∉ s.consumers :=
    fun d hst hd => h.sane.not_mem_consumers hd (by simp [hst])
  refine h.transfer hsane (by simp) (fun _ _ => rfl) (fun d hd => ?_) (fun x hx => ?_)
    (fun d x _ he => ?_) (fun x d _ he => ?_) (fun x d hd hxd => ?_) fun hn => .inl ⟨rfl, hnone hn⟩
  · obtain ⟨hdc, hst, hdr⟩ := hclean d hd
    have heq := hother d hdc
    have hk := hd.1
    simp only [heq] at hk ⊢
    exact ⟨⟨hk, hdr, .inl hst⟩, trivial⟩
  · by_cases hxc : x = c
    · subst hxc
      simp only [hself]
      exact ⟨hx, trivial⟩
    · simp only [hother x hxc]
      exact ⟨hx, trivial⟩
  · by_cases hxc : x = c
    · subst hxc
      simp only [hself]
      rcases hcase with ⟨-, hev, -⟩ | ⟨hdr, -⟩
      · exact .inr ⟨he, fun hcl => by simp [hev] at hcl, fun _ => nofun⟩
      · exact .inl ⟨hdr, trivial⟩
    · simp only [hother x hxc]
      exact .inr (.refl he)
  · by_cases hxc : x = c
    · subst hxc
      simpa only [hself] using he
    · simpa only [hother x hxc] using he
  · obtain ⟨-, hst, hdr⟩ := hclean d hd
    exact absurd (mem_consumers.mpr hxd.mem.2) (hoff d hst hdr)

theorem Coherence.resume {stop : Stop} (h : Coherence [] ⟨s, past, some stop⟩)
    (hnone : s.consumers = []) : Coherence [] ⟨s, past, none⟩ := by
  refine h.transfer h.sane (Nat.le_refl _) (fun _ _ => rfl) (fun d hd => ?_)
    (fun x hx => ⟨hx, rfl⟩) (fun d x _ he => .inr (.refl he)) (fun x d _ he => he)
    (fun x d _ hxd => hxd) fun _ => .inl ⟨rfl, hnone⟩
  obtain ⟨hk, hdr, hst | ⟨-, hst, -⟩⟩ := hd
  · exact ⟨⟨hk, hdr, .inl hst⟩, rfl⟩
  · have hmem := h.sane.evaluating d hst
    rw [hnone] at hmem
    cases hmem

/-! ## Reads -/

theorem Store.Sane.not_adjacent_reader (h : s.Sane) {r : CellId} (hr : s.reader = some r) :
    ¬Adjacent s.stack x r := by
  obtain ⟨rest, hstack⟩ := reader_eq_some.mp hr
  intro hxr
  rw [hstack] at hxr
  have hn := h.nodup
  rw [consumers, hstack, List.reduceOption_cons_of_some, List.nodup_cons] at hn
  refine hn.1 (List.reduceOption_mem_iff.mpr ?_)
  rcases adjacent_cons.mp hxr with ⟨-, hhead⟩ | hxr
  · exact List.mem_of_mem_head? hhead
  · exact hxr.mem.2

theorem Coherence.edge_track
    (h : Coherence top ⟨s, past, stop⟩) (hc : c < s.cells.size) {d : CellId}
    (hd : Stage.Sound ⟨s, past, stop⟩ d) (he : (s.cell d).edge ∈ (s.cell x).dependents) :
    (s.cell d).edge ∈ ((s.track c).cell x).dependents := by
  by_cases hxc : x = c
  · subst hxc
    obtain ⟨edges, room, hcell, -, hkept, -⟩ := s.cell_track hc
    rw [hcell]
    refine hkept _ he ?_ fun r hr hself => ?_
    · rw [h.sane.arena.consumer?_eq_some.mpr ⟨hd.hasSlot h.sane, rfl⟩]
      rfl
    · rw [Stage.Sound.edge_inj h.sane hd hr hself]
  · rw [cell_track_ne hxc]
    exact he

theorem Coherence.of_edge_track
    (h : Coherence top ⟨s, past, stop⟩) (hc : c < s.cells.size) {d : CellId}
    (hd : Stage.Sound ⟨s, past, stop⟩ d) (he : (s.cell d).edge ∈ ((s.track c).cell x).dependents) :
    (s.cell d).edge ∈ (s.cell x).dependents ∨ x = c ∧ s.reader = some d := by
  by_cases hxc : x = c
  · subst hxc
    obtain ⟨edges, room, hcell, hof, -⟩ := s.cell_track hc
    rw [hcell] at he
    rcases hof _ he with he | ⟨r, hr, heq⟩
    · exact .inl he
    · have hrd := Stage.Sound.edge_inj h.sane hd hr (congrArg Edge.consumer heq).symm
      exact .inr ⟨rfl, hrd ▸ hr⟩
  · rw [cell_track_ne hxc] at he
    exact .inl he

theorem Store.track_same (s : Store K) (hc : c < s.cells.size) (d : CellId) :
    ∃ edges room, (s.track c).cell d = { s.cell d with dependents := edges, room := room } := by
  by_cases hdc : d = c
  · subst hdc
    obtain ⟨edges, room, hcell, -⟩ := s.cell_track hc
    exact ⟨edges, room, hcell⟩
  · exact ⟨_, _, cell_track_ne hdc⟩

/-- Frames keep what they have recorded, and the innermost one may record `c`. -/
theorem Store.frames_track (s : Store K) (c : CellId) :
    ∀ f' ∈ (s.track c).frames, ∀ r, f'.consumer = some r → ∃ f ∈ s.frames, f.consumer = some r ∧
      ∀ x ∈ f'.seen, x ∈ f.seen ∨ x = c ∧ s.reader = some r := by
  have ht := s.tracked c
  generalize s.track c = t at ht ⊢
  cases ht with
  | idle => exact fun f hf r hr => ⟨f, hf, hr, fun x hx => .inl hx⟩
  | @edge f rest d hf hd =>
    intro f' hf' r hr
    rcases List.mem_cons.mp hf' with rfl | hf'
    · refine ⟨f, hf ▸ .head _, hr, fun x hx => ?_⟩
      rcases List.mem_cons.mp hx with rfl | hx
      · exact .inr ⟨rfl, reader_of_frames hf hr⟩
      · exact .inl hx
    · exact ⟨f', hf ▸ .tail _ hf', hr, fun x hx => .inl hx⟩

/-- The innermost consumer records a read and waits for the cell. -/
theorem Coherence.track (h : Coherence [] ⟨s, past, none⟩) (hc : s.IsProperty c)
    (hd : (s.cell c).dropped = false) (hs : (s.cell c).state ≠ .evaluating) :
    Coherence [some c] ⟨s.track c, past, none⟩ := by
  have hsame := s.track_same hc.1
  have hsound : ∀ d, Stage.Sound ⟨s.track c, past, none⟩ d → Stage.Sound ⟨s, past, none⟩ d := by
    rintro d ⟨hk, hdd, hst⟩
    obtain ⟨edges, room, heq⟩ := hsame d
    simp only [heq] at hk hdd hst
    exact ⟨hk, hdd, hst.imp id fun h => ⟨rfl, h.2⟩⟩
  have hedge : ∀ d, ((s.track c).cell d).edge = (s.cell d).edge := fun d => by
    obtain ⟨edges, room, heq⟩ := hsame d
    rw [heq]
    rfl
  have hadj : ∀ x r, Adjacent s.stack x r → Adjacent ([some c] ++ (s.track c).stack) x r :=
    fun x r hxr =>
    adjacent_cons.mpr (.inr (by rwa [stack_track]))
  have hnew : ∀ r, s.reader = some r → Adjacent ([some c] ++ (s.track c).stack) c r := fun r hr =>
    adjacent_cons.mpr (.inl ⟨rfl, by rw [stack_track]; exact reader_eq_some_iff_head.mp hr⟩)
  refine ⟨h.sane.track hc hd, fun d hds x v hx => ?_, fun _ x r hxr hr ht => ?_,
    fun _ f' hf' r hfr hr x hx => ?_, fun x d hds he => ?_⟩
  · obtain ⟨hlt, hv, hcase⟩ := h.upheld d (hsound d hds) x v hx
    have hkept := fun he => h.edge_track hc.1 (hsound d hds) (x := x) he
    obtain ⟨edges, room, heq⟩ := hsame x
    simp only [Store.Holds, hedge, size_track]
    simp only [heq] at hkept ⊢
    exact ⟨hlt, hv, hcase.imp id fun ⟨hcl, he⟩ => ⟨hcl, hkept he⟩⟩
  · simp only [hedge]
    obtain ⟨edges, room, heq⟩ := hsame x
    rcases adjacent_cons.mp hxr with ⟨hxc, hhead⟩ | hxr
    · cases hxc
      rw [stack_track] at hhead
      have hr' := reader_eq_some_iff_head.mpr hhead
      obtain ⟨edges, room, hcell, -, -, hmade⟩ := s.cell_track hc.1
      refine .inr ⟨?_, fun hev => ?_⟩
      · rcases hmade r hr' with rfl | ⟨f, hf, hfr, hseen⟩ | he
        · exact absurd (mem_consumers_of_reader hr') (h.sane.not_mem_consumers hd hs)
        · rcases h.seen rfl f hf r hfr (hsound r hr) c hseen with ⟨v, hv⟩ | hcr
          · obtain ⟨-, -, hdr | ⟨-, he⟩⟩ := h.upheld r (hsound r hr) c v hv
            · rw [hd] at hdr
              cases hdr
            · exact h.edge_track hc.1 (hsound r hr) he
          · exact absurd hcr (h.sane.not_adjacent_reader hr')
        · simp only [hcell]
          exact he
      · simp only [hcell] at hev
        exact absurd hev hs
    · rw [stack_track] at hxr
      have ht' : (s.cell x).tracker = false := by
        simp only [heq] at ht
        exact ht
      rcases h.waits rfl x r hxr (hsound r hr) ht' with hdr | ⟨he, hq⟩
      · exact .inl (by simp only [heq]; exact hdr)
      · exact .inr ⟨h.edge_track hc.1 (hsound r hr) he, by simp only [Cell.Quiet, heq]; exact hq⟩
  · obtain ⟨f, hf, hfr', hseen⟩ := s.frames_track c f' hf' r hfr
    rcases hseen x hx with hx | ⟨rfl, hr'⟩
    · exact (h.seen rfl f hf r hfr' (hsound r hr) x hx).imp id (hadj x r)
    · exact .inr (hnew r hr')
  · simp only [hedge] at he
    rcases h.of_edge_track hc.1 (hsound d hds) he with he | ⟨rfl, hr⟩
    · exact (h.live x d (hsound d hds) he).imp id (hadj x d)
    · exact .inr (hnew d hr)

theorem Coherence.got (h : Coherence [some c] ⟨s, past, none⟩) (hc : c < s.cells.size)
    (ht : (s.cell c).tracker = false)
      (hgood : ∀ r, s.reader = some r → Stage.Sound ⟨s, past, none⟩ r → (s.cell c).dropped = true ∨
        (s.cell c).state = .clean) :
    Coherence [] ⟨s, ⟨.got c (s.cell c).value, s⟩ :: past, none⟩ := by
  have hreads : ∀ d, Chronicle.reads d (⟨.got c (s.cell c).value, s⟩ :: past) =
      if s.reader = some d then (c, (s.cell c).value) :: past.reads d else past.reads d :=
        fun _ => rfl
  have hmore : ∀ d x v, (x, v) ∈ past.reads d →
      (x, v) ∈ Chronicle.reads d (⟨.got c (s.cell c).value, s⟩ :: past) := fun d x v hx => by
    rw [hreads]
    split
    · exact .tail _ hx
    · exact hx
  -- the reader is the only one who waits for `c` at the top
  have hdone : ∀ x r, Adjacent ([some c] ++ s.stack) x r →
      (∃ v, (x, v) ∈ Chronicle.reads r (⟨.got c (s.cell c).value, s⟩ :: past)) ∨
        Adjacent s.stack x r := fun x r hxr => by
    rcases adjacent_cons.mp hxr with ⟨hxc, hhead⟩ | hxr
    · cases hxc
      refine .inl ⟨(s.cell c).value, ?_⟩
      rw [hreads, if_pos (reader_eq_some_iff_head.mpr hhead)]
      exact .head _
    · exact .inr hxr
  refine ⟨h.sane, fun d hd x v hx => ?_, fun hstop x r hxr hr hxt => ?_,
    fun hstop f hf r hfr hr x hx => ?_, fun x d hd he => ?_⟩
  · simp only [hreads] at hx
    split at hx
    · rename_i hr
      rcases List.mem_cons.mp hx with heq | hx
      · cases heq
        refine ⟨hc, rfl, ?_⟩
        have hadj : Adjacent ([some c] ++ s.stack) c d :=
          adjacent_cons.mpr (.inl ⟨rfl, reader_eq_some_iff_head.mp hr⟩)
        rcases h.waits rfl c d hadj hd ht with hdr | ⟨he, -⟩
        · exact .inl hdr
        · exact (hgood d hr hd).imp id fun hcl => ⟨hcl, he⟩
      · exact h.upheld d hd x v hx
    · exact h.upheld d hd x v hx
  · exact h.waits hstop x r (adjacent_cons.mpr (.inr hxr)) hr hxt
  · rcases h.seen hstop f hf r hfr hr x hx with ⟨v, hv⟩ | hxr
    · exact .inl ⟨v, hmore r x v hv⟩
    · exact hdone x r hxr
  · rcases h.live x d hd he with ⟨v, hv⟩ | hxd
    · exact .inl ⟨v, hmore d x v hv⟩
    · exact hdone x d hxd

theorem Store.Sane.edge_enter (h : s.Sane) (hc : c < s.cells.size) :
    ((s.enter c).cell c).edge ∉ (s.cell x).dependents := fun he => by
  rw [s.cell_enter hc, if_pos rfl] at he
  obtain ⟨-, -, hnew⟩ := h.arena.takeSlot hc
  rcases (h.edges x _ he).2 with ⟨d, hd, hself, hle⟩ | hret
  · by_cases hs : (s.cell c).hasSlot = true
    · simp only [Cell.edge, takeSlot_of_hasSlot hs] at hself hle
      rw [h.arena.self_inj hd hs hself] at hle
      exact Nat.not_succ_le_self _ hle
    · exact (hnew hs).2 d hd hself
  · by_cases hs : (s.cell c).hasSlot = true
    · simp only [Cell.edge, takeSlot_of_hasSlot hs] at hret
      exact hret.ne_self h.arena hs rfl
    · exact (hnew hs).1 _ hret rfl

/-- The evaluation that the innermost consumer waits for begins. -/
theorem Coherence.enter (h : Coherence [some c] ⟨s, past, none⟩) (hc : c < s.cells.size)
    (hd : (s.cell c).dropped = false) (hs : (s.cell c).state ≠ .evaluating)
    (hstale : (s.cell c).state = .dirty ∨ (s.cell c).tracker = true) :
    Coherence [] ⟨s.enter c, ⟨.began c, s⟩ :: past, none⟩ := by
  have hself : (s.enter c).cell c = _ := (s.cell_enter hc c).trans (if_pos rfl)
  have hother : ∀ d, d ≠ c → (s.enter c).cell d = s.cell d := fun d hdc =>
    (s.cell_enter hc d).trans (if_neg hdc)
  have hdeps : ∀ x, ((s.enter c).cell x).dependents = (s.cell x).dependents ∧
      ((s.enter c).cell x).tracker = (s.cell x).tracker := fun x => by
    by_cases hxc : x = c
    · subst hxc
      rw [hself]
      exact ⟨rfl, rfl⟩
    · rw [hother x hxc]
      exact ⟨rfl, rfl⟩
  have hoff : c ∉ s.consumers := h.sane.not_mem_consumers hd hs
  have hbelow : ∀ x r, Adjacent (some c :: s.stack) x r → r ≠ c := by
    rintro x r hxr rfl
    refine hoff (mem_consumers.mpr ?_)
    rcases adjacent_cons.mp hxr with ⟨-, hhead⟩ | hxr
    · exact List.mem_of_mem_head? hhead
    · exact hxr.mem.2
  have hsound : ∀ d, d ≠ c → Stage.Sound ⟨s.enter c, ⟨.began c, s⟩ :: past, none⟩ d →
      Stage.Sound ⟨s, past, none⟩ d := fun d hdc hds => hds.of_cell (hother d hdc) fun _ => rfl
  have hreads : ∀ d, d ≠ c → Chronicle.reads d (⟨.began c, s⟩ :: past) = past.reads d :=
    fun d hdc =>
    if_neg (Ne.symm hdc)
  have hstart : Chronicle.reads c (⟨.began c, s⟩ :: past) = [] := if_pos rfl
  refine ⟨h.sane.enter hc hd hs, fun d hds x v hx => ?_, fun _ x r hxr hr ht => ?_,
    fun _ f hf r hfr hr x hx => ?_, fun x d hds he => ?_⟩
  · by_cases hdc : d = c
    · subst hdc
      simp only [hstart] at hx
      cases hx
    · simp only [hreads d hdc] at hx
      obtain ⟨hlt, hv, hcase⟩ := h.upheld d (hsound d hdc hds) x v hx
      have hxc : x ≠ c := by
        rintro rfl
        rcases hcase with hdr | ⟨hcl, he⟩
        · rw [hd] at hdr
          cases hdr
        · rcases hstale with hst | htr
          · rw [hst] at hcl
            cases hcl
          · rw [(h.sane.edges x _ he).1] at htr
            cases htr
      simp only [Store.Holds, hother x hxc, hother d hdc, size_enter]
      exact ⟨hlt, hv, hcase⟩
  · simp only [List.nil_append, stack_enter] at hxr
    have hrc := hbelow x r hxr
    simp only [(hdeps x).2] at ht
    simp only [hother r hrc, (hdeps x).1]
    rcases h.waits rfl x r hxr (hsound r hrc hr) ht with hdr | ⟨he, hq⟩
    · left
      by_cases hxc : x = c
      · subst hxc
        rw [hd] at hdr
        cases hdr
      · simp only [hother x hxc]
        exact hdr
    · refine .inr ⟨he, ?_⟩
      by_cases hxc : x = c
      · subst hxc
        simp only [hself]
        exact fun _ => rfl
      · simp only [hother x hxc]
        exact hq
  · simp only [frames_enter] at hf
    rcases List.mem_cons.mp hf with rfl | hmem
    · cases hx
    · have hrc : r ≠ c := by
        rintro rfl
        exact hoff (mem_consumers.mpr (List.mem_map.mpr ⟨f, hmem, hfr⟩))
      simp only [hreads r hrc, List.nil_append, stack_enter]
      exact h.seen rfl f hmem r hfr (hsound r hrc hr) x hx
  · simp only [(hdeps x).1] at he
    have hdc : d ≠ c := by
      rintro rfl
      exact h.sane.edge_enter hc he
    simp only [hother d hdc] at he
    simp only [hreads d hdc, List.nil_append, stack_enter]
    exact h.live x d (hsound d hdc hds) he

/-- A cell that is being evaluated is read: the read is recorded and the run unwound. -/
theorem Coherence.refuse {stop : Stop} (h : Coherence [] ⟨s, past, none⟩)
    (hc : s.IsProperty c) (hd : (s.cell c).dropped = false) :
    Coherence [] ⟨s.track c, ⟨.refused c, s.track c⟩ :: past, some stop⟩ := by
  have hsame := s.track_same hc.1
  have hclean : ∀ d, Stage.Sound ⟨s.track c, ⟨.refused c, s.track c⟩ :: past, some stop⟩ d →
      (s.cell d).state = .clean ∧ Stage.Sound ⟨s, past, none⟩ d := by
    rintro d ⟨hk, hdd, hst | ⟨hn, -⟩⟩
    · obtain ⟨edges, room, heq⟩ := hsame d
      simp only [heq] at hk hdd hst
      exact ⟨hst, hk, hdd, .inl hst⟩
    · cases hn
  refine h.transfer (h.sane.track hc hd) (by simp) (fun _ _ => rfl) (fun d hds => ?_)
    (fun x hx => ?_) (fun d x hds he => .inr ?_) (fun x d hds he => ?_) (fun x d _ hxd => ?_) nofun
  · obtain ⟨edges, room, heq⟩ := hsame d
    exact ⟨(hclean d hds).2, by simp only [heq]; rfl⟩
  · obtain ⟨edges, room, heq⟩ := hsame x
    simp only [heq]
    exact ⟨hx, trivial⟩
  · have hkept := h.edge_track hc.1 (hclean d hds).2 he
    obtain ⟨edges, room, heq⟩ := hsame x
    simp only [heq] at hkept ⊢
    exact ⟨hkept, fun hcl => ⟨hcl, rfl⟩, id⟩
  · obtain ⟨hst, hd0⟩ := hclean d hds
    rcases h.of_edge_track hc.1 hd0 he with he | ⟨-, hr⟩
    · exact he
    · exact absurd (mem_consumers_of_reader hr) (h.sane.not_mem_consumers hd0.2.1 (by simp [hst]))
  · simp only [stack_track]
    exact hxd

/-- The innermost evaluation hands in its result. -/
theorem Coherence.keep (h : Coherence top ⟨s, past, none⟩) (hr : s.reader = some c)
    (bindings : Nat) (v : Value) : Coherence top ⟨s.keep c bindings v, past, none⟩ := by
  obtain ⟨hc, hcase⟩ := h.sane.consumer c (mem_consumers_of_reader hr)
  refine h.constant (h.sane.minor (.modify ..) (minor_keep s c bindings v))
    (by simp [Store.keep]) rfl (fun d => .of_minor (minor_keep s c bindings v d) fun hd => ?_)
      (fun _ => rfl) fun _ => rfl
  rw [Store.keep, cell_modify_of_lt hc]
  by_cases hdc : d = c
  · -- a cell under evaluation is not clean, and one that was dropped keeps its value
    subst hdc
    rw [if_pos rfl]
    rcases hcase with ⟨hdr, hev, -⟩ | ⟨hdr, -⟩
    · simp [hdr, hev] at hd
    · simp [hdr]
  · rw [if_neg hdc]

/-- An evaluation has completed, and whoever waited for it gets the value. -/
theorem Coherence.deliver (h : Coherence [] ⟨s, past, none⟩) (hr : s.reader = some c)
    (ht : (s.cell c).tracker = false) :
    Coherence [] ⟨s.leave c true, ⟨.got c ((s.leave c true).cell c).value, s.leave c true⟩ ::
      ⟨.ended c true, s.leave c true⟩ :: past, none⟩ := by
  obtain ⟨hc, hcase⟩ := h.sane.consumer c (mem_consumers_of_reader hr)
  have hself : (s.leave c true).cell c = _ := (cell_leave hc true c).trans (if_pos rfl)
  refine (h.finish hr).got (by simpa using hc) (by rw [hself]; exact ht) fun r hr' hsound => ?_
  obtain ⟨rest, hstack⟩ := reader_eq_some.mp hr
  have hhead := reader_eq_some_iff_head.mp hr'
  rw [stack_leave, hstack, List.tail_cons] at hhead
  have hadj : Adjacent s.stack c r := by
    rw [hstack]
    exact adjacent_cons.mpr (.inl ⟨rfl, hhead⟩)
  have hrc : r ≠ c := fun hrc => h.sane.not_adjacent_reader hr (hrc ▸ hadj)
  have hr0 : Stage.Sound ⟨s, past, none⟩ r :=
    hsound.of_cell ((cell_leave hc true r).trans (if_neg hrc)) fun _ => rfl
  rcases h.waits rfl c r hadj hr0 ht with hdr | ⟨-, hq⟩
  · rw [hself]
    exact .inl hdr
  · rcases hcase with ⟨-, hev, -⟩ | ⟨hdr, -⟩
    · right
      rw [hself]
      simp [hq hev]
    · rw [hself]
      exact .inl hdr

end

/-! ## Every step -/

theorem Step.coherence (step : Step k k') (h : Coherence [] k) : Coherence [] k' := by
  have hsane := step.sane h.sane
  cases step with
  | control | wrote =>
    exact h.constant hsane rfl rfl (fun _ => .refl _) (fun _ => rfl) fun _ => rfl
  | record => exact h.constant hsane rfl rfl (fun _ => .refl _) (fun _ => rfl) fun _ => rfl
  | @observe s _ c code =>
    exact h.constant hsane (sameAround_observe s c code).size rfl
      (constant_modify c
        (fun cell => { cell with observers := cell.observers ++ [s.observers.size] }) rfl fun _ =>
          ⟨rfl, id, rfl, rfl, rfl, rfl, rfl, fun _ => rfl⟩) (fun _ => rfl) fun _ => rfl
  | @unobserve s _ o =>
    refine h.constant hsane (sameAround_unobserve s o).size (sameAround_unobserve s o).frames
      (fun d => ?_) (fun _ => rfl) fun _ => rfl
    unfold Store.unobserve
    split
    · exact .refl _
    · rename_i observer _
      exact constant_modify observer.cell
        (fun cell => { cell with observers := cell.observers.filter (· != o) }) rfl
        (fun _ => ⟨rfl, id, rfl, rfl, rfl, rfl, rfl, fun _ => rfl⟩) d
  | add hb => exact h.add hb
  | @shelter s _ =>
    refine h.reframe hsane rfl (fun _ => rfl) (fun x r => ?_) fun f hf r hfr => ?_
    · have hstack : (s.pushFrame none).stack = none :: s.stack := rfl
      simp [hstack, adjacent_cons]
    · rcases List.mem_cons.mp hf with rfl | hf
      · cases hfr
      · exact hf
  | @unshelter s _ _ seen rest hf =>
    refine h.reframe hsane rfl (fun _ => rfl) (fun x r => ?_) fun f hf r hfr =>
      List.mem_of_mem_tail hf
    have hstack : s.stack = none :: s.popFrame.stack := by simp [stack, popFrame, hf]
    simp [hstack, adjacent_cons]
  | readDropped hc hd =>
    exact (h.await (.inr hd)).got hc.1 hc.2 fun _ _ _ => .inl hd
  | @readClean s _ c hc hd hs =>
    obtain ⟨edges, room, heq⟩ := s.track_same hc.1 c
    have hgot := (h.track hc hd (by simp [hs])).got (by simpa using hc.1) (by rw [heq]; exact hc.2)
      fun _ _ _ => .inr (by rw [heq]; exact hs)
    rw [heq] at hgot
    exact hgot
  | @readUnbound s t _ c hc hd hs hb ht =>
    obtain ⟨edges, room, heq⟩ := s.track_same hc.1 c
    have hlt : c < (s.track c).cells.size := by simpa using hc.1
    have hsettle := (h.track hc hd (by simp [hs])).settle ⟨hlt, by rw [heq]; exact hc.2⟩
      (by rw [heq]; exact hs) (by rw [heq]; exact hb)
    rw [← ht] at hsettle
    have hcell :
        t.cell c = { s.cell c with dependents := edges, room := room, state := .clean } := by
      rw [ht, cell_modify_self hlt, heq]
    have hgot := hsettle.got (by rw [ht]; simpa using hlt) (by rw [hcell]; exact hc.2)
      fun _ _ _ => .inr (by rw [hcell])
    rw [hcell] at hgot
    exact hgot
  | @beginRead s _ c hc hd hs hb =>
    obtain ⟨edges, room, heq⟩ := s.track_same hc.1 c
    have hst : ((s.track c).cell c).state = .dirty := by rw [heq]; exact hs
    exact (h.track hc hd (by simp [hs])).enter (by simpa using hc.1) (by rw [heq]; exact hd)
      (by simp [hst]) (.inl hst)
  | beginWork ht hd hs => exact (h.await (.inl ht.2)).enter ht.1 hd hs (.inr ht.2)
  | refuseRead hc hd hs => exact h.refuse hc hd
  | refuseWork ht hd hs =>
    exact h.constant hsane rfl rfl (fun _ => .refl _) (fun _ => rfl) (by simp)
  | fail hs => exact h.constant hsane rfl rfl (fun _ => .refl _) (fun _ => rfl) (by simp)
  | finishRead bindings v hr ht heq =>
    exact heq ▸ (h.keep hr bindings v).deliver hr ((minor_keep _ _ bindings v _).tracker.trans ht)
  | @finishWork s _ t hr ht =>
    have hc := (h.sane.consumer t (mem_consumers_of_reader hr)).1
    exact (h.finish hr).dismiss (by rw [cell_leave hc, if_pos rfl]; exact ht)
  | abort hr => exact h.abort hr (by simp)
  | caught hr ha => exact h.abort hr fun _ => ha
  | resume hf => exact h.resume (by simp [consumers, stack, hf])
  | @write s _ c v hc hd =>
    have hroot := h.sane.isProperty_linkRoot hc
    obtain ⟨hr, hb, -⟩ := ripple_written h.sane.arena hroot.1 v
    refine h.ripple hsane hr (dropped_linkRoot hd) (.inr ?_)
    simp [Cell.Computed, hb, (hr.alike _).tracker, hroot.2]
  | @rebind s _ c b hc hd hb =>
    obtain ⟨hr, hf⟩ := ripple_rebind h.sane.arena hc.1 b
    exact h.ripple hsane hr hd (.inl hf)
  | @pair s _ c root hr =>
    exact h.constant hsane (by simp) rfl
      (constant_modify c (fun cell => { cell with partner := some root }) rfl
        fun _ => ⟨rfl, id, rfl, rfl, rfl, rfl, rfl, fun _ => rfl⟩) (fun _ => rfl) fun _ => rfl
  | drop hc => exact h.drop hc
  | forget ht hd =>
    obtain ⟨hr, hf⟩ := ripple_forget h.sane.arena ht.1
    exact h.ripple hsane hr hd (.inl hf)

theorem Path.coherence (path : Path k k') (h : Coherence [] k) : Coherence [] k' := by
  induction path with
  | refl => exact h
  | tail _ step ih => exact step.coherence ih

end ReactiveTree
