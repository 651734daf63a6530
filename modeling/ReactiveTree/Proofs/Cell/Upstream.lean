import ReactiveTree.Proofs.Cell.Coherence
import ReactiveTree.Proofs.Cell.Fate
import ReactiveTree.Proofs.Cell.Tended

/-!
# What a cell depends on

A write marks the cells that depend on the one written, along live edges. This file has the
converse of what `Marking` says: a cell is touched exactly if it can be reached that way, through
cells that were not marked before (`mem_invalidate`). So a tracker whose work is not in progress
stays as it is, and so does the list of what it has read, as long as nothing upstream of it is
written and its work is not begun again (`PathOver.still`).
-/

namespace ReactiveTree

variable {S : Type} {K : Type → Type} {α : Type}
variable {g : Cell K → Cell K} {c d t : CellId} {k k' : Stage K} {s : Store K}

namespace Store

/-- The cell `c` has a live edge to `d`: the latest evaluation of `d` has read `c`. -/
def Feeds (s : Store K) (c d : CellId) : Prop :=
  ∃ e ∈ (s.cell c).dependents, s.consumer? e = some d

instance (s : Store K) (c d : CellId) : Decidable (s.Feeds c d) :=
  inferInstanceAs (Decidable (∃ e ∈ _, _))

/-- `d` is `c`, or depends on it directly or through other cells. -/
def Upstream (s : Store K) : CellId → CellId → Prop := Relation.ReflTransGen s.Feeds

/-- A live edge to a cell that marking does not pass by. -/
def Spreads (s : Store K) (c d : CellId) : Prop := s.Feeds c d ∧ (s.cell d).Fresh

/-- `d` is `c`, or is reached from it along live edges to cells that marking does not pass by. -/
def Touched (s : Store K) : CellId → CellId → Prop := Relation.ReflTransGen s.Spreads

theorem Touched.upstream (h : s.Touched c d) : s.Upstream c d :=
  Relation.ReflTransGen.mono (fun _ _ h => h.1) _ _ h

theorem Touched.fresh (h : s.Touched c d) (hd : d ≠ c) : (s.cell d).Fresh := by
  cases h with
  | refl => exact absurd rfl hd
  | tail _ h => exact h.2

theorem Upstream.ne (h : ¬s.Upstream c d) : d ≠ c := by
  rintro rfl
  exact h .refl

/-- What is reached from `root` does not depend on the edges to `root` itself. -/
theorem Touched.of_fewer {t : Store K} {root : CellId}
    (hedges : ∀ x, (t.cell x).dependents ⊆ (s.cell x).dependents)
    (hcell : ∀ y, y ≠ root → t.cell y = s.cell y) (hr : SameAround s t)
    (h : t.Touched root d) : s.Touched root d := by
  induction h with
  | refl => exact .refl
  | @tail x y _ hxy ih =>
    by_cases hy : y = root
    · rw [hy]
      exact .refl
    · obtain ⟨⟨e, he, hey⟩, hf⟩ := hxy
      rw [hcell y hy] at hf
      rw [consumer?_eq_some, hr.resolve, hcell y hy, ← consumer?_eq_some] at hey
      exact .tail ih ⟨⟨e, hedges x he, hey⟩, hf⟩

/-- Whatever marking finds is reached from the cells it began with. -/
theorem touched_of_mem_spread (limit : Nat) (ha : Arena s) (work marked : List CellId)
    (hd : d ∈ (s.spread limit work marked).2) : d ∈ marked ∨ ∃ c ∈ work, s.Touched c d := by
  induction limit generalizing s work marked with
  | zero => exact .inl hd
  | succ limit ih =>
    cases work with
    | nil => exact .inl hd
    | cons c work =>
      have hclear := SameAround.modify s c Cell.clear
      have hconsumer := hclear.consumer?
        (proj_modify Cell.epoch (f := Cell.clear) (fun _ => rfl) s c)
      have ha1 : Arena (s.modify c Cell.clear) := ha.modify fun _ => ⟨rfl, rfl⟩
      have hfresh := proj_modify Cell.Fresh (f := Cell.clear) (fun _ => rfl) s c
      obtain ⟨found, hfound, -, hsp, hmem⟩ := markAll_spec (s.cell c).dependents ha1 []
      rw [List.append_nil] at hfound
      have hturn : s.spread (limit + 1) (c :: work) marked =
          ((s.modify c Cell.clear).markAll [] (s.cell c).dependents).1.spread limit
            (found ++ work) (found ++ marked) := by
        rw [spread, ← hfound]
        rfl
      -- the cells found in this turn have an edge from `c`
      have hone : ∀ x ∈ found, s.Spreads c x := fun x hx => by
        obtain ⟨hf, e, he, hex⟩ := (hmem x).mp hx
        exact ⟨⟨e, he, (hconsumer e).symm.trans hex⟩, by rwa [hfresh] at hf⟩
      have hfewer :
          ∀ x y, Spreads ((s.modify c Cell.clear).markAll [] (s.cell c).dependents).1 x y →
            s.Spreads x y := by
        rintro x y ⟨⟨e, he, hey⟩, hf⟩
        refine ⟨⟨e, ?_, ?_⟩, ?_⟩
        · rw [hsp.cells] at he
          have hsub : e ∈ ((s.modify c Cell.clear).cell x).dependents := by
            by_cases hx : x ∈ found <;> simpa [hx] using he
          rw [cell_modify] at hsub
          split at hsub
          · cases hsub
          · exact hsub
        · rwa [hsp.around.consumer? hsp.epoch, hconsumer] at hey
        · rw [hsp.cells] at hf
          split at hf
          · exact absurd hf (Cell.not_fresh_spoil _)
          · rwa [hfresh] at hf
      rw [hturn] at hd
      rcases ih (hsp.arena ha1) (found ++ work) (found ++ marked) hd with hd | ⟨x, hx, hxd⟩
      · rcases List.mem_append.mp hd with hd | hd
        · exact .inr ⟨c, by simp, .single (hone d hd)⟩
        · exact .inl hd
      · have hxd : s.Touched x d := Relation.ReflTransGen.mono hfewer _ _ hxd
        rcases List.mem_append.mp hx with hx | hx
        · exact .inr ⟨c, by simp, .head (hone x hx) hxd⟩
        · exact .inr ⟨x, by simp [hx], hxd⟩

section

variable {s : Store K} {c d : CellId}

/-- Marking lists what it touches. -/
theorem mem_invalidate (ha : Arena s) (hc : c < s.cells.size) :
    d ∈ (s.invalidate c).2 ↔ s.Touched c d := by
  constructor
  · intro hd
    have hd : d ∈ c :: (s.spread (s.cells.size + 1) [c] []).2.reverse := hd
    rcases List.mem_cons.mp hd with rfl | hd
    · exact .refl
    · rcases touched_of_mem_spread _ ha [c] [] (List.mem_reverse.mp hd) with hd | ⟨x, hx, hxd⟩
      · cases hd
      · rwa [List.mem_singleton.mp hx] at hxd
  · -- a cell that is reached and was not found would still be fresh
    obtain ⟨found, hlist, hsp⟩ := invalidate_spec ha hc
    intro h
    rw [hlist]
    induction h with
    | refl => exact List.mem_cons_self
    | @tail x y _ hxy ih =>
      obtain ⟨⟨e, he, hey⟩, hf⟩ := hxy
      have hx : x ∈ [c] ∨ x ∈ found := by simpa using ih
      have hy := hsp.closed x hx e he y hey
      rw [hsp.cells] at hy
      by_cases hmem : y ∈ found
      · simp [hmem]
      · rw [if_neg hmem] at hy
        split at hy
        · exact absurd hf hy
        · exact absurd hf hy

theorem cell_invalidate (ha : Arena s) (hc : c < s.cells.size) (hd : d ≠ c) :
    (s.invalidate c).1.cell d =
      if d ∈ (s.invalidate c).2 then (s.cell d).clear.spoil else s.cell d := by
  obtain ⟨found, hlist, hsp⟩ := invalidate_spec ha hc
  rw [hlist, hsp.cells]
  by_cases hf : d ∈ found <;> simp [hf, hd]

/-- A change of one cell, which it takes part in none of the edges to. -/
theorem touched_modify (hg : ∀ cell, (g cell).dependents = cell.dependents) :
    (s.modify c g).Touched c d ↔ s.Touched c d := by
  have hedges := proj_modify Cell.dependents hg s c
  have hr := SameAround.modify s c g
  exact ⟨.of_fewer (fun x => by rw [hedges]; exact List.Subset.refl _)
    (fun y hy => cell_modify_ne hy g) hr, .of_fewer
    (fun x => by rw [hedges]; exact List.Subset.refl _)
      (fun y hy => (cell_modify_ne hy g).symm) hr.symm⟩

/-- What the first part of a write, which removes the binding, leaves as it is. -/
theorem detached_spec (ha : Arena s) (hc : c < s.cells.size) :
    ∃ t, (if (s.cell c).binding.isSome then s.detach c else s) = t ∧ Arena t ∧
      c < t.cells.size ∧ (∀ d, d ≠ c → t.cell d = s.cell d) ∧ ∀ d, t.Touched c d ↔
        s.Touched c d := by
  refine ⟨_, rfl, ?_⟩
  split
  · exact ⟨ha.modify fun _ => ⟨rfl, rfl⟩, by simpa [detach] using hc,
      fun d hd => cell_modify_ne hd _, fun d => touched_modify fun _ => by rfl⟩
  · exact ⟨ha, hc, fun _ _ => rfl, fun _ => .rfl⟩

theorem mem_toldOfWrite (ha : Arena s) (hc : c < s.cells.size) (v : Value) :
    d ∈ (s.toldOfWrite c v).getD [] ↔ (s.toldOfWrite c v).isSome ∧ s.Touched c d := by
  obtain ⟨t, ht, hat, hct, -, htouched⟩ := detached_spec ha hc
  unfold toldOfWrite
  simp only [ht]
  split
  · simp
  · have hat' : Arena (t.modify c fun cell => { cell with value := v }) :=
      hat.modify fun _ => ⟨rfl, rfl⟩
    rw [← htouched, ← touched_modify (g := fun cell => { cell with value := v }) fun _ => by rfl,
      ← mem_invalidate hat' (by simpa using hct)]
    simp

theorem cell_written (ha : Arena s) (hc : c < s.cells.size) (v : Value) (hne : d ≠ c) :
    (s.written c v).cell d =
      if d ∈ (s.toldOfWrite c v).getD [] then (s.cell d).clear.spoil else s.cell d := by
  obtain ⟨t, ht, hat, hct, hcell, -⟩ := detached_spec ha hc
  unfold toldOfWrite written
  simp only [ht]
  split
  · exact hcell d hne
  · have hat' : Arena (t.modify c fun cell => { cell with value := v }) :=
      hat.modify fun _ => ⟨rfl, rfl⟩
    rw [cell_invalidate hat' (by simpa using hct) hne, cell_modify_ne hne, hcell d hne]
    rfl

theorem touched_of_toldOfUpset (ha : Arena s) (hc : c < s.cells.size) {cells : List CellId}
    (h : s.toldOfUpset c = some cells) (hd : d ∈ cells) : s.Touched c d := by
  unfold toldOfUpset at h
  split at h
  · cases h
    obtain ⟨-, hr, hcells⟩ := mark_spec hc
    have hsame : SameSlots s (s.mark c).2 := fun x => by
      rw [hcells]
      split <;> simp_all
    have hlt : c < (s.mark c).2.cells.size := by rw [hr.size]; exact hc
    refine Touched.of_fewer (fun x => ?_) (fun y hy => by rw [hcells, if_neg hy]) hr
      ((mem_invalidate (ha.transfer hr.slots hr.free hsame) hlt).mp hd)
    rw [hcells]
    split
    · rename_i hx
      rw [hx, Cell.dependents_spoil]
      exact List.Subset.refl _
    · exact List.Subset.refl _
  · cases h

theorem cell_upset (ha : Arena s) (hc : c < s.cells.size) (hne : d ≠ c)
    (hd : ∀ cells, s.toldOfUpset c = some cells → d ∉ cells) : (s.upset c).cell d = s.cell d := by
  obtain ⟨-, hr, hcells⟩ := mark_spec hc
  unfold toldOfUpset at hd
  unfold upset
  split
  · rename_i hmark
    rw [if_pos hmark] at hd
    have hsame : SameSlots s (s.mark c).2 := fun x => by
      rw [hcells]
      split <;> simp_all
    rw [cell_invalidate (ha.transfer hr.slots hr.free hsame) (by rw [hr.size]; exact hc) hne,
      if_neg (hd _ rfl), hcells, if_neg hne]
  · rw [hcells, if_neg hne]

theorem cell_upset_modify (ha : Arena s) (hc : c < s.cells.size)
    (hg : ∀ cell, (g cell).dependents = cell.dependents ∧ (g cell).hasSlot = cell.hasSlot ∧
      (g cell).self = cell.self)
    (hfar : ¬s.Upstream c d) : ((s.modify c g).upset c).cell d = s.cell d := by
  have ha' : Arena (s.modify c g) := ha.modify fun cell => (hg cell).2
  have hc' : c < (s.modify c g).cells.size := by simpa using hc
  rw [cell_upset ha' hc' (Upstream.ne hfar) fun cells hcells hmem => hfar ((touched_modify
    fun cell => (hg cell).1).mp (touched_of_toldOfUpset ha' hc' hcells hmem)).upstream,
      cell_modify_ne (Upstream.ne hfar)]

theorem mem_toldOfUpset (hc : c < s.cells.size) (hf : (s.cell c).Fresh) :
    ∃ cells, s.toldOfUpset c = some cells ∧ c ∈ cells := by
  have hmark := ((mark_spec hc).1).mpr hf
  unfold toldOfUpset
  rw [if_pos hmark]
  exact ⟨_, rfl, List.mem_cons_self⟩

theorem clean_or_told (ha : Arena s) (hc : c < s.cells.size)
    (hother : d ≠ c → (s.cell d).state = .clean)
    (hself : d = c → ∃ cells, s.toldOfUpset c = some cells ∧ d ∈ cells) :
    ((s.upset c).cell d).state = .clean ∨ ∃ cells, s.toldOfUpset c = some cells ∧ d ∈ cells := by
  by_cases htold : ∃ cells, s.toldOfUpset c = some cells ∧ d ∈ cells
  · exact .inr htold
  · have hne := fun h => htold (hself h)
    rw [cell_upset ha hc hne fun cells hcells hmem => htold ⟨cells, hcells, hmem⟩]
    exact .inl (hother hne)

end

end Store

open Store

/-! ## Runs that tell a tracker nothing -/

/-- What happened here does not concern the tracker `t`. -/
structure Moment.Spares (t : CellId) (m : Moment K) : Prop where
  began : m.event ≠ .began t
  wrote : ∀ c, m.event = .wrote c → ¬m.store.Upstream c t ∧ ¬m.store.Upstream (m.store.linkRoot c) t

/-- From `k` to `k'` the tracker `t` was left alone: idle, or waiting for what its work is
doing. -/
structure Stage.Still (t : CellId) (k k' : Stage K) : Prop where
  state : (k'.store.cell t).state = (k.store.cell t).state
  disturbed : (k'.store.cell t).disturbed = (k.store.cell t).disturbed
  idle : t ∉ k.store.consumers → t ∉ k'.store.consumers ∧ k'.past.reads t = k.past.reads t

theorem Chronicle.reads_got {x : CellId} {v : Value} {past : Chronicle K}
    (h : t ∉ s.consumers) : Chronicle.reads t (⟨.got x v, s⟩ :: past) = past.reads t := by
  have hr : s.reader ≠ some t := fun hr => h (mem_consumers_of_reader hr)
  simp [Chronicle.reads, hr]

theorem Chronicle.reads_began (h : c ≠ t) (s : Store K) (past : Chronicle K) :
    Chronicle.reads t (⟨.began c, s⟩ :: past) = past.reads t := by
  simp [Chronicle.reads, h]

section

variable {s u : Store K} {t : CellId} {past past' : Chronicle K} {stop stop' : Option Stop}

theorem Stage.Still.of_cell (hstate : (u.cell t).state = (s.cell t).state)
    (hdisturbed : (u.cell t).disturbed = (s.cell t).disturbed) (hstack : u.stack = s.stack)
    (hreads : t ∉ s.consumers → past'.reads t = past.reads t) :
    Stage.Still t ⟨s, past, stop⟩ ⟨u, past', stop'⟩ :=
  ⟨hstate, hdisturbed, fun hq => ⟨by rw [consumers, hstack]; exact hq, hreads hq⟩⟩

theorem Stage.Still.of_same (hcell : u.cell t = s.cell t) (hstack : u.stack = s.stack)
    (hreads : t ∉ s.consumers → past'.reads t = past.reads t) :
    Stage.Still t ⟨s, past, stop⟩ ⟨u, past', stop'⟩ :=
  .of_cell (by rw [hcell]) (by rw [hcell]) hstack hreads

theorem Stage.Still.of_minor (h : (s.cell t).Minor (u.cell t)) (hstack : u.stack = s.stack) :
    Stage.Still t ⟨s, past, stop⟩ ⟨u, past, stop'⟩ :=
      .of_cell h.state h.disturbed hstack fun _ => rfl

theorem Stage.Still.enter (hc : c < s.cells.size) (hne : t ≠ c) :
    Stage.Still t ⟨s, past, none⟩ ⟨s.enter c, ⟨.began c, s⟩ :: past, none⟩ := by
  have hcell : (s.enter c).cell t = s.cell t := by rw [cell_enter _ hc, if_neg hne]
  refine ⟨by rw [hcell], by rw [hcell], fun hq => ⟨?_, Chronicle.reads_began hne.symm ..⟩⟩
  rw [mem_consumers, stack_enter]
  rw [mem_consumers] at hq
  simp [hq, hne]

/-- An evaluation of another cell ends. -/
theorem Stage.Still.leave (hne : t ≠ c) {completed : Bool}
    (hreads : t ∉ (s.leave c completed).consumers → past'.reads t = past.reads t) :
    Stage.Still t ⟨s, past, stop⟩ ⟨s.leave c completed, past', stop'⟩ := by
  have hcell : (s.leave c completed).cell t = s.cell t := by
    show (Store.modify _ c _).cell t = _
    rw [cell_modify_ne hne]
    rfl
  refine ⟨by rw [hcell], by rw [hcell], fun hq => ?_⟩
  have hout : t ∉ (s.leave c completed).consumers := by
    rw [mem_consumers, stack_leave]
    rw [mem_consumers] at hq
    exact fun h => hq (List.mem_of_mem_tail h)
  exact ⟨hout, hreads hout⟩

/-- What happens to other cells first does not matter. -/
theorem Stage.Still.after {s1 : Store K} (hcell : s1.cell t = s.cell t)
    (hstack : s1.stack = s.stack) (h : Stage.Still t ⟨s1, past, stop⟩ ⟨u, past', stop'⟩) :
    Stage.Still t ⟨s, past, stop⟩ ⟨u, past', stop'⟩ :=
  ⟨h.state.trans (by rw [hcell]), h.disturbed.trans (by rw [hcell]),
    fun hq => h.idle (by rwa [consumers, hstack])⟩

theorem Store.IsTracker.ne (ht : s.IsTracker t) (hc : s.IsProperty c) : t ≠ c := by
  rintro rfl
  cases hc.2.symm.trans ht.2

/-- The evaluation that ends is not one that goes on. -/
theorem ne_of_leave (hs : s.Sane) (hr : s.reader = some c) {completed : Bool}
    (h : t ∈ s.consumers → t ∈ (s.leave c completed).consumers) : t ≠ c := by
  rintro rfl
  have htail := mem_consumers.mp (h (mem_consumers_of_reader hr))
  have hnodup := hs.nodup
  rw [reader_eq_some_iff_head] at hr
  obtain ⟨rest, hrest⟩ := List.head?_eq_some_iff.mp hr
  rw [stack_leave, hrest, List.tail_cons] at htail
  rw [consumers, hrest, List.reduceOption_cons_of_some, List.nodup_cons] at hnodup
  exact hnodup.1 (List.reduceOption_mem_iff.mpr htail)

end

/-- One step that does not concern a tracker and does not end its work. -/
theorem Step.still (step : Step k k') (hs : k.store.Sane)
    (ht : k.store.IsTracker t) (hgoes : t ∈ k.store.consumers → t ∈ k'.store.consumers)
    (hlive : (k'.store.cell t).dropped = false) (hhead : ∀ m ∈ k.past.head?, m.Spares t)
    (hhead' : ∀ m ∈ k'.past.head?, m.Spares t) : k.Still t k' := by
  cases step with
  | control | wrote => exact .of_same rfl rfl fun _ => rfl
  | record e => exact .of_same rfl rfl fun _ => rfl
  | observe c code =>
    exact .of_minor (minor_observe _ c code t)
      (by rw [stack, stack, (sameAround_observe ..).frames])
  | unobserve o =>
    exact .of_minor (minor_unobserve _ o t) (by rw [stack, stack, (sameAround_unobserve ..).frames])
  | @add s past cell h =>
    have hcell : (s.add cell).2.cell t = s.cell t := by rw [cell_add, if_neg ht.1.ne]
    exact .of_same hcell rfl fun _ => rfl
  | shelter =>
    refine ⟨rfl, rfl, fun hq => ⟨fun h => hq ?_, rfl⟩⟩
    rw [mem_consumers] at h ⊢
    exact (List.mem_cons.mp h).resolve_left (by simp)
  | unshelter h =>
    refine ⟨rfl, rfl, fun hq => ⟨fun h' => hq ?_, rfl⟩⟩
    rw [mem_consumers] at h' ⊢
    rw [stack, popFrame] at h'
    exact List.mem_of_mem_tail (by simpa [stack, List.map_tail] using h')
  | readDropped h hd => exact .of_same rfl rfl Chronicle.reads_got
  | readClean h hd hst =>
    exact .after (cell_track_ne (ht.ne h)) (stack_track ..) (.of_same rfl rfl Chronicle.reads_got)
  | readUnbound h hd hst hb hu =>
    subst hu
    exact .after (cell_track_ne (ht.ne h)) (stack_track ..)
      (.of_same (cell_modify_ne (ht.ne h) _) rfl Chronicle.reads_got)
  | beginRead h hd hst hb =>
    exact .after (cell_track_ne (ht.ne h)) (stack_track ..)
      (.enter (by simpa using h.1) (ht.ne h))
  | beginWork h hd hst => exact .enter h.1 fun hc => (hhead' _ rfl).began (by rw [hc])
  | refuseRead h hd hst =>
    exact .of_same (cell_track_ne (ht.ne h)) (stack_track ..) fun _ => rfl
  | refuseWork h hd hst => exact .of_same rfl rfl fun _ => rfl
  | fail h => exact .of_same rfl rfl fun _ => rfl
  | @finishRead s u past c bindings v hr htr hu =>
    have hne : t ≠ c := by
      rintro rfl
      cases ht.2.symm.trans htr
    subst hu
    -- the value is kept, and then the evaluation ends
    exact .after (cell_modify_ne hne _) rfl (.leave hne Chronicle.reads_got)
  | finishWork hr htr => exact .leave (ne_of_leave hs hr hgoes) fun _ => rfl
  | abort hr => exact .leave (ne_of_leave hs hr hgoes) fun _ => rfl
  | caught hr ha => exact .leave (ne_of_leave hs hr hgoes) fun _ => rfl
  | resume h => exact .of_same rfl rfl fun _ => rfl
  | @write s past c v h hd =>
    have hfar := ((hhead _ rfl).wrote c rfl).2
    have hroot := (hs.isProperty_linkRoot h).1
    have hr := (ripple_written hs.arena hroot v).1.around
    have hcell : (s.written (s.linkRoot c) v).cell t = s.cell t := by
      rw [cell_written hs.arena hroot v (Upstream.ne hfar), if_neg fun hmem =>
        hfar ((mem_toldOfWrite hs.arena hroot v).mp hmem).2.upstream]
    exact .of_same hcell (by rw [stack, stack, hr.frames]) fun _ => rfl
  | @rebind s past c b h hd hb =>
    have hfar := ((hhead _ rfl).wrote c rfl).1
    have hr := (ripple_rebind hs.arena h.1 b).1.around
    exact .of_same (cell_upset_modify hs.arena h.1 (fun _ => ⟨rfl, rfl, rfl⟩) hfar)
      (by rw [stack, stack, hr.frames]) fun _ => rfl
  | @pair s past c root hr =>
    exact .of_cell (proj_modify Cell.state (fun _ => by rfl) s c t)
      (proj_modify Cell.disturbed (fun _ => by rfl) s c t) rfl fun _ => rfl
  | @drop s past c h =>
    have hcell := cell_drop h t
    by_cases hc : t = c
    · rw [hcell, if_pos hc] at hlive
      split at hlive
      · rename_i hdropped
        cases hdropped.symm.trans hlive
      · cases hlive
    · rw [if_neg hc] at hcell
      exact .of_same hcell (stack_drop ..) fun _ => rfl
  | @forget s past c h hd =>
    have hfar := ((hhead _ rfl).wrote c rfl).1
    have hr := (ripple_forget hs.arena h.1).1.around
    exact .of_same (cell_upset_modify hs.arena h.1 (fun _ => ⟨rfl, rfl, rfl⟩) hfar)
      (by rw [stack, stack, hr.frames]) fun _ => rfl

/-- A run that does not concern a tracker and does not end its work. -/
theorem PathOver.still {base : List (Option CellId)} (path : PathOver base k k')
    (hs : k.store.Sane) (ht : k.store.IsTracker t) (hbase : t ∈ k.store.consumers → some t ∈ base)
    (hlive : (k'.store.cell t).dropped = false) (hhead : ∀ m ∈ k.past.head?, m.Spares t)
    {new : Chronicle K} (hnew : k'.past = new ++ k.past) (hspares : ∀ m ∈ new, m.Spares t) :
    k.Still t k' := by
  induction path generalizing new with
  | refl => exact ⟨rfl, rfl, fun hq => ⟨hq, rfl⟩⟩
  | @tail k1 k' path step ih =>
    have hpath := PathOver.path path
    have hs1 := Path.sane hpath hs
    obtain ⟨old, hold⟩ := Path.past_suffix hpath
    obtain ⟨late, hlate⟩ := step.1.past_suffix
    have hsplit : new = late ++ old := by
      apply (List.append_left_inj k.past).mp
      rw [← hnew, ← hlate, ← hold, List.append_assoc]
    subst hsplit
    have hlive1 : (k1.store.cell t).dropped = false := by
      by_contra hd
      rw [(Aged.of_step step.1).gone (by simpa using hd)] at hlive
      cases hlive
    have hstill := ih hlive1 hold.symm fun m hm => hspares m (List.mem_append_right _ hm)
    have hgoes : t ∈ k1.store.consumers → t ∈ k'.store.consumers := fun hmem => by
      by_cases hq : t ∈ k.store.consumers
      · exact mem_consumers.mpr (step.2.subset (hbase hq))
      · exact absurd hmem (hstill.idle hq).1
    -- the latest event is a new one, or the one before the run
    have hheads : ∀ m ∈ (late ++ old ++ k.past).head?, m.Spares t := by
      intro m hm
      cases hall : late ++ old with
      | nil =>
        rw [hall] at hm
        exact hhead m hm
      | cons m' rest =>
        rw [hall] at hm
        cases hm
        exact hspares m (by rw [hall]; exact List.mem_cons_self)
    have hstep : k1.Still t k' := by
      refine step.1.still hs1 (ht.kept (Path.kept hpath hs)) hgoes hlive ?_ ?_
      · intro m hm
        cases old with
        | nil =>
          rw [← hold] at hm
          exact hhead m hm
        | cons m' rest =>
          rw [← hold] at hm
          cases hm
          exact hspares m (by simp)
      · rw [hnew]
        exact hheads
    refine ⟨hstep.state.trans hstill.state, hstep.disturbed.trans hstill.disturbed, fun hq => ?_⟩
    obtain ⟨hq1, hreads⟩ := hstill.idle hq
    exact ⟨(hstep.idle hq1).1, (hstep.idle hq1).2.trans hreads⟩

end ReactiveTree
