import ReactiveTree.Proofs.Cell.Occupancy
import ReactiveTree.Proofs.Cell.UpToDate

/-!
# Edges are reads

When a consumer is evaluated again, the edges to it stay where they are and go out of date by
their epoch. Still, in every session, whenever code of others has control and when the session is
over, a cell has a live edge to a clean consumer exactly if the latest evaluation of that consumer
has read the cell, and no cell has two edges with the same reference.

Which reads count is told by the events alone: those that happen while the evaluation is the
innermost of the evaluations and untracked regions that have begun and not ended (`ownReads`). The
frames of the store are not asked; that they agree is part of the proof (`Chronicle.Frames`).
-/

namespace ReactiveTree

variable {S : Type} {K : Type → Type} {s t : Store K} {c x : CellId} {k k' : Stage K}

open Store

namespace Store

def consumersOf (s : Store K) (x : CellId) : List CellId :=
  (s.cell x).dependents.filterMap s.consumer?

theorem length_consumersOf (s : Store K) (x : CellId) :
    (s.consumersOf x).length = s.dependents x := by
  rw [consumersOf, List.length_filterMap_eq_countP, List.countP_eq_length_filter]
  rfl

/-- No cell has two edges with the same reference. -/
def Thrifty (s : Store K) : Prop := ∀ x, ((s.cell x).dependents.map Edge.consumer).Nodup

theorem Arena.nodup_consumersOf (ha : Arena s) (h : s.Thrifty) (x : CellId) :
    (s.consumersOf x).Nodup := by
  refine (List.Nodup.of_map _ (h x)).filterMap fun e e' d he he' => ?_
  exact (ha.consumer?_eq_some.mp he).2.symm.trans (ha.consumer?_eq_some.mp he').2

/-! ## One edge for each reference -/

/-- A new edge takes the place of the one with the same reference. -/
theorem nodup_addEdge (s : Store K) {cell : Cell K} (h : (cell.dependents.map Edge.consumer).Nodup)
    (e : Edge) : ((s.addEdge cell e).dependents.map Edge.consumer).Nodup := by
  unfold addEdge
  split
  · have hsame : (cell.dependents.map fun x => if x.consumer = e.consumer then e else x).map
        Edge.consumer = cell.dependents.map Edge.consumer := by
      rw [List.map_map]
      refine List.map_congr_left fun y _ => ?_
      show (if y.consumer = e.consumer then e else y).consumer = y.consumer
      split
      · rename_i hy
        exact hy.symm
      · rfl
    exact hsame ▸ h
  · rename_i hnone
    have happend : ∀ l, List.Sublist l cell.dependents → ((l ++ [e]).map Edge.consumer).Nodup := by
      intro l hl
      rw [List.map_append, List.map_singleton, ← List.concat_eq_append]
      refine (h.sublist (hl.map _)).concat fun hmem => hnone ?_
      obtain ⟨y, hy, hye⟩ := List.mem_map.mp hmem
      exact List.any_eq_true.mpr ⟨y, hl.subset hy, by simpa using hye⟩
    split
    · exact happend _ (.refl _)
    · exact happend _ List.filter_sublist

namespace Thrifty

theorem of_sublist (h : s.Thrifty)
    (hd : ∀ x, (t.cell x).dependents.Sublist (s.cell x).dependents) : t.Thrifty :=
  fun x => (h x).sublist ((hd x).map _)

theorem of_eq (h : s.Thrifty) (hd : ∀ x, (t.cell x).dependents = (s.cell x).dependents) :
    t.Thrifty :=
  h.of_sublist fun x => hd x ▸ .refl _

theorem modify (h : s.Thrifty) (c : CellId) {f : Cell K → Cell K}
    (hf : ∀ cell, (f cell).dependents = cell.dependents) : (s.modify c f).Thrifty :=
  h.of_eq (proj_modify Cell.dependents hf s c)

theorem track (h : s.Thrifty) (c : CellId) : (s.track c).Thrifty := by
  have ht := s.tracked c
  generalize s.track c = t at ht ⊢
  cases ht with
  | idle => exact h
  | edge =>
    intro x
    rw [cell_modify]
    split
    · exact s.nodup_addEdge (h c) _
    · exact h x

theorem enter (h : s.Thrifty) (hc : c < s.cells.size) : (s.enter c).Thrifty := by
  refine h.of_eq fun x => ?_
  rw [cell_enter s hc]
  split
  · rename_i hx
    rw [hx]
  · rfl

theorem leave (h : s.Thrifty) (c : CellId) (completed : Bool) : (s.leave c completed).Thrifty :=
  Thrifty.modify h c fun _ => rfl

theorem of_step (step : Step k k') (hs : k.store.Sane) (h : k.store.Thrifty) :
    k'.store.Thrifty := by
  cases step with
  | control | wrote | record | readDropped | refuseWork | fail | resume | shelter | unshelter =>
    exact h
  | observe c code => exact h.of_eq fun d => (minor_observe _ c code d).dependents
  | unobserve o => exact h.of_eq fun d => (minor_unobserve _ o d).dependents
  | add hb =>
    intro x
    rw [cell_add]
    split
    · cases hb <;> exact List.nodup_nil
    · exact h x
  | readClean | refuseRead => exact h.track _
  | readUnbound _ _ _ _ ht => exact ht ▸ (h.track _).modify _ fun _ => rfl
  | beginRead hc => exact (h.track _).enter (by simpa using hc.1)
  | beginWork hc => exact h.enter hc.1
  | finishRead bindings v _ _ ht =>
    exact ht ▸ Thrifty.leave (h.of_eq fun d => (minor_keep _ _ bindings v d).dependents) _ _
  | finishWork | abort | caught => exact h.leave _ _
  | write v hc => exact h.of_sublist (ripple_written hs.arena (hs.isProperty_linkRoot hc).1
    v).1.fewer
  | rebind hc => exact h.of_sublist (ripple_rebind hs.arena hc.1 _).1.fewer
  | pair => exact h.modify _ fun _ => rfl
  | drop hc =>
    intro x
    rw [cell_drop hc]
    split
    · split
      · exact h _
      · exact List.nodup_nil
    · exact h x
  | forget ht => exact h.of_sublist (ripple_forget hs.arena ht.1).1.fewer

end Thrifty

end Store

/-! ## No consumer reads itself -/

/-- A consumer that has read itself was dropped meanwhile. -/
def Stage.Selfless (k : Stage K) : Prop :=
  ∀ c v, (c, v) ∈ k.past.reads c → (k.store.cell c).dropped = true

theorem Stage.Selfless.step (h : k.Selfless) (step : Step k k') (hs : k.store.Sane) :
    k'.Selfless := by
  intro c v hmem
  by_cases hold : (c, v) ∈ k.past.reads c
  · exact (Aged.of_step step).gone (h c v hold)
  -- a read of `c` that has just been answered, to `c` itself
  have hgot : ∀ {x : CellId} {u : Value} {t : Store K} {past : Chronicle K},
      (c, v) ∈ Chronicle.reads c (⟨.got x u, t⟩ :: past) → (c, v) ∉ past.reads c →
      x = c ∧ t.reader = some c := by
    intro x u t past hread hnot
    have hread :
        (c, v) ∈ if t.reader = some c then (x, u) :: past.reads c else past.reads c := hread
    split at hread
    · rename_i hr
      rcases List.mem_cons.mp hread with heq | hread
      · cases heq
        exact ⟨rfl, hr⟩
      · exact absurd hread hnot
    · exact absurd hread hnot
  have hbegan : ∀ {x : CellId} {t : Store K} {past : Chronicle K},
      (c, v) ∈ Chronicle.reads c (⟨.began x, t⟩ :: past) → (c, v) ∈ past.reads c := by
    intro x t past hread
    have hread : (c, v) ∈ if x = c then [] else past.reads c := hread
    split at hread
    · cases hread
    · exact hread
  cases step with
  | readDropped _ hd =>
    obtain ⟨rfl, -⟩ := hgot hmem hold
    exact hd
  | readClean _ hd hst =>
    obtain ⟨rfl, hr⟩ := hgot hmem hold
    rw [reader_track] at hr
    exact absurd (mem_consumers_of_reader hr) (hs.not_mem_consumers hd (by simp [hst]))
  | readUnbound _ hd hst _ ht =>
    obtain ⟨rfl, hr⟩ := hgot hmem hold
    rw [ht] at hr
    have hr := (reader_track ..).symm.trans hr
    exact absurd (mem_consumers_of_reader hr) (hs.not_mem_consumers hd (by simp [hst]))
  | @finishRead s _ _ x bindings v' hreader _ ht =>
    obtain ⟨rfl, hr⟩ := hgot hmem hold
    rw [ht] at hr
    have hkeep : (s.keep x bindings v').Sane := hs.minor (.modify ..) (minor_keep _ _ _ _)
    exact absurd (mem_consumers_of_reader hr) (hkeep.consumers_leave hreader true).2
  | beginRead | beginWork => exact absurd (hbegan hmem) hold
  | control | wrote | refuseRead | refuseWork | finishWork | abort | caught | record | observe
  | unobserve | add | shelter | unshelter | fail | resume | write | rebind | pair | drop | forget =>
    exact absurd hmem hold

/-! ## Whose read it is -/

/-- The evaluations and untracked regions that have begun and not ended, innermost first; `none` is
an untracked region. -/
def Chronicle.underway : Chronicle K → List (Option CellId)
  | [] => []
  | m :: past =>
    match m.event with
    | .began c => some c :: Chronicle.underway past
    | .sheltered => none :: Chronicle.underway past
    | .ended .. => (Chronicle.underway past).tail
    | .bared => (Chronicle.underway past).tail
    | _ => Chronicle.underway past

/-- What the latest evaluation of `c` has read itself, latest first: not in an untracked region and
not in an evaluation that it has caused. -/
def Chronicle.ownReads (c : CellId) : Chronicle K → List (CellId × Value)
  | [] => []
  | m :: past =>
    match m.event with
    | .began d => if d = c then [] else Chronicle.ownReads c past
    | .got x v =>
      if (Chronicle.underway past).head? = some (some c) then (x, v) :: Chronicle.ownReads c past
      else Chronicle.ownReads c past
    | _ => Chronicle.ownReads c past

/-- The frames of the store are what the events say, and so are the reads. -/
structure Chronicle.Frames (past : Chronicle K) (s : Store K) : Prop where
  stack : past.underway = s.stack
  reads : ∀ c, past.ownReads c = past.reads c

namespace Chronicle.Frames

variable {past : Chronicle K}

theorem same (h : past.Frames s) (hs : t.stack = s.stack) : past.Frames t :=
  ⟨h.stack.trans hs.symm, h.reads⟩

theorem around (h : past.Frames s) (hr : SameAround s t) : past.Frames t :=
  h.same (congrArg (List.map Frame.consumer) hr.frames)

theorem got {v : Value} (h : past.Frames s) : Chronicle.Frames (⟨.got x v, s⟩ :: past) s := by
  refine ⟨h.stack, fun c => ?_⟩
  change (if past.underway.head? = some (some c) then
    (x, v) :: past.ownReads c else past.ownReads c) = if s.reader = some c then
      (x, v) :: past.reads c else past.reads c
  rw [h.stack, h.reads c]
  simp only [reader_eq_some_iff_head]

theorem began (h : past.Frames s) (hs : t.stack = some c :: s.stack) :
    Chronicle.Frames (⟨.began c, s⟩ :: past) t := by
  refine ⟨(congrArg (some c :: ·) h.stack).trans hs.symm, fun d => ?_⟩
  change (if c = d then [] else past.ownReads d) = if c = d then [] else past.reads d
  rw [h.reads d]

theorem ended {completed : Bool} (h : past.Frames s) (hs : t.stack = s.stack.tail) :
    Chronicle.Frames (⟨.ended c completed, t⟩ :: past) t :=
  ⟨(congrArg List.tail h.stack).trans hs.symm, h.reads⟩

theorem step (h : k.past.Frames k.store) (step : Step k k') (hs : k.store.Sane) :
    k'.past.Frames k'.store := by
  cases step with
  | control | wrote | refuseWork => exact ⟨h.stack, h.reads⟩
  | record | add | fail | resume | pair => exact h.same rfl
  | observe => exact h.around (sameAround_observe ..)
  | unobserve => exact h.around (sameAround_unobserve ..)
  | shelter => exact ⟨congrArg (none :: ·) h.stack, h.reads⟩
  | unshelter => exact ⟨(congrArg List.tail h.stack).trans List.map_tail.symm, h.reads⟩
  | readDropped => exact h.got
  | readClean => exact (h.same (stack_track ..)).got
  | @readUnbound s t _ c _ _ _ _ ht =>
    have hstack : t.stack = s.stack := by
      rw [ht]
      exact stack_track s c
    exact (h.same hstack).got
  | beginRead => exact (h.same (stack_track ..)).began (stack_enter ..)
  | beginWork => exact h.began (stack_enter ..)
  | refuseRead => exact ⟨h.stack.trans (stack_track ..).symm, h.reads⟩
  | @finishRead s t _ c bindings v _ _ ht =>
    have hstack : t.stack = s.stack.tail := by
      rw [ht]
      exact stack_leave ..
    exact (h.ended hstack).got
  | finishWork | abort | caught => exact h.ended (stack_leave ..)
  | write v hc => exact h.around (ripple_written hs.arena (hs.isProperty_linkRoot hc).1 v).1.around
  | rebind hc => exact h.around (ripple_rebind hs.arena hc.1 _).1.around
  | drop => exact h.same (stack_drop ..)
  | forget ht => exact h.around (ripple_forget hs.arena ht.1).1.around

end Chronicle.Frames

/-! ## Counts of 32 bits -/

/-- Every count of evaluations and every generation fits into 32 bits. -/
structure Store.Narrow (s : Store K) : Prop where
  epoch : ∀ c, (s.cell c).epoch < UInt32.size
  generation : ∀ (i : Nat) (slot : Slot), s.slots[i]? = some slot → slot.generation < UInt32.size

/-- The consumer of an edge when both counts are compared as numbers of 32 bits. -/
def Store.narrowConsumer? (s : Store K) (e : Edge) : Option CellId :=
  match s.slots[e.consumer.slot]? with
  | some slot =>
    if UInt32.ofNat slot.generation = UInt32.ofNat e.consumer.generation then
      slot.cell.filter fun d => UInt32.ofNat (s.cell d).epoch = UInt32.ofNat e.epoch
    else none
  | none => none

theorem UInt32.ofNat_inj_of_le {a b : Nat} (hle : b ≤ a) (h : a < UInt32.size) :
    UInt32.ofNat a = UInt32.ofNat b ↔ a = b := by
  rw [← UInt32.toNat_inj, UInt32.toNat_ofNat_of_lt' h,
    UInt32.toNat_ofNat_of_lt' (hle.trans_lt h)]

/-- As long as the counts fit, nothing is lost by that. -/
theorem Store.Sane.narrowConsumer?_eq (h : s.Sane) (hn : s.Narrow) {e : Edge}
    (he : e ∈ (s.cell x).dependents) : s.narrowConsumer? e = s.consumer? e := by
  unfold narrowConsumer? consumer?
  rcases (h.edges x e he).2 with ⟨d, hd, hself, hle⟩ | hretired
  · have hslot := h.arena.held d hd
    have hresolve := h.arena.resolve_self hd
    rw [hself] at hslot hresolve
    rw [hslot, hresolve]
    simp [Option.filter, UInt32.ofNat_inj_of_le hle (hn.epoch d)]
  · rw [hretired.resolve]
    obtain ⟨slot, hslot, hlt⟩ := hretired
    have hne : ¬UInt32.ofNat slot.generation = UInt32.ofNat e.consumer.generation := fun heq =>
      hlt.ne' ((UInt32.ofNat_inj_of_le hlt.le (hn.generation _ _ hslot)).mp heq)
    rw [hslot]
    simp [hne]

/-! ## Every session -/

/-- What the edges of `s` tell, when `past` is what has happened. -/
structure Edged (s : Store K) (past : Chronicle K) : Prop where
  /-- The live edges to a clean consumer are the reads of its latest evaluation. -/
  reads : ∀ x c, (s.cell c).Computed → (s.cell c).state = .clean → (s.cell c).dropped = false →
    (c ∈ s.consumersOf x ↔ x ≠ c ∧ (s.cell x).dropped = false ∧ ∃ v, (x, v) ∈ past.ownReads c)
  thrifty : s.Thrifty
  /-- Every consumer counts once. -/
  counted : ∀ x, (s.consumersOf x).Nodup ∧ s.dependents x = (s.consumersOf x).length
  /-- Counts of 32 bits tell the same edges live, as long as they do not overflow. -/
  narrow : s.Narrow → ∀ x, (s.cell x).dependents.filterMap s.narrowConsumer? = s.consumersOf x

theorem Coherence.edged (h : Coherence [] k) (hself : k.Selfless) (ht : k.store.Thrifty)
    (hf : k.past.Frames k.store) : Edged k.store k.past := by
  have ha := h.sane.arena
  refine ⟨fun x c hk hst hd => ?_, ht,
    fun x => ⟨ha.nodup_consumersOf ht x, (length_consumersOf ..).symm⟩,
    fun hn x => List.filterMap_congr fun e he => h.sane.narrowConsumer?_eq hn he⟩
  rw [hf.reads c]
  have hsound : k.Sound c := ⟨hk, hd, .inl hst⟩
  constructor
  · intro hmem
    obtain ⟨e, he, hcons⟩ := List.mem_filterMap.mp hmem
    obtain ⟨-, rfl⟩ := ha.consumer?_eq_some.mp hcons
    -- a clean consumer waits for nothing
    have hread : ∃ v, (x, v) ∈ k.past.reads c := (h.live x c hsound he).resolve_right fun hadj =>
      h.sane.not_mem_consumers hd (by simp [hst]) (mem_consumers.mpr hadj.mem.2)
    refine ⟨?_, h.sane.not_dropped_of_mem he, hread⟩
    rintro rfl
    obtain ⟨v, hv⟩ := hread
    rw [hself x v hv] at hd
    cases hd
  · rintro ⟨-, hdx, v, hv⟩
    obtain ⟨-, -, hdx' | ⟨-, he⟩⟩ := h.upheld c hsound x v hv
    · rw [hdx] at hdx'
      cases hdx'
    · exact List.mem_filterMap.mpr ⟨_, he, ha.consumer?_eq_some.mpr ⟨hsound.hasSlot h.sane, rfl⟩⟩

theorem Path.edged {reports : Bool} (path : Path ⟨{ reports }, [], none⟩ k) :
    Edged k.store k.past := by
  suffices h : Coherence [] k ∧ k.Selfless ∧ k.store.Thrifty ∧ k.past.Frames k.store from
    h.1.edged h.2.1 h.2.2.1 h.2.2.2
  induction path with
  | refl =>
    refine ⟨coherence_start reports, nofun, fun x => ?_, rfl, fun _ => rfl⟩
    rw [cell_of_size_le (Nat.zero_le _)]
    exact List.nodup_nil
  | tail _ step ih =>
    obtain ⟨hc, hself, ht, hf⟩ := ih
    exact ⟨step.coherence hc, hself.step step hc.sane, ht.of_step step hc.sane,
      hf.step step hc.sane⟩

/-- In every session of every program, the live edges to clean consumers are exactly what they have
read, and no consumer has two edges in a cell. -/
theorem session_edges (meaning : {α : Type} → K α → Act S K α) (depth : Nat) (reports : Bool)
    (host : S) (acts : List (Act S K Unit)) :
    let told := Act.toldSession meaning depth acts ⟨{ reports }, host, []⟩
    told.untold = Act.session meaning depth acts ⟨{ reports }, host⟩ ∧ Edged told.store told.past ∧
      ∀ m past, m :: past <:+ told.past → m.event = .control → Edged m.store past := by
  obtain ⟨hpath, -⟩ := Act.toldSession_path meaning depth acts
    (w := ⟨{ reports }, host, []⟩) (sane_empty reports) rfl
  refine ⟨Act.untold_toldSession .., Path.edged hpath,
    fun m past hm hctl => ?_⟩
  rcases hpath.moment hm hctl with hnone | hpath
  · cases List.suffix_nil.mp hnone
  · exact Path.edged hpath

/-- The code of the binding of cell 3, which reads cell 2. -/
inductive Looking : Type → Type where
  | looks : Looking Value

def Looking.meaning {α : Type} : Looking α → Act Unit Looking α
  | .looks => .get 2

/-- The work of tracker 4 reads cell 0, cell 1 in an untracked region and by a peek, and cell 3,
whose binding is evaluated for it. -/
def Looking.session : Tale Unit Looking :=
  Act.toldSession Looking.meaning 4
    [.bind (.new "a" (.int 10)) fun _ => .bind (.new "b" (.int 11)) fun _ =>
        .bind (.new "c" (.int 12)) fun _ => .bind (.newBound "d" .looks) fun _ =>
        .bind (.newTracker "t" none) fun _ => .pure (),
      .bind (.track 4 (.bind (.get 0) fun _ => .bind (.untracked (.get 1)) fun _ =>
        .bind (Act.peek 1) fun _ => .get 3)) fun _ => .pure ()]
    ⟨{}, (), []⟩

/-- Neither the untracked region nor the peek nor the evaluation of cell 3 counts for the
tracker. -/
theorem session_edges_regions :
    (Looking.session.past.ownReads 4).map Prod.fst = [3, 0] ∧
      ∀ x, 4 ∈ Looking.session.store.consumersOf x ↔ x = 3 ∨ x = 0 := by
  have hreads : (Looking.session.past.ownReads 4).map Prod.fst = [3, 0] := by decide +kernel
  have htracker : (Looking.session.store.cell 4).tracker = true := by decide +kernel
  have hlive : ∀ x, x = 3 ∨ x = 0 → (Looking.session.store.cell x).dropped = false := by
    rintro x (rfl | rfl) <;> decide +kernel
  have hread : ∀ x, (∃ v, (x, v) ∈ Looking.session.past.ownReads 4) ↔ x = 3 ∨ x = 0 := fun x => by
    have hmem : (∃ v, (x, v) ∈ Looking.session.past.ownReads 4) ↔
        x ∈ (Looking.session.past.ownReads 4).map Prod.fst := by simp
    rw [hmem, hreads]
    simp
  have hedged : Edged Looking.session.store Looking.session.past :=
    (session_edges Looking.meaning 4 false () _).2.1
  refine ⟨hreads, fun x => ?_⟩
  rw [hedged.reads x 4 (.inr htracker) (by decide +kernel) (by decide +kernel), hread]
  constructor
  · exact fun h => h.2.2
  · intro h
    exact ⟨by rintro rfl; simp at h, hlive x h, h⟩

end ReactiveTree
