import Mathlib.Data.Finset.Card
import ReactiveTree.Proofs.Cell.Tended

/-!
# Cells, slots and references

Slots are used again, and references to them stay in edges for as long as nobody looks. A
reference that a cell once had either still is its reference, or its slot has been emptied since
and has another generation (`Names`). Every step keeps this, so in every session an old reference
leads to its own cell or nowhere.
-/

namespace ReactiveTree

open Store

variable {S : Type} {K : Type → Type} {s t u : Store K} {c d : CellId} {r : Ref} {k k' : Stage K}

namespace Store

/-- `r` has been a reference to `c`: it still is, or its slot was emptied since. -/
def Names (s : Store K) (r : Ref) (c : CellId) : Prop :=
  (s.cell c).hasSlot = true ∧ (s.cell c).self = r ∨ s.Retired r

theorem Retired.resolve (h : s.Retired r) : s.resolve r = none := by
  obtain ⟨slot, hslot, hlt⟩ := h
  simp [Store.resolve, hslot, hlt.ne']

theorem Names.resolve (h : s.Names r c) (ha : Arena s) :
    s.resolve r = some c ∨ s.resolve r = none := by
  rcases h with ⟨hc, rfl⟩ | hr
  · exact .inl (ha.resolve_self hc)
  · exact .inr hr.resolve

/-- What is under evaluation has, or had until it was dropped, the reference it records. -/
theorem Sane.names (h : s.Sane) (hc : (s.cell c).hasSlot = true ∨ c ∈ s.consumers) :
    s.Names (s.cell c).self c := by
  rcases hc with hc | hc
  · exact .inl ⟨hc, rfl⟩
  · rcases (h.consumer c hc).2 with ⟨-, -, hslot⟩ | ⟨-, hr⟩
    · exact .inl ⟨hslot, rfl⟩
    · exact .inr hr

/-! ## The number of cells with a slot -/

def holders (s : Store K) : Finset CellId :=
  (Finset.range s.cells.size).filter fun c => (s.cell c).hasSlot = true

theorem mem_holders : c ∈ s.holders ↔ (s.cell c).hasSlot = true := by
  rw [holders, Finset.mem_filter, Finset.mem_range]
  exact and_iff_right_of_imp Arena.lt_size

theorem Arena.slot_inj (h : Arena s) (hc : (s.cell c).hasSlot = true)
    (hd : (s.cell d).hasSlot = true) (heq : (s.cell c).self.slot = (s.cell d).self.slot) :
    c = d := by
  have hslot := h.held c hc
  rw [heq, h.held d hd] at hslot
  simp only [Option.some.injEq, Slot.mk.injEq] at hslot
  exact hslot.2.symm

theorem Arena.image_holders (h : Arena s) :
    s.holders.image (fun c => (s.cell c).self.slot) = Finset.range s.slots.size \
      s.free.toFinset := by
  ext i
  rw [Finset.mem_image, Finset.mem_sdiff, Finset.mem_range, List.mem_toFinset, h.free]
  constructor
  · rintro ⟨c, hc, rfl⟩
    have hslot := h.held c (mem_holders.mp hc)
    refine ⟨(Array.getElem?_eq_some_iff.mp hslot).1, ?_⟩
    rintro ⟨g, hg⟩
    rw [hslot] at hg
    cases hg
  · rintro ⟨hlt, hfull⟩
    have hget : s.slots[i]? = some s.slots[i] := Array.getElem?_eq_getElem hlt
    cases hcell : s.slots[i].cell with
    | none => exact absurd ⟨s.slots[i].generation, by rw [hget, ← hcell]⟩ hfull
    | some c =>
      obtain ⟨hc, hself⟩ := h.owner i s.slots[i].generation c (by rw [hget, ← hcell])
      exact ⟨c, mem_holders.mpr hc, by rw [hself]⟩

theorem Arena.live_eq (h : Arena s) : s.live = s.holders.card := by
  have hinj : Set.InjOn (fun c => (s.cell c).self.slot) s.holders := fun c hc d hd heq =>
    h.slot_inj (mem_holders.mp hc) (mem_holders.mp hd) heq
  have hfree : s.free.toFinset ⊆ Finset.range s.slots.size := by
    intro i hi
    obtain ⟨g, hg⟩ := (h.free i).mp (List.mem_toFinset.mp hi)
    exact Finset.mem_range.mpr (Array.getElem?_eq_some_iff.mp hg).1
  rw [← Finset.card_image_of_injOn hinj, h.image_holders, Finset.card_sdiff_of_subset hfree,
    Finset.card_range, List.toFinset_card_of_nodup h.nodup, live]

/-! ## What a step does to references -/

/-- From `s` to `t` references go on naming the same cells, and what was dropped stays dropped. -/
structure Carries (s t : Store K) : Prop where
  names : ∀ {r c}, s.Names r c → t.Names r c
  gone : ∀ {c}, (s.cell c).dropped = true → (t.cell c).dropped = true

theorem Carries.refl (s : Store K) : Carries s s := ⟨id, id⟩

theorem Carries.trans (h : Carries s t) (h' : Carries t u) : Carries s u :=
  ⟨h'.names ∘ h.names, h'.gone ∘ h.gone⟩

theorem names_of_same (hslots : t.slots = s.slots) (hsame : SameSlots s t) (h : s.Names r c) :
    t.Names r c := by
  rcases h with ⟨hc, hself⟩ | hr
  · exact .inl ⟨(hsame c).1.trans hc, (hsame c).2.trans hself⟩
  · exact .inr (hr.transfer hslots)

theorem names_modify {f : Cell K → Cell K} (hslot : ∀ cell, (f cell).hasSlot = cell.hasSlot)
    (hself : ∀ cell, (f cell).self = cell.self) (h : s.Names r d) : (s.modify c f).Names r d :=
  names_of_same (s := s) rfl
    (fun x => ⟨proj_modify Cell.hasSlot hslot s c x, proj_modify Cell.self hself s c x⟩) h

theorem names_minor (hr : SameAround s t) (hm : ∀ x, (s.cell x).Minor (t.cell x))
    (h : s.Names r c) : t.Names r c :=
  names_of_same hr.slots (fun x => ⟨(hm x).hasSlot, (hm x).self⟩) h

theorem names_ripple (hr : Ripple s t d) (h : s.Names r c) : t.Names r c :=
  names_of_same hr.around.slots (fun x => ⟨(hr.alike x).hasSlot, (hr.alike x).self⟩) h

theorem names_track (hd : d < s.cells.size) (h : s.Names r c) : (s.track d).Names r c := by
  have ht := s.tracked d
  generalize s.track d = t at ht ⊢
  cases ht with
  | idle => exact h
  | edge =>
    refine names_of_same (s := s) rfl (fun x => ?_) h
    rw [cell_modify_of_lt (by exact hd)]
    split
    · rename_i hx
      subst hx
      unfold addEdge
      split
      · exact ⟨rfl, rfl⟩
      · split <;> exact ⟨rfl, rfl⟩
    · exact ⟨rfl, rfl⟩

/-- An evaluation gives its cell a reference that nothing has had before. -/
theorem Arena.names_enter (ha : Arena s) (hd : d < s.cells.size) (h : s.Names r c) :
    (s.enter d).Names r c := by
  rcases h with ⟨hc, hself⟩ | hr
  · left
    rw [cell_enter s hd]
    split
    · rename_i hcd
      subst hcd
      exact ⟨rfl, by rw [takeSlot_of_hasSlot hc]; exact hself⟩
    · exact ⟨hc, hself⟩
  · exact .inr (((ha.takeSlot hd).2.1 r hr).transfer rfl)

theorem Sane.carries_enter (h : s.Sane) (hd : d < s.cells.size) : Carries s (s.enter d) :=
  ⟨h.arena.names_enter hd, (Aged.akin (akin_enter ..)).gone⟩

theorem names_leave (s : Store K) (d : CellId) (completed : Bool) (h : s.Names r c) :
    (s.leave d completed).Names r c :=
  names_modify (fun _ => rfl) (fun _ => rfl) h

theorem Sane.names_drop (hs : s.Sane) (hd : d < s.cells.size) (h : s.Names r c) :
    (s.drop d).Names r c := by
  cases hdrop : (s.cell d).dropped with
  | true =>
    rw [drop_eq hd, if_pos hdrop]
    exact names_modify (fun _ => rfl) (fun _ => rfl) h
  | false =>
    obtain ⟨-, hold, hself⟩ := hs.arena.drop hd hdrop
    rcases h with ⟨hc, rfl⟩ | hr
    · by_cases hcd : c = d
      · subst hcd
        exact .inr (hself hc)
      · left
        rw [cell_drop hd, if_neg hcd]
        exact ⟨hc, rfl⟩
    · exact .inr (hold r hr)

theorem names_step (step : Step k k') (hs : k.store.Sane) (h : k.store.Names r c) :
    k'.store.Names r c := by
  cases step with
  | control | wrote | record | readDropped | refuseWork | fail | resume | shelter | unshelter =>
    exact h
  | observe d code => exact names_minor (sameAround_observe ..) (minor_observe _ d code) h
  | unobserve o => exact names_minor (sameAround_unobserve ..) (minor_unobserve _ o) h
  | @add s _ cell _ =>
    rcases h with ⟨hc, hself⟩ | hr
    · left
      rw [cell_add, if_neg ((Arena.lt_size hc).ne)]
      exact ⟨hc, hself⟩
    · exact .inr hr
  | readClean hd | refuseRead hd => exact names_track hd.1 h
  | readUnbound hd _ _ _ ht =>
    exact ht ▸ names_modify (fun _ => rfl) (fun _ => rfl) (names_track hd.1 h)
  | beginRead hd hlive =>
    exact (hs.track hd hlive).arena.names_enter (by simpa using hd.1) (names_track hd.1 h)
  | beginWork ht => exact hs.arena.names_enter ht.1 h
  | finishRead bindings v _ _ ht =>
    exact ht ▸ names_leave _ _ _ (names_minor (.modify ..) (minor_keep _ _ bindings v) h)
  | finishWork | abort | caught => exact names_leave _ _ _ h
  | write v hd => exact names_ripple (ripple_written hs.arena (hs.isProperty_linkRoot hd).1 v).1 h
  | rebind hd => exact names_ripple (ripple_rebind hs.arena hd.1 _).1 h
  | pair => exact names_modify (fun _ => rfl) (fun _ => rfl) h
  | drop hd => exact hs.names_drop hd h
  | forget ht => exact names_ripple (ripple_forget hs.arena ht.1).1 h

theorem carries_step (step : Step k k') (hs : k.store.Sane) : Carries k.store k'.store :=
  ⟨names_step step hs, (Aged.of_step step).gone⟩

/-- What a step adds to the chronicle happened in a sane store, before the end of the step. -/
theorem moment_step (step : Step k k') (hs : k.store.Sane) {m : Moment K} (hm : m ∈ k'.past) :
    m ∈ k.past ∨ m.store.Sane ∧ Carries m.store k'.store := by
  have hlast : ∀ {e past}, m ∈ ⟨e, k'.store⟩ :: past →
      m ∈ past ∨ m.store.Sane ∧ Carries m.store k'.store := by
    intro e past hm
    rcases List.mem_cons.mp hm with rfl | hm
    · exact .inr ⟨step.sane hs, .refl _⟩
    · exact .inl hm
  cases step with
  | record | observe | unobserve | add | fail | resume | write | rebind | pair | drop | forget =>
    exact .inl hm
  | control | wrote | readDropped | readClean | readUnbound | refuseRead | refuseWork | finishWork
  | abort | caught | unshelter => exact hlast hm
  | shelter =>
    rcases List.mem_cons.mp hm with rfl | hm
    · exact .inr ⟨hs, carries_step .shelter hs⟩
    · exact .inl hm
  | finishRead => exact (hlast hm).elim hlast .inr
  | beginRead hd hlive =>
    rcases List.mem_cons.mp hm with rfl | hm
    · exact .inr ⟨hs.track hd hlive, (hs.track hd hlive).carries_enter (by simpa using hd.1)⟩
    · exact .inl hm
  | beginWork ht =>
    rcases List.mem_cons.mp hm with rfl | hm
    · exact .inr ⟨hs, hs.carries_enter ht.1⟩
    · exact .inl hm

end Store

/-! ## Every session -/

/-- The slots and references of `s` are in order, when `past` is what has happened. -/
structure Orderly (s : Store K) (past : Chronicle K) : Prop where
  /-- The free slots exist, are empty and are listed once. -/
  free : s.free.Nodup ∧ ∀ i ∈ s.free, ∃ generation, s.slots[i]? = some ⟨generation, none⟩
  resolves : ∀ c, (s.cell c).hasSlot = true → s.resolve (s.cell c).self = some c
  apart : ∀ c d, (s.cell c).hasSlot = true → (s.cell d).hasSlot = true →
    (s.cell c).self.slot = (s.cell d).self.slot → c = d
  /-- The reference that a cell with a slot, or one under evaluation, had at any earlier time. -/
  earlier : ∀ m ∈ past, ∀ c, (m.store.cell c).hasSlot = true ∨ c ∈ m.store.consumers →
    s.resolve (m.store.cell c).self = some c ∨ s.resolve (m.store.cell c).self = none
  /-- What was dropped at any earlier time. -/
  gone : ∀ m ∈ past, ∀ c, (m.store.cell c).dropped = true → (s.cell c).dropped = true
  slotless : ∀ c, (s.cell c).dropped = true → (s.cell c).hasSlot = false
  live : s.live = s.holders.card

theorem Path.orderly {reports : Bool} (path : Path ⟨{ reports }, [], none⟩ k) :
    Orderly k.store k.past := by
  suffices h : k.store.Sane ∧ ∀ m ∈ k.past, m.store.Sane ∧ Carries m.store k.store by
    obtain ⟨hs, hpast⟩ := h
    have ha := hs.arena
    exact ⟨⟨ha.nodup, fun i => (ha.free i).mp⟩, fun _ => ha.resolve_self, fun _ _ => ha.slot_inj,
      fun m hm c hc => ((hpast m hm).2.names ((hpast m hm).1.names hc)).resolve ha,
      fun m hm _ => (hpast m hm).2.gone, fun c hc => (hs.dropped c hc).1, ha.live_eq⟩
  induction path with
  | refl => exact ⟨sane_empty reports, nofun⟩
  | tail _ step ih =>
    obtain ⟨hs, hpast⟩ := ih
    refine ⟨step.sane hs, fun m hm => ?_⟩
    rcases moment_step step hs hm with hm | hm
    · exact ⟨(hpast m hm).1, (hpast m hm).2.trans (carries_step step hs)⟩
    · exact hm

/-- In every session of every program, whenever code of others has control and when the session is
over, slots and references are in order. -/
theorem session_orderly (meaning : {α : Type} → K α → Act S K α) (depth : Nat) (reports : Bool)
    (host : S) (acts : List (Act S K Unit)) :
    let told := Act.toldSession meaning depth acts ⟨{ reports }, host, []⟩
    told.untold = Act.session meaning depth acts ⟨{ reports }, host⟩ ∧
      Orderly told.store told.past ∧ ∀ m past, m :: past <:+ told.past → m.event = .control →
        Orderly m.store past := by
  obtain ⟨hpath, -⟩ := Act.toldSession_path meaning depth acts
    (w := ⟨{ reports }, host, []⟩) (sane_empty reports) rfl
  refine ⟨Act.untold_toldSession .., Path.orderly hpath,
    fun m past hm hctl => ?_⟩
  rcases hpath.moment hm hctl with hnone | hpath
  · cases List.suffix_nil.mp hnone
  · exact Path.orderly hpath

end ReactiveTree
