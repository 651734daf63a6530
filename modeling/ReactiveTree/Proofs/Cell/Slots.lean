import ReactiveTree.Cell.Act

/-!
# Cells and slots of a store

Reading back what the elementary changes of a store leave in its cells, and the invariant
of the slots: a slot and the cell in it name each other, and an empty slot is listed once
among the free ones. The edges of a store name consumers by slot, so this is what makes an
edge lead to the cell that made it, or to nothing.
-/

namespace ReactiveTree

variable {c d : CellId} {r : Ref}

namespace Cell

variable {K : Type → Type}

/-- Neither dirty nor disturbed: marking has something to do. -/
def Fresh (cell : Cell K) : Prop :=
  cell.state = .clean ∨ cell.state = .evaluating ∧ cell.disturbed = false

instance (cell : Cell K) : Decidable cell.Fresh := by
  unfold Fresh
  infer_instance

/-- The edge that a read by this cell records now. -/
def edge (cell : Cell K) : Edge := ⟨cell.self, cell.epoch⟩

end Cell

namespace Store

variable {K : Type → Type} {s t : Store K}

/-! ## Reading cells back -/

theorem cell_of_size_le (h : s.cells.size ≤ c) : s.cell c = {} := by
  simp [cell, Array.getD, Nat.not_lt.mpr h]

theorem cell_modify (s : Store K) (c d : CellId) (f : Cell K → Cell K) :
    (s.modify c f).cell d = if d = c ∧ c < s.cells.size then f (s.cell d) else s.cell d := by
  by_cases hd : d < s.cells.size
  · by_cases hc : d = c
    · subst hc
      simp [cell, modify, Array.getD, hd, Array.getElem_modify]
    · simp [cell, modify, Array.getD, hd, hc, Array.getElem_modify, Ne.symm hc]
  · by_cases hc : d = c
    · subst hc
      simp [cell, modify, Array.getD, hd]
    · simp [cell, modify, Array.getD, hd, hc]

theorem cell_modify_of_lt (h : c < s.cells.size) (d : CellId)
    (f : Cell K → Cell K) : (s.modify c f).cell d = if d = c then f (s.cell c) else s.cell d := by
  rw [cell_modify]
  by_cases hd : d = c
  · subst hd
    simp [h]
  · simp [hd]

@[simp] theorem cell_modify_self (h : c < s.cells.size)
    (f : Cell K → Cell K) : (s.modify c f).cell c = f (s.cell c) := by
  simp [cell_modify_of_lt h]

@[simp] theorem cell_modify_ne (h : d ≠ c)
    (f : Cell K → Cell K) : (s.modify c f).cell d = s.cell d := by
  simp [cell_modify, h]

theorem proj_modify {β : Sort _} (proj : Cell K → β) {f : Cell K → Cell K}
    (h : ∀ cell, proj (f cell) = proj cell) (s : Store K) (c d : CellId) :
    proj ((s.modify c f).cell d) = proj (s.cell d) := by
  rw [cell_modify]
  split
  · exact h _
  · rfl

@[simp] theorem size_modify (s : Store K) (c : CellId) (f : Cell K → Cell K) :
    (s.modify c f).cells.size = s.cells.size := by
  simp [modify]

@[simp] theorem slots_modify (s : Store K) (c : CellId) (f : Cell K → Cell K) :
    (s.modify c f).slots = s.slots := rfl

@[simp] theorem free_modify (s : Store K) (c : CellId) (f : Cell K → Cell K) :
    (s.modify c f).free = s.free := rfl

@[simp] theorem frames_modify (s : Store K) (c : CellId) (f : Cell K → Cell K) :
    (s.modify c f).frames = s.frames := rfl

@[simp] theorem active_modify (s : Store K) (c : CellId) (f : Cell K → Cell K) :
    (s.modify c f).active = s.active := rfl

theorem cell_add (s : Store K) (cell : Cell K) (d : CellId) :
    (s.add cell).2.cell d = if d = s.cells.size then cell else s.cell d := by
  rcases Nat.lt_trichotomy d s.cells.size with h | h | h
  · have hd : d < s.cells.size + 1 := Nat.lt_succ_of_lt h
    simp [add, Store.cell, Array.getD, h, hd, Array.getElem_push, Nat.ne_of_lt h]
  · subst h
    simp [add, Store.cell, Array.getD]
  · rw [if_neg (Nat.ne_of_gt h), cell_of_size_le (by simp [add]; omega), cell_of_size_le
      (Nat.le_of_lt h)]

/-- All but the cells agree, and there are as many of them. -/
structure SameAround (s t : Store K) : Prop where
  size : t.cells.size = s.cells.size
  slots : t.slots = s.slots
  free : t.free = s.free
  frames : t.frames = s.frames
  active : t.active = s.active
  evaluations : t.evaluations = s.evaluations

theorem SameAround.refl (s : Store K) : SameAround s s := ⟨rfl, rfl, rfl, rfl, rfl, rfl⟩

theorem SameAround.trans {s t u : Store K} (h : SameAround s t) (h' : SameAround t u) :
    SameAround s u :=
  ⟨h'.size.trans h.size, h'.slots.trans h.slots, h'.free.trans h.free,
    h'.frames.trans h.frames, h'.active.trans h.active, h'.evaluations.trans h.evaluations⟩

theorem SameAround.symm (h : SameAround s t) : SameAround t s :=
  ⟨h.size.symm, h.slots.symm, h.free.symm, h.frames.symm, h.active.symm, h.evaluations.symm⟩

theorem SameAround.modify (s : Store K) (c : CellId) (f : Cell K → Cell K) :
    SameAround s (s.modify c f) := ⟨by simp, rfl, rfl, rfl, rfl, rfl⟩

theorem SameAround.resolve (h : SameAround s t) (r : Ref) :
    t.resolve r = s.resolve r := by
  simp [Store.resolve, h.slots]

theorem SameAround.consumer? (h : SameAround s t)
    (he : ∀ d, (t.cell d).epoch = (s.cell d).epoch) (e : Edge) : t.consumer? e = s.consumer? e := by
  simp [Store.consumer?, h.resolve, he]

theorem consumer?_eq_some {e : Edge} :
    s.consumer? e = some d ↔ s.resolve e.consumer = some d ∧ (s.cell d).epoch = e.epoch := by
  unfold consumer?
  split
  · rename_i c hc
    rw [hc, Option.some.injEq]
    constructor
    · intro h
      split at h
      · cases h
        exact ⟨rfl, ‹_›⟩
      · cases h
    · rintro ⟨rfl, h⟩
      rw [if_pos h]
  · rename_i h
    simp [h]

/-! ## Slots -/

/-- Slots and the cells in them name each other, and the free slots are the empty ones. -/
structure Arena (s : Store K) : Prop where
  held : ∀ c, (s.cell c).hasSlot →
    s.slots[(s.cell c).self.slot]? = some ⟨(s.cell c).self.generation, some c⟩
  owner : ∀ i g c, s.slots[i]? = some ⟨g, some c⟩ →
    (s.cell c).hasSlot ∧ (s.cell c).self = ⟨i, g⟩
  free : ∀ i, i ∈ s.free ↔ ∃ g, s.slots[i]? = some ⟨g, none⟩
  nodup : s.free.Nodup

/-- A reference whose slot has been emptied since it was taken. -/
def Retired (s : Store K) (r : Ref) : Prop :=
  ∃ slot, s.slots[r.slot]? = some slot ∧ r.generation < slot.generation

theorem Arena.lt_size (h : (s.cell c).hasSlot) : c < s.cells.size := by
  apply Nat.lt_of_not_le
  intro hc
  rw [cell_of_size_le hc] at h
  exact Bool.noConfusion h

theorem Arena.resolve_self (h : Arena s) (hc : (s.cell c).hasSlot) :
    s.resolve (s.cell c).self = some c := by
  simp [Store.resolve, h.held c hc]

theorem Arena.of_resolve (h : Arena s)
    (hr : s.resolve r = some c) : (s.cell c).hasSlot ∧ (s.cell c).self = r := by
  unfold Store.resolve at hr
  split at hr
  · rename_i slot hslot
    split at hr
    · rename_i hg
      obtain ⟨g, cell⟩ := slot
      subst hr
      obtain ⟨hs, hself⟩ := h.owner _ _ _ hslot
      exact ⟨hs, hself.trans (by simp only at hg; rw [hg])⟩
    · cases hr
  · cases hr

/-- An edge is live exactly when it is the one its consumer records now. -/
theorem Arena.consumer?_eq_some (h : Arena s) {e : Edge} :
    s.consumer? e = some d ↔ (s.cell d).hasSlot ∧ (s.cell d).edge = e := by
  rw [Store.consumer?_eq_some]
  constructor
  · rintro ⟨hc, hepoch⟩
    obtain ⟨hs, hself⟩ := h.of_resolve hc
    exact ⟨hs, by rw [Cell.edge, hself, hepoch]⟩
  · rintro ⟨hs, rfl⟩
    exact ⟨h.resolve_self hs, rfl⟩

theorem Arena.self_inj (h : Arena s) (hc : (s.cell c).hasSlot)
    (hd : (s.cell d).hasSlot) (heq : (s.cell c).self = (s.cell d).self) : c = d := by
  have hres := h.resolve_self hc
  rw [heq, h.resolve_self hd] at hres
  exact (Option.some.inj hres).symm

theorem Retired.ne_self (hr : Retired s r) (h : Arena s)
    (hd : (s.cell d).hasSlot) : (s.cell d).self ≠ r := by
  rintro rfl
  obtain ⟨slot, hslot, hlt⟩ := hr
  rw [h.held d hd] at hslot
  cases hslot
  exact Nat.lt_irrefl _ hlt

def SameSlots (s t : Store K) : Prop :=
  ∀ d, (t.cell d).hasSlot = (s.cell d).hasSlot ∧ (t.cell d).self = (s.cell d).self

theorem Arena.transfer (h : Arena s) (hslots : t.slots = s.slots)
    (hfree : t.free = s.free) (hsame : SameSlots s t) : Arena t := by
  constructor
  · intro c hc
    rw [(hsame c).1] at hc
    rw [hslots, (hsame c).2, h.held c hc]
  · intro i g c hi
    rw [hslots] at hi
    rw [(hsame c).1, (hsame c).2]
    exact h.owner i g c hi
  · intro i
    rw [hfree, hslots]
    exact h.free i
  · rw [hfree]
    exact h.nodup

theorem Retired.transfer (h : Retired s r) (hslots : t.slots = s.slots) :
    Retired t r := by
  unfold Retired
  rw [hslots]
  exact h

/-! ### Taking and leaving a slot -/

theorem cell_takeSlot (s : Store K) (hc : c < s.cells.size) : ∃ r, ∀ d, (s.takeSlot c).cell d =
      if d = c then { s.cell c with self := r, hasSlot := true } else s.cell d := by
  unfold takeSlot
  split
  · rename_i hs
    refine ⟨(s.cell c).self, fun d => ?_⟩
    split
    · rename_i hd
      subst hd
      rw [← hs]
    · rfl
  · split
    · rename_i i free _
      exact ⟨⟨i, (s.slots.getD i {}).generation⟩, fun d => cell_modify_of_lt hc d _⟩
    · exact ⟨⟨s.slots.size, 0⟩, fun d => cell_modify_of_lt hc d _⟩

theorem takeSlot_of_hasSlot (h : (s.cell c).hasSlot = true) : s.takeSlot c = s := by
  simp [takeSlot, h]

@[simp] theorem size_takeSlot (s : Store K) (c : CellId) :
    (s.takeSlot c).cells.size = s.cells.size := by
  unfold takeSlot
  split
  · rfl
  · split <;> simp

@[simp] theorem frames_takeSlot (s : Store K) (c : CellId) : (s.takeSlot c).frames = s.frames := by
  unfold takeSlot
  split
  · rfl
  · split <;> rfl

@[simp] theorem active_takeSlot (s : Store K) (c : CellId) : (s.takeSlot c).active = s.active := by
  unfold takeSlot
  split
  · rfl
  · split <;> rfl

/-- Slot `i`, which was empty or missing, now holds `c`. -/
structure Filled (s t : Store K) (c : CellId) (i g : Nat) : Prop where
  empty : s.slots[i]? = some ⟨g, none⟩ ∨ s.slots[i]? = none
  at_i : t.slots[i]? = some ⟨g, some c⟩
  others : ∀ j, j ≠ i → t.slots[j]? = s.slots[j]?
  free : ∀ j, j ∈ t.free ↔ j ∈ s.free ∧ j ≠ i
  nodup : t.free.Nodup
  cells : ∀ d, t.cell d = if d = c then { s.cell c with self := ⟨i, g⟩, hasSlot := true } else
    s.cell d

theorem Filled.arena {i g : Nat} (f : Filled s t c i g)
    (h : Arena s) (hs : ¬(s.cell c).hasSlot) : Arena t := by
  have hne : ∀ d, (s.cell d).hasSlot → d ≠ c ∧ (s.cell d).self.slot ≠ i := by
    intro d hd
    refine ⟨fun he => hs (he ▸ hd), fun he => ?_⟩
    have hslot := h.held d hd
    rw [he] at hslot
    rcases f.empty with hi | hi <;> rw [hi] at hslot <;> cases hslot
  constructor
  · intro d hd
    rw [f.cells] at hd ⊢
    by_cases hdc : d = c
    · simpa [hdc] using f.at_i
    · simp only [hdc, if_false] at hd ⊢
      rw [f.others _ (hne d hd).2, h.held d hd]
  · intro j g' d hj
    rw [f.cells]
    by_cases hji : j = i
    · subst hji
      rw [f.at_i] at hj
      cases hj
      simp
    · rw [f.others j hji] at hj
      obtain ⟨hd, hself⟩ := h.owner j g' d hj
      simp [(hne d hd).1, hd, hself]
  · intro j
    rw [f.free, h.free]
    by_cases hji : j = i
    · subst hji
      simp [f.at_i]
    · simp [hji, f.others j hji]
  · exact f.nodup

theorem Filled.retired {i g : Nat} (f : Filled s t c i g)
    (hr : Retired s r) : Retired t r ∧ r ≠ ⟨i, g⟩ := by
  obtain ⟨slot, hslot, hlt⟩ := hr
  by_cases hi : r.slot = i
  · rw [hi] at hslot
    rcases f.empty with he | he
    · rw [he] at hslot
      cases hslot
      exact ⟨⟨⟨g, some c⟩, by rw [hi, f.at_i], hlt⟩, fun heq => by simp [heq] at hlt⟩
    · rw [he] at hslot
      cases hslot
  · exact ⟨⟨slot, by rw [f.others _ hi, hslot], hlt⟩, fun heq => hi (by rw [heq])⟩

theorem filled_takeSlot (h : Arena s) (hc : c < s.cells.size)
    (hs : ¬(s.cell c).hasSlot) : ∃ i g, Filled s (s.takeSlot c) c i g := by
  unfold takeSlot
  rw [if_neg hs]
  split
  · rename_i i free hfree
    obtain ⟨g, hi⟩ := (h.free i).mp (by simp [hfree])
    have hlt : i < s.slots.size := (Array.getElem?_eq_some_iff.mp hi).1
    have hg : (s.slots.getD i {}).generation = g := by
      simp [Array.getD, hlt, (Array.getElem?_eq_some_iff.mp hi).2]
    have hnodup := h.nodup
    rw [hfree, List.nodup_cons] at hnodup
    refine ⟨i, g, .inl hi, ?_, fun j hj => ?_, fun j => ?_, hnodup.2, fun d => ?_⟩
    · simp [Array.getElem?_modify, hi]
    · simp [Array.getElem?_modify, Ne.symm hj]
    · simp only [free_modify, hfree, List.mem_cons]
      constructor
      · intro hj
        exact ⟨.inr hj, fun heq => hnodup.1 (heq ▸ hj)⟩
      · rintro ⟨rfl | hj, hne⟩
        · exact absurd rfl hne
        · exact hj
    · rw [cell_modify_of_lt (by exact hc), hg]
      rfl
  · rename_i hfree
    refine ⟨s.slots.size, 0, .inr (by simp), by simp, fun j hj => ?_, by simp [hfree],
      by simp [hfree], fun d => ?_⟩
    · simp [Array.getElem?_push, hj]
    · rw [cell_modify_of_lt (by exact hc)]
      rfl

/-- A slot that is taken anew has a reference that nothing has used. -/
theorem Arena.takeSlot (h : Arena s) (hc : c < s.cells.size) :
    Arena (s.takeSlot c) ∧ (∀ r, Retired s r → Retired (s.takeSlot c) r) ∧ (¬(s.cell c).hasSlot →
        (∀ r, Retired s r → r ≠ ((s.takeSlot c).cell c).self) ∧
        ∀ d, (s.cell d).hasSlot → (s.cell d).self ≠ ((s.takeSlot c).cell c).self) := by
  by_cases hs : (s.cell c).hasSlot
  · rw [takeSlot_of_hasSlot hs]
    exact ⟨h, fun _ hr => hr, fun hn => absurd hs hn⟩
  · obtain ⟨i, g, f⟩ := filled_takeSlot h hc hs
    have hself : ((s.takeSlot c).cell c).self = ⟨i, g⟩ := by simp [f.cells]
    refine ⟨f.arena h hs, fun r hr => (f.retired hr).1, fun _ => ⟨fun r hr => ?_, fun d hd => ?_⟩⟩
    · rw [hself]
      exact (f.retired hr).2
    · intro heq
      have hslot := h.held d hd
      rw [heq, hself] at hslot
      rcases f.empty with he | he <;> rw [he] at hslot <;> cases hslot

theorem cell_leaveSlot (hc : c < s.cells.size) (d : CellId) :
    (s.leaveSlot c).cell d = if d = c then { s.cell c with hasSlot := false } else s.cell d := by
  unfold leaveSlot
  simp only
  split
  · exact cell_modify_of_lt hc d _
  · rename_i hs
    split
    · rename_i hd
      subst hd
      rw [← Bool.eq_false_iff.mpr hs]
    · rfl

@[simp] theorem size_leaveSlot (s : Store K) (c : CellId) :
    (s.leaveSlot c).cells.size = s.cells.size := by
  unfold leaveSlot
  simp only
  split <;> simp

@[simp] theorem frames_leaveSlot (s : Store K) (c : CellId) :
    (s.leaveSlot c).frames = s.frames := by
  unfold leaveSlot
  simp only
  split <;> rfl

@[simp] theorem active_leaveSlot (s : Store K) (c : CellId) :
    (s.leaveSlot c).active = s.active := by
  unfold leaveSlot
  simp only
  split <;> rfl

theorem Arena.leaveSlot (h : Arena s) (hc : c < s.cells.size) :
    Arena (s.leaveSlot c) ∧ (∀ r, Retired s r → Retired (s.leaveSlot c) r) ∧
      ((s.cell c).hasSlot → Retired (s.leaveSlot c) (s.cell c).self) := by
  by_cases hs : (s.cell c).hasSlot
  · have hslot := h.held c hs
    have hat : (s.leaveSlot c).slots[(s.cell c).self.slot]? =
        some ⟨(s.cell c).self.generation + 1, none⟩ := by
      simp [Store.leaveSlot, hs, Array.getElem?_modify, hslot]
    have hother : ∀ j, j ≠ (s.cell c).self.slot → (s.leaveSlot c).slots[j]? = s.slots[j]? := by
      intro j hj
      simp [Store.leaveSlot, hs, Array.getElem?_modify, Ne.symm hj]
    have hfree : (s.leaveSlot c).free = (s.cell c).self.slot :: s.free := by
      simp [Store.leaveSlot, hs]
    refine ⟨⟨fun d hd => ?_, fun j g d hj => ?_, fun j => ?_, ?_⟩, ?_, fun _ => ?_⟩
    · rw [cell_leaveSlot hc] at hd ⊢
      by_cases hdc : d = c
      · simp [hdc] at hd
      · simp only [hdc, if_false] at hd ⊢
        rw [hother _ (fun heq => hdc ?_), h.held d hd]
        have hd' := h.held d hd
        rw [heq, hslot] at hd'
        simp only [Option.some.injEq, Slot.mk.injEq] at hd'
        exact hd'.2.symm
    · rw [cell_leaveSlot hc]
      by_cases hji : j = (s.cell c).self.slot
      · rw [hji, hat] at hj
        cases hj
      · rw [hother j hji] at hj
        obtain ⟨hd, hself⟩ := h.owner j g d hj
        have hdc : d ≠ c := fun heq => hji (by rw [← heq, hself])
        simp [hdc, hd, hself]
    · rw [hfree, List.mem_cons, h.free]
      by_cases hji : j = (s.cell c).self.slot
      · simp [hji, hat]
      · simp [hji, hother j hji]
    · rw [hfree, List.nodup_cons]
      refine ⟨fun hmem => ?_, h.nodup⟩
      obtain ⟨g, hg⟩ := (h.free _).mp hmem
      rw [hslot] at hg
      cases hg
    · rintro r ⟨slot, hr, hlt⟩
      by_cases hri : r.slot = (s.cell c).self.slot
      · rw [hri, hslot] at hr
        cases hr
        exact ⟨_, by rw [hri, hat], Nat.lt_succ_of_lt hlt⟩
      · exact ⟨slot, by rw [hother _ hri, hr], hlt⟩
    · exact ⟨_, hat, Nat.lt_succ_self _⟩
  · have heq : s.leaveSlot c = s := by simp [Store.leaveSlot, hs]
    rw [heq]
    exact ⟨h, fun _ hr => hr, fun hc => absurd hc hs⟩

end Store

end ReactiveTree
