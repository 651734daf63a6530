import Mathlib.Data.Finset.Card
import Mathlib.Data.Finset.Dedup
import Mathlib.Data.Finset.Range
import ReactiveTree.Proofs.Cell.Slots

/-!
# Marking

What marking the dependents of a cell does to a store. Every cell that is found was fresh
and is spoiled; the cell written and every cell found give up their edges; and every
consumer of a live edge among those is not fresh afterwards. Nothing else changes.
-/

namespace ReactiveTree

variable {c : CellId} {found : List CellId}

namespace Cell

variable {K : Type → Type}

/-- Moves a cell out of the clean state; an evaluation in progress is disturbed. -/
def spoil (cell : Cell K) : Cell K :=
  match cell.state with
  | .clean => { cell with state := .dirty }
  | .evaluating => { cell with disturbed := true }
  | .dirty => cell

def clear (cell : Cell K) : Cell K := { cell with dependents := [], room := 0 }

theorem not_fresh_spoil (cell : Cell K) : ¬cell.spoil.Fresh := by
  unfold spoil Fresh
  split <;> simp_all

theorem spoil_of_not_fresh {cell : Cell K} (h : ¬cell.Fresh) : cell.spoil = cell := by
  unfold spoil
  unfold Fresh at h
  split
  · simp_all
  · cases cell
    simp_all
  · rfl

@[simp] theorem fresh_clear (cell : Cell K) : cell.clear.Fresh ↔ cell.Fresh := Iff.rfl

theorem spoil_clear (cell : Cell K) : cell.clear.spoil = cell.spoil.clear := by
  cases cell with
  | mk _ _ _ _ _ _ state => cases state <;> rfl

@[simp] theorem clear_clear (cell : Cell K) : cell.clear.clear = cell.clear := rfl

@[simp] theorem dependents_spoil (cell : Cell K) : cell.spoil.dependents = cell.dependents := by
  unfold spoil
  split <;> rfl

@[simp] theorem epoch_spoil (cell : Cell K) : cell.spoil.epoch = cell.epoch := by
  unfold spoil
  split <;> rfl

@[simp] theorem self_spoil (cell : Cell K) : cell.spoil.self = cell.self := by
  unfold spoil
  split <;> rfl

@[simp] theorem hasSlot_spoil (cell : Cell K) : cell.spoil.hasSlot = cell.hasSlot := by
  unfold spoil
  split <;> rfl

end Cell

namespace Store

variable {K : Type → Type} {s t : Store K}

theorem Arena.modify (ha : Arena s) {g : Cell K → Cell K}
    (hg : ∀ cell, (g cell).hasSlot = cell.hasSlot ∧ (g cell).self = cell.self) :
    Arena (s.modify c g) :=
  ha.transfer rfl rfl fun d => ⟨proj_modify Cell.hasSlot (fun cell => (hg cell).1) s c d,
    proj_modify Cell.self (fun cell => (hg cell).2) s c d⟩

theorem mark_spec (hc : c < s.cells.size) :
    ((s.mark c).1 = true ↔ (s.cell c).Fresh) ∧ SameAround s (s.mark c).2 ∧
      ∀ d, (s.mark c).2.cell d = if d = c then (s.cell c).spoil else s.cell d := by
  have stays :
      ¬(s.cell c).Fresh → ∀ d, s.cell d = if d = c then (s.cell c).spoil else s.cell d := by
    intro h d
    split
    · rename_i hd
      rw [hd, Cell.spoil_of_not_fresh h]
    · rfl
  cases hst : (s.cell c).state with
  | clean =>
    simp only [mark, hst]
    exact ⟨by simp [Cell.Fresh, hst], .modify .., fun d => by
      simp [cell_modify_of_lt hc, Cell.spoil, hst]⟩
  | dirty =>
    have hf : ¬(s.cell c).Fresh := by simp [Cell.Fresh, hst]
    simp only [mark, hst]
    exact ⟨by simp [hf], .refl s, stays hf⟩
  | evaluating =>
    cases hdis : (s.cell c).disturbed with
    | true =>
      have hf : ¬(s.cell c).Fresh := by simp [Cell.Fresh, hst, hdis]
      simp only [mark, hst, hdis, if_true]
      exact ⟨by simp [hf], .refl s, stays hf⟩
    | false =>
      simp only [mark, hst, hdis]
      exact ⟨by simp [Cell.Fresh, hst, hdis], .modify .., fun d => by
        simp [cell_modify_of_lt hc, Cell.spoil, hst]⟩

/-- The cells of `found` are spoiled, and nothing else changes. -/
structure Spoiled (s t : Store K) (found : List CellId) : Prop where
  around : SameAround s t
  cells : ∀ d, t.cell d = if d ∈ found then (s.cell d).spoil else s.cell d

theorem Spoiled.epoch (h : Spoiled s t found) (d : CellId) :
    (t.cell d).epoch = (s.cell d).epoch := by
  rw [h.cells]
  split <;> simp

theorem Spoiled.sameSlots (h : Spoiled s t found) : SameSlots s t := by
  intro d
  rw [h.cells]
  split <;> simp

theorem Spoiled.arena (h : Spoiled s t found) (ha : Arena s) : Arena t :=
  ha.transfer h.around.slots h.around.free h.sameSlots

theorem markAll_spec (edges : List Edge) (ha : Arena s) (marked : List CellId) :
    ∃ found, (s.markAll marked edges).2 = found ++ marked ∧ found.Nodup ∧
      Spoiled s (s.markAll marked edges).1 found ∧
      ∀ d, d ∈ found ↔ (s.cell d).Fresh ∧ ∃ e ∈ edges, s.consumer? e = some d := by
  induction edges generalizing s marked with
  | nil => exact ⟨[], by simp [markAll], by simp, ⟨.refl s, by simp [markAll]⟩, by simp⟩
  | cons e edges ih =>
    unfold markAll
    split
    · rename_i hnone
      obtain ⟨found, hm, hn, hsp, hmem⟩ := ih ha marked
      refine ⟨found, hm, hn, hsp, fun d => ?_⟩
      rw [hmem]
      simp [hnone]
    · rename_i d hd
      have hlt : d < s.cells.size := Arena.lt_size (ha.consumer?_eq_some.mp hd).1
      obtain ⟨htrue, hr, hcells⟩ := mark_spec hlt
      split
      · rename_i t hmark
        rw [hmark] at htrue hr hcells
        have hfresh : ¬(s.cell d).Fresh := fun h => Bool.noConfusion (htrue.mpr h)
        have hsame : ∀ x, t.cell x = s.cell x := by
          intro x
          rw [hcells]
          split
          · rename_i hx
            rw [hx, Cell.spoil_of_not_fresh hfresh]
          · rfl
        have hat : Arena t := ha.transfer hr.slots hr.free fun x => by simp [hsame]
        obtain ⟨found, hm, hn, hsp, hmem⟩ := ih hat marked
        refine ⟨found, hm, hn, ⟨hr.trans hsp.around, fun x => by rw [hsp.cells, hsame]⟩,
          fun x => ?_⟩
        simp only [hmem, hsame, hr.consumer? (fun y => by rw [hsame]), List.mem_cons]
        constructor
        · rintro ⟨hf, e', he', hx⟩
          exact ⟨hf, e', .inr he', hx⟩
        · rintro ⟨hf, e', rfl | he', hx⟩
          · rw [hd] at hx
            cases hx
            exact absurd hf hfresh
          · exact ⟨hf, e', he', hx⟩
      · rename_i t hmark
        rw [hmark] at htrue hr hcells
        have hfresh : (s.cell d).Fresh := htrue.mp rfl
        have hone : Spoiled s t [d] := ⟨hr, fun x => by
          rw [hcells]
          by_cases hx : x = d <;> simp [hx]⟩
        obtain ⟨found, hm, hn, hsp, hmem⟩ := ih (hone.arena ha) (d :: marked)
        have hdf : d ∉ found := fun h => by
          have hf := ((hmem d).mp h).1
          rw [hcells] at hf
          exact Cell.not_fresh_spoil _ (by simpa using hf)
        refine ⟨found ++ [d], by simp [hm], ?_, ⟨hr.trans hsp.around, fun x => ?_⟩, fun x => ?_⟩
        · rw [List.nodup_append]
          refine ⟨hn, by simp, fun a ha' b hb => ?_⟩
          rw [List.mem_singleton] at hb
          rw [hb]
          exact fun h => hdf (h ▸ ha')
        · rw [hsp.cells, hcells]
          by_cases hx : x = d
          · subst hx
            simp [hdf]
          · simp [hx]
        · rw [List.mem_append, List.mem_singleton, hmem, hcells]
          simp only [hr.consumer? hone.epoch, List.mem_cons]
          by_cases hx : x = d
          · subst hx
            exact ⟨fun _ => ⟨hfresh, e, .inl rfl, hd⟩, fun _ => .inr rfl⟩
          · simp only [hx, if_false, or_false]
            constructor
            · rintro ⟨hf, e', he', hx'⟩
              exact ⟨hf, e', .inr he', hx'⟩
            · rintro ⟨hf, e', rfl | he', hx'⟩
              · rw [hd] at hx'
                exact absurd (Option.some.inj hx').symm hx
              · exact ⟨hf, e', he', hx'⟩

/-! ## Spreading -/

/-- The fresh cells, which marking can still find. -/
def freshCells (s : Store K) : Finset CellId :=
  (Finset.range s.cells.size).filter fun d => (s.cell d).Fresh

theorem Spoiled.card_fresh (h : Spoiled s t found)
    (hn : found.Nodup) (hf : ∀ d ∈ found, d < s.cells.size ∧ (s.cell d).Fresh) :
    found.length + (freshCells t).card = (freshCells s).card := by
  have hsub : found.toFinset ⊆ freshCells s := by
    intro d hd
    obtain ⟨hlt, hfresh⟩ := hf d (List.mem_toFinset.mp hd)
    simp [freshCells, hlt, hfresh]
  have heq : freshCells t = freshCells s \ found.toFinset := by
    ext d
    simp only [freshCells, h.around.size, h.cells, Finset.mem_filter, Finset.mem_range,
      Finset.mem_sdiff, List.mem_toFinset]
    by_cases hd : d ∈ found <;> simp [hd, Cell.not_fresh_spoil]
  rw [heq, ← List.toFinset_card_of_nodup hn, Nat.add_comm]
  exact Finset.card_sdiff_add_card_eq_card hsub

/-- The cells of `found` are spoiled, they and those of `work` give up their edges, and the
consumers of all these edges are not fresh. -/
structure Spread (s t : Store K) (work found : List CellId) : Prop where
  around : SameAround s t
  cells : ∀ d, t.cell d =
    (if d ∈ found then Cell.spoil else id)
      ((if d ∈ work ∨ d ∈ found then Cell.clear else id) (s.cell d))
  fresh : ∀ d ∈ found, (s.cell d).hasSlot ∧ (s.cell d).Fresh
  closed : ∀ x, x ∈ work ∨ x ∈ found → ∀ e ∈ (s.cell x).dependents, ∀ d,
    s.consumer? e = some d → ¬(t.cell d).Fresh

/-- One turn: `c` gives up its edges, whose fresh consumers `found1` are spoiled and put to
work. -/
theorem Spread.turn {s s1 t : Store K} {work found1 found2 : List CellId}
    (ha : Arena s) (hc : c < s.cells.size) (hsp1 : Spoiled (s.modify c Cell.clear) s1 found1)
    (hmem1 : ∀ d, d ∈ found1 ↔ (s.cell d).Fresh ∧ ∃ e ∈ (s.cell c).dependents,
    s.consumer? e = some d) (hsp2 : Spread s1 t (found1 ++ work) found2) : Spread s t (c :: work)
      (found2 ++ found1) := by
  have hr : SameAround s s1 := (SameAround.modify s c Cell.clear).trans hsp1.around
  have hcell1 : ∀ d, s1.cell d = (if d ∈ found1 then Cell.spoil else id)
      ((if d = c then Cell.clear else id) (s.cell d)) := by
    intro d
    rw [hsp1.cells, cell_modify_of_lt hc]
    by_cases hd : d = c
    · subst hd
      split <;> simp
    · simp only [if_neg hd]
      split <;> rfl
  have hepoch : ∀ d, (s1.cell d).epoch = (s.cell d).epoch := fun d =>
    (hsp1.epoch d).trans (proj_modify Cell.epoch (f := Cell.clear) (fun _ => rfl) s c d)
  have hdisj : ∀ d ∈ found1, d ∉ found2 := fun d h1 h2 => by
    have hf := (hsp2.fresh d h2).2
    rw [hsp1.cells, if_pos h1] at hf
    exact Cell.not_fresh_spoil _ hf
  -- a cell that is not fresh before the later turns is not fresh after them
  have hlater : ∀ d, ¬(s1.cell d).Fresh → ¬(t.cell d).Fresh := fun d hd => by
    have h2 : d ∉ found2 := fun h => hd (hsp2.fresh d h).2
    rw [hsp2.cells, if_neg h2]
    split <;> simpa using hd
  refine ⟨hr.trans hsp2.around, fun d => ?_, fun d hd => ?_, fun x hx e he d hd => ?_⟩
  · rw [hsp2.cells, hcell1]
    simp only [List.mem_append, List.mem_cons]
    by_cases hdc : d = c
    · subst hdc
      by_cases h1 : d ∈ found1
      · simp [h1, hdisj d h1, Cell.spoil_clear]
      · by_cases h2 : d ∈ found2 <;> by_cases h3 : d ∈ work <;> simp [h1, h2, h3]
    · by_cases h1 : d ∈ found1
      · simp [h1, hdc, hdisj d h1, Cell.spoil_clear]
      · simp [h1, hdc]
  · rcases List.mem_append.mp hd with h2 | h1
    · obtain ⟨hslot, hf⟩ := hsp2.fresh d h2
      rw [hcell1, if_neg (fun h1 => hdisj d h1 h2)] at hslot hf
      by_cases hdc : d = c
      · exact ⟨by simpa [hdc, Cell.clear] using hslot, by simpa [hdc] using hf⟩
      · exact ⟨by simpa [hdc] using hslot, by simpa [hdc] using hf⟩
    · obtain ⟨hf, e, _, he⟩ := (hmem1 d).mp h1
      exact ⟨(ha.consumer?_eq_some.mp he).1, hf⟩
  · by_cases hxc : x = c
    · subst hxc
      apply hlater
      rw [hcell1]
      by_cases h1 : d ∈ found1
      · rw [if_pos h1]
        exact Cell.not_fresh_spoil _
      · have hf : ¬(s.cell d).Fresh := fun hf => h1 ((hmem1 d).mpr ⟨hf, e, he, hd⟩)
        rw [if_neg h1]
        split <;> simpa using hf
    · refine hsp2.closed x ?_ e ?_ d ((hr.consumer? hepoch e).trans hd)
      · simp only [List.mem_cons, List.mem_append, hxc, false_or] at hx ⊢
        tauto
      · rw [hcell1, if_neg hxc]
        split <;> simpa using he

theorem spread_spec (limit : Nat) (ha : Arena s) (work marked : List CellId)
    (hw : ∀ x ∈ work, x < s.cells.size) (hl : work.length + (freshCells s).card ≤ limit) :
    ∃ found, (s.spread limit work marked).2 = found ++ marked ∧
      Spread s (s.spread limit work marked).1 work found := by
  induction limit generalizing s work marked with
  | zero =>
    have hwork : work = [] := List.eq_nil_of_length_eq_zero (by omega)
    subst hwork
    exact ⟨[], by simp [spread], .refl s, by simp [spread], by simp, by simp⟩
  | succ limit ih =>
    cases work with
    | nil => exact ⟨[], by simp [spread], .refl s, by simp [spread], by simp, by simp⟩
    | cons c work =>
      have hc : c < s.cells.size := hw c (by simp)
      have hfresh := proj_modify Cell.Fresh (f := Cell.clear) (fun _ => rfl) s c
      have hconsumer := (SameAround.modify s c Cell.clear).consumer?
        (proj_modify Cell.epoch (f := Cell.clear) (fun _ => rfl) s c)
      have ha1 : Arena (s.modify c Cell.clear) := ha.modify fun _ => ⟨rfl, rfl⟩
      obtain ⟨found1, hm1, hn1, hsp1, hmem1⟩ := markAll_spec (s.cell c).dependents ha1 []
      simp only [hfresh, hconsumer] at hmem1
      rw [List.append_nil] at hm1
      have hlt1 : ∀ d ∈ found1, d < s.cells.size := fun d hd => by
        obtain ⟨_, e, _, he⟩ := (hmem1 d).mp hd
        exact Arena.lt_size (ha.consumer?_eq_some.mp he).1
      -- each cell found is one fresh cell less, so the limit suffices
      have hcard := hsp1.card_fresh hn1 fun d hd =>
        ⟨by simpa using hlt1 d hd, by rw [hfresh]; exact ((hmem1 d).mp hd).1⟩
      have hcard1 : freshCells (s.modify c Cell.clear) = freshCells s := by
        simp only [freshCells, size_modify, hfresh]
      rw [hcard1] at hcard
      obtain ⟨found2, hm2, hsp2⟩ := ih (hsp1.arena ha1) (found1 ++ work) (found1 ++ marked)
        (by
          intro x hx
          rw [hsp1.around.size, size_modify]
          rcases List.mem_append.mp hx with hx | hx
          · exact hlt1 x hx
          · exact hw x (by simp [hx]))
        (by simp only [List.length_append, List.length_cons] at hl ⊢; omega)
      have hstep : s.spread (limit + 1) (c :: work) marked =
          ((s.modify c Cell.clear).markAll [] (s.cell c).dependents).1.spread limit
            (found1 ++ work) (found1 ++ marked) := by
        rw [spread, ← hm1]
        rfl
      rw [hstep]
      exact ⟨found2 ++ found1, by rw [hm2, List.append_assoc], .turn ha hc hsp1 hmem1 hsp2⟩

/-- What marking the dependents of a cell does, and whom it lists. -/
theorem invalidate_spec (ha : Arena s) (hc : c < s.cells.size) :
    ∃ found, (s.invalidate c).2 = c :: found.reverse ∧ Spread s (s.invalidate c).1 [c] found := by
  have hcard : (freshCells s).card ≤ s.cells.size := by
    refine (Finset.card_filter_le ..).trans ?_
    rw [Finset.card_range]
  obtain ⟨found, hm, hsp⟩ := spread_spec (s.cells.size + 1) ha [c] [] (by simpa using hc)
    (by simp; omega)
  exact ⟨found, by simp [invalidate, hm], hsp⟩

end Store

/-! ## Changes and what they spread to -/

namespace Cell

variable {K : Type → Type}

/-- What no change of a cell touches but its creation, its end and its evaluation. -/
structure Alike (a b : Cell K) : Prop where
  tracker : b.tracker = a.tracker
  dropped : b.dropped = a.dropped
  self : b.self = a.self
  hasSlot : b.hasSlot = a.hasSlot
  epoch : a.epoch ≤ b.epoch
  evaluating : b.state = .evaluating ↔ a.state = .evaluating

/-- What a consumer relies on stays. -/
structure Steady (a b : Cell K) : Prop where
  value : b.value = a.value
  dropped : b.dropped = a.dropped
  disturbed : b.disturbed = a.disturbed
  dependents : b.dependents = a.dependents
  clean : a.state = .clean → b.state = .clean

theorem Alike.refl (a : Cell K) : Alike a a := ⟨rfl, rfl, rfl, rfl, Nat.le_refl _, .rfl⟩

theorem Alike.trans {a b c : Cell K} (h : Alike a b) (h' : Alike b c) : Alike a c :=
  ⟨h'.tracker.trans h.tracker, h'.dropped.trans h.dropped, h'.self.trans h.self,
    h'.hasSlot.trans h.hasSlot, h.epoch.trans h'.epoch, h'.evaluating.trans h.evaluating⟩

theorem Steady.refl (a : Cell K) : Steady a a := ⟨rfl, rfl, rfl, rfl, id⟩

theorem Alike.clear (a : Cell K) : Alike a a.clear := ⟨rfl, rfl, rfl, rfl, Nat.le_refl _, .rfl⟩

theorem Alike.spoil (a : Cell K) : Alike a a.spoil := by
  unfold Cell.spoil
  split
  · rename_i h
    exact ⟨rfl, rfl, rfl, rfl, Nat.le_refl _, by simp [h]⟩
  · exact ⟨rfl, rfl, rfl, rfl, Nat.le_refl _, .rfl⟩
  · exact .refl a

@[simp] theorem dropped_spoil (cell : Cell K) : cell.spoil.dropped = cell.dropped :=
  (Alike.spoil cell).dropped

@[simp] theorem value_spoil (cell : Cell K) : cell.spoil.value = cell.value := by
  unfold spoil
  split <;> rfl

@[simp] theorem binding_spoil (cell : Cell K) : cell.spoil.binding = cell.binding := by
  unfold spoil
  split <;> rfl

@[simp] theorem partner_spoil (cell : Cell K) : cell.spoil.partner = cell.partner := by
  unfold spoil
  split <;> rfl

end Cell

namespace Store

variable {K : Type → Type} {s t : Store K}

/-- The store after a write to `root`, before anyone is notified. -/
def written (s : Store K) (root : CellId) (v : Value) : Store K :=
  let s := if (s.cell root).binding.isSome then s.detach root else s
  if (s.cell root).value.same v then s
  else ((s.modify root fun cell => { cell with value := v }).invalidate root).1

/-- The store after `c` and what depends on it are marked. -/
def upset (s : Store K) (c : CellId) : Store K :=
  if (s.mark c).1 then ((s.mark c).2.invalidate c).1 else (s.mark c).2

/-- The cells that are told of a write, `none` if it changes nothing. -/
def toldOfWrite (s : Store K) (root : CellId) (v : Value) : Option (List CellId) :=
  let s := if (s.cell root).binding.isSome then s.detach root else s
  if (s.cell root).value.same v then none
  else some ((s.modify root fun cell => { cell with value := v }).invalidate root).2

/-- The cells that are told when `c` is marked, `none` if it was marked before. -/
def toldOfUpset (s : Store K) (c : CellId) : Option (List CellId) :=
  if (s.mark c).1 then some ((s.mark c).2.invalidate c).2 else none

/-- From `s` to `t` the cell `c` was changed and its consumers were marked. -/
structure Ripple (s t : Store K) (c : CellId) : Prop where
  around : SameAround s t
  alike : ∀ d, (s.cell d).Alike (t.cell d)
  fewer : ∀ d, (t.cell d).dependents.Sublist (s.cell d).dependents
  other : ∀ d, d ≠ c → t.cell d = s.cell d ∨ (s.cell d).Fresh ∧ t.cell d = (s.cell d).clear.spoil
  /-- A consumer that is still fresh can rely on what it read. -/
  steady : ∀ x e d, e ∈ (s.cell x).dependents → s.consumer? e = some d → d ≠ c →
    (t.cell d).Fresh → (s.cell x).Steady (t.cell x)

theorem Ripple.of_steady (hr : SameAround s t)
    (ho : ∀ d, d ≠ c → t.cell d = s.cell d) (ha : (s.cell c).Alike (t.cell c))
    (hs : (s.cell c).Steady (t.cell c)) : Ripple s t c := by
  refine ⟨hr, fun d => ?_, fun d => ?_, fun d hd => .inl (ho d hd), fun x _ _ _ _ _ _ => ?_⟩
  · by_cases hd : d = c
    · exact hd ▸ ha
    · rw [ho d hd]
      exact .refl _
  · by_cases hd : d = c
    · subst hd
      rw [hs.dependents]
    · rw [ho d hd]
  · by_cases hx : x = c
    · exact hx ▸ hs
    · rw [ho x hx]
      exact .refl _

theorem Ripple.of_spread {s t u : Store K}
    (hr : SameAround s t) (ho : ∀ d, d ≠ c → t.cell d = s.cell d)
    (ha : (s.cell c).Alike (t.cell c)) (hdeps : (t.cell c).dependents = (s.cell c).dependents)
    (hsp : Spread t u [c] found) : Ripple s u c := by
  have hdeps' : ∀ x, (t.cell x).dependents = (s.cell x).dependents := fun x => by
    by_cases hx : x = c
    · exact hx ▸ hdeps
    · rw [ho x hx]
  refine ⟨hr.trans hsp.around, fun d => ?_, fun d => ?_, fun d hd => ?_,
    fun x e d he hd hdc hf => ?_⟩
  · have htd : (s.cell d).Alike (t.cell d) := by
      by_cases hd : d = c
      · exact hd ▸ ha
      · rw [ho d hd]
        exact .refl _
    refine htd.trans ?_
    rw [hsp.cells]
    by_cases hf : d ∈ found
    · simpa [hf] using (Cell.Alike.clear _).trans (.spoil _)
    · by_cases hd : d = c
      · subst hd
        simpa [hf] using Cell.Alike.clear (t.cell d)
      · simpa [hf, hd] using Cell.Alike.refl (t.cell d)
  · rw [hsp.cells, ← hdeps']
    by_cases hw : d ∈ [c] ∨ d ∈ found
    · rw [if_pos hw]
      split <;> simp [Cell.clear]
    · rw [if_neg hw, if_neg fun hf => hw (.inr hf)]
      exact List.Sublist.refl _
  · rw [hsp.cells, ho d hd]
    by_cases hf : d ∈ found
    · exact .inr ⟨by simpa [ho d hd] using (hsp.fresh d hf).2, by simp [hf]⟩
    · exact .inl (by simp [hf, hd])
  · have hd' : t.consumer? e = some d := by
      rwa [consumer?_eq_some, hr.resolve, ho d hdc, ← consumer?_eq_some]
    by_cases hx : x ∈ [c] ∨ x ∈ found
    · exact absurd hf (hsp.closed x hx e (by rwa [hdeps']) d hd')
    · have hxc : x ≠ c := fun h => hx (.inl (by simp [h]))
      rw [hsp.cells, if_neg hx, if_neg (fun h => hx (.inr h)), id, id, ho x hxc]
      exact .refl _

/-- What a change that leaves the state alone does together with marking. -/
theorem ripple_upset (ha : Arena s) (hc : c < s.cells.size)
    {g : Cell K → Cell K} (hal : (s.cell c).Alike (g (s.cell c)))
    (hst : (s.cell c).Steady (g (s.cell c))) :
    Ripple s ((s.modify c g).upset c) c ∧ ¬(((s.modify c g).upset c).cell c).Fresh ∧
      (((s.modify c g).upset c).cell c = g (s.cell c) ∨
        ((s.modify c g).upset c).cell c = (g (s.cell c)).clear.spoil) := by
  have hr := SameAround.modify s c g
  have ho : ∀ d, d ≠ c → (s.modify c g).cell d = s.cell d := fun d hd => cell_modify_ne hd g
  have hself : (s.modify c g).cell c = g (s.cell c) := cell_modify_self hc g
  obtain ⟨htrue, hmr, hmc⟩ := mark_spec (s := s.modify c g) (by simpa using hc)
  rw [hself] at htrue hmc
  have hmo : ∀ d, d ≠ c → ((s.modify c g).mark c).2.cell d = s.cell d := fun d hd => by
    rw [hmc, if_neg hd, ho d hd]
  have hms : ((s.modify c g).mark c).2.cell c = (g (s.cell c)).spoil := by rw [hmc, if_pos rfl]
  unfold upset
  split
  · have hsame : SameSlots s ((s.modify c g).mark c).2 := fun d => by
      by_cases hd : d = c
      · subst hd
        rw [hms, Cell.hasSlot_spoil, Cell.self_spoil]
        exact ⟨hal.hasSlot, hal.self⟩
      · rw [hmo d hd]
        exact ⟨rfl, rfl⟩
    have har := ha.transfer (hr.trans hmr).slots (hr.trans hmr).free hsame
    obtain ⟨found, -, hsp⟩ := invalidate_spec har (by rw [(hr.trans hmr).size]; exact hc)
    have hcf : c ∉ found := fun h =>
      Cell.not_fresh_spoil _ (by simpa [hms] using (hsp.fresh c h).2)
    have hend : ((((s.modify c g).mark c).2.invalidate c).1).cell c =
        (g (s.cell c)).clear.spoil := by
      rw [hsp.cells, hms]
      simp [hcf, Cell.spoil_clear]
    refine ⟨.of_spread (hr.trans hmr) hmo (by rw [hms]; exact hal.trans (.spoil _)) ?_ hsp, ?_,
      .inr hend⟩
    · rw [hms, Cell.dependents_spoil, hst.dependents]
    · rw [hend]
      exact Cell.not_fresh_spoil _
  · rename_i hmark
    have hf : ¬(g (s.cell c)).Fresh := fun h => hmark (htrue.mpr h)
    rw [Cell.spoil_of_not_fresh hf] at hms
    refine ⟨.of_steady (hr.trans hmr) hmo (by rwa [hms]) (by rwa [hms]), by rwa [hms], .inl hms⟩

theorem ripple_rebind (ha : Arena s) (hc : c < s.cells.size) (b : Binding K) :
    Ripple s ((s.rebind c b).upset c) c ∧ ¬(((s.rebind c b).upset c).cell c).Fresh := by
  obtain ⟨hr, hf, -⟩ := ripple_upset ha hc (g := fun cell =>
    { cell with
      binding := some b, bindings := cell.bindings + 1, partner := none, epoch := cell.epoch + 1 })
    ⟨rfl, rfl, rfl, rfl, Nat.le_succ _, .rfl⟩ ⟨rfl, rfl, rfl, rfl, id⟩
  exact ⟨hr, hf⟩

/-- Forgets what a tracker depends on and marks it. -/
def forget (s : Store K) (t : CellId) : Store K :=
  (s.modify t fun cell => { cell with epoch := cell.epoch + 1 }).upset t

theorem ripple_forget (ha : Arena s) {t : CellId} (ht : t < s.cells.size) :
    Ripple s (s.forget t) t ∧ ¬((s.forget t).cell t).Fresh := by
  obtain ⟨hr, hf, -⟩ := ripple_upset ha ht (g := fun cell => { cell with epoch := cell.epoch + 1 })
    ⟨rfl, rfl, rfl, rfl, Nat.le_succ _, .rfl⟩ ⟨rfl, rfl, rfl, rfl, id⟩
  exact ⟨hr, hf⟩

theorem ripple_written (ha : Arena s) {root : CellId} (hc : root < s.cells.size)
    (v : Value) : Ripple s (s.written root v) root ∧ ((s.written root v).cell root).binding = none ∧
      (((s.written root v).cell root).partner = none ∨
        ((s.written root v).cell root).partner = (s.cell root).partner) ∧
      ((s.written root v).cell root).value =
        if (s.cell root).value.same v then (s.cell root).value else v := by
  -- the store after the binding is gone
  obtain ⟨t, ht, hr, ho, hal, hst, hb, hp⟩ : ∃ t,
      t = (if (s.cell root).binding.isSome then s.detach root else s) ∧ SameAround s t ∧
      (∀ d, d ≠ root → t.cell d = s.cell d) ∧ (s.cell root).Alike (t.cell root) ∧
      (s.cell root).Steady (t.cell root) ∧ (t.cell root).binding = none ∧
      ((t.cell root).partner = none ∨ (t.cell root).partner = (s.cell root).partner) := by
    refine ⟨_, rfl, ?_⟩
    split
    · have hself : (s.detach root).cell root = _ := cell_modify_self hc _
      refine ⟨.modify .., fun d hd => cell_modify_ne hd _, ?_, ?_, by rw [hself],
        .inl (by rw [hself])⟩
      · rw [hself]
        refine ⟨rfl, rfl, rfl, rfl, Nat.le_succ _, ?_⟩
        by_cases h : (s.cell root).state = .dirty <;> simp [h]
      · rw [hself]
        exact ⟨rfl, rfl, rfl, rfl, fun h => by simp [h]⟩
    · rename_i hnone
      exact ⟨.refl s, fun _ _ => rfl, .refl _, .refl _, by simpa using hnone, .inr rfl⟩
  have hw : s.written root v = if (t.cell root).value.same v then t
      else ((t.modify root fun cell => { cell with value := v }).invalidate root).1 := by
    rw [ht]
    rfl
  rw [hw, hst.value]
  split
  · exact ⟨.of_steady hr ho hal hst, hb, hp, hst.value⟩
  · have hct : root < t.cells.size := by rw [hr.size]; exact hc
    have hvr : SameAround t (t.modify root fun cell => { cell with value := v }) := .modify ..
    have hvs : (t.modify root fun cell => { cell with value := v }).cell root = _ :=
      cell_modify_self hct _
    have hvo : ∀ d, d ≠ root →
        (t.modify root fun cell => { cell with value := v }).cell d = s.cell d := fun d hd => by
      rw [cell_modify_ne hd, ho d hd]
    have har : Arena (t.modify root fun cell => { cell with value := v }) := by
      refine ha.transfer hr.slots hr.free fun d => ?_
      by_cases hd : d = root
      · subst hd
        rw [hvs]
        exact ⟨hal.hasSlot, hal.self⟩
      · rw [hvo d hd]
        exact ⟨rfl, rfl⟩
    obtain ⟨found, -, hsp⟩ := invalidate_spec har (by simpa using hct)
    have hend := hsp.cells root
    rw [hvs] at hend
    refine ⟨.of_spread (hr.trans hvr) hvo ?_ ?_ hsp, ?_, ?_, ?_⟩
    · rw [hvs]
      exact ⟨hal.tracker, hal.dropped, hal.self, hal.hasSlot, hal.epoch, hal.evaluating⟩
    · rw [hvs]
      exact hst.dependents
    all_goals
      rw [hend]
      by_cases hf : root ∈ found <;> simp [hf, Cell.clear, hb, hp]

end Store

end ReactiveTree
