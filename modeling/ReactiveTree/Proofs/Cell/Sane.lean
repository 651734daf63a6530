import Mathlib.Data.List.ReduceOption
import ReactiveTree.Proofs.Cell.Step

/-!
# Sane stores

The bookkeeping that every store of a run satisfies, whether the run goes on or is being
unwound: slots, the evaluation stack and the number of evaluations agree; a cell is being
evaluated exactly when it stands on the stack, unless it was dropped there; an edge
leaves a property and names a consumer that lives, or one that is gone for good.
-/

namespace ReactiveTree

variable {K : Type → Type}
variable {c : CellId} {s t : Store K}

/-- A cell whose content comes from an evaluation. -/
def Cell.Computed (cell : Cell K) : Prop := cell.binding.isSome = true ∨ cell.tracker = true

/-- All that the bookkeeping looks at agrees. -/
structure Cell.Minor (a b : Cell K) : Prop where
  tracker : b.tracker = a.tracker
  binding : b.binding = a.binding
  partner : b.partner = a.partner
  state : b.state = a.state
  disturbed : b.disturbed = a.disturbed
  dropped : b.dropped = a.dropped
  self : b.self = a.self
  hasSlot : b.hasSlot = a.hasSlot
  epoch : b.epoch = a.epoch
  dependents : b.dependents = a.dependents

theorem Cell.Minor.refl (a : Cell K) :
    Minor a a := ⟨rfl, rfl, rfl, rfl, rfl, rfl, rfl, rfl, rfl, rfl⟩

theorem Cell.Minor.alike {a b : Cell K} (h : Minor a b) : Alike a b :=
  ⟨h.tracker, h.dropped, h.self, h.hasSlot, h.epoch.ge, by rw [h.state]⟩

namespace Store

/-- The cells under evaluation, innermost first. -/
def consumers (s : Store K) : List CellId := s.stack.reduceOption

theorem mem_consumers : c ∈ s.consumers ↔ some c ∈ s.stack :=
  List.reduceOption_mem_iff

/-- The consumer of an edge lives and has not gone back in its count, or is gone for good. -/
def Known (s : Store K) (e : Edge) : Prop :=
  (∃ d, (s.cell d).hasSlot = true ∧ (s.cell d).self = e.consumer ∧ e.epoch ≤ (s.cell d).epoch) ∨
    Retired s e.consumer

structure Sane (s : Store K) : Prop where
  arena : Arena s
  nodup : s.consumers.Nodup
  active : s.active = s.consumers.length
  consumer : ∀ c ∈ s.consumers, c < s.cells.size ∧
    ((s.cell c).dropped = false ∧ (s.cell c).state = .evaluating ∧ (s.cell c).hasSlot = true ∨
      (s.cell c).dropped = true ∧ Retired s (s.cell c).self)
  evaluating : ∀ c, (s.cell c).state = .evaluating → c ∈ s.consumers
  dropped : ∀ c, (s.cell c).dropped = true →
    (s.cell c).hasSlot = false ∧ (s.cell c).dependents = []
  edges : ∀ c, ∀ e ∈ (s.cell c).dependents, (s.cell c).tracker = false ∧ Known s e
  follows : ∀ c root, (s.cell c).binding = some (.follow root) → s.IsProperty root
  partners : ∀ c p, (s.cell c).partner = some p → s.IsProperty p
  trackers : ∀ c, (s.cell c).tracker = true → (s.cell c).binding = none
  seen : ∀ f ∈ s.frames, ∀ x ∈ f.seen, s.IsProperty x
  slotted : ∀ c, (s.cell c).Computed → (s.cell c).state = .clean → (s.cell c).dropped = false →
    (s.cell c).hasSlot = true

theorem sane_empty (reports : Bool) : Sane ({ reports } : Store K) := by
  have hcell : ∀ c, ({ reports } : Store K).cell c = {} := fun c => cell_of_size_le (Nat.zero_le _)
  have hcons : ({ reports } : Store K).consumers = [] := rfl
  refine ⟨⟨fun c => ?_, ?_, ?_, ?_⟩, ?_, rfl, ?_, fun c => ?_, fun c => ?_, fun c => ?_,
    fun c => ?_, fun c => ?_, fun c => ?_, ?_, fun c => ?_⟩
  all_goals simp [hcell, hcons, Cell.Computed]

/-! ## Steps that keep the evaluation stack -/

/-- Slots and the cells under evaluation are the same. -/
structure SameBase (s t : Store K) : Prop where
  size : t.cells.size = s.cells.size
  slots : t.slots = s.slots
  free : t.free = s.free
  active : t.active = s.active
  consumers : t.consumers = s.consumers

theorem SameAround.base (h : SameAround s t) : SameBase s t :=
  ⟨h.size, h.slots, h.free, h.active, by simp [Store.consumers, stack, h.frames]⟩

theorem Known.transfer {e : Edge} (h : Known s e) (hslots : t.slots = s.slots)
    (hal : ∀ d, (s.cell d).Alike (t.cell d)) : Known t e := by
  rcases h with ⟨d, hd, hself, hle⟩ | hr
  · exact .inl ⟨d, (hal d).hasSlot ▸ hd, (hal d).self.trans hself, hle.trans (hal d).epoch⟩
  · exact .inr (hr.transfer hslots)

theorem IsProperty.transfer (h : s.IsProperty c)
    (hsize : t.cells.size = s.cells.size) (hal : (s.cell c).Alike (t.cell c)) : t.IsProperty c :=
  ⟨hsize ▸ h.1, hal.tracker.trans h.2⟩

/-- In a sane store `s`, the cell `b` can take the place of `a`. -/
structure Fits (s : Store K) (a b : Cell K) : Prop where
  alike : a.Alike b
  edges : ∀ e ∈ b.dependents, a.dropped = false ∧ a.tracker = false ∧ Known s e
  follows : ∀ root, b.binding = some (.follow root) → s.IsProperty root
  partners : ∀ p, b.partner = some p → s.IsProperty p
  trackers : a.tracker = true → b.binding = none
  clean : b.Computed → b.state = .clean → a.Computed ∧ a.state = .clean

theorem Sane.not_dropped_of_mem (h : Sane s) {e : Edge}
    (he : e ∈ (s.cell c).dependents) : (s.cell c).dropped = false :=
  Bool.eq_false_iff.mpr fun hd => by
    rw [(h.dropped c hd).2] at he
    cases he

theorem Sane.fits (h : Sane s) (c : CellId) : Fits s (s.cell c) (s.cell c) :=
  ⟨.refl _, fun e he => ⟨h.not_dropped_of_mem he, h.edges c e he⟩, h.follows c, h.partners c,
    h.trackers c, fun hc hs => ⟨hc, hs⟩⟩

theorem Sane.transfer (h : Sane s) (hb : SameBase s t)
    (hseen : ∀ f ∈ t.frames, ∀ x ∈ f.seen, s.IsProperty x)
    (hfits : ∀ c, Fits s (s.cell c) (t.cell c)) : Sane t := by
  have hal := fun c => (hfits c).alike
  have hprop : ∀ c, s.IsProperty c → t.IsProperty c := fun c hc => hc.transfer hb.size (hal c)
  refine ⟨h.arena.transfer hb.slots hb.free fun d => ⟨(hal d).hasSlot, (hal d).self⟩, ?_, ?_,
    fun c hc => ?_, fun c hc => ?_, fun c hc => ?_, fun c e he => ?_, ?_, ?_, fun c hc => ?_, ?_,
    fun c hc hs hd => ?_⟩
  · exact hb.consumers ▸ h.nodup
  · rw [hb.active, hb.consumers, h.active]
  · rw [hb.consumers] at hc
    obtain ⟨hlt, hcase⟩ := h.consumer c hc
    refine ⟨by rwa [hb.size], ?_⟩
    rw [(hal c).dropped, (hal c).evaluating, (hal c).hasSlot, (hal c).self]
    exact hcase.imp id fun hr => ⟨hr.1, hr.2.transfer hb.slots⟩
  · rw [hb.consumers]
    exact h.evaluating c ((hal c).evaluating.mp hc)
  · rw [(hal c).dropped] at hc
    refine ⟨(hal c).hasSlot.trans (h.dropped c hc).1, ?_⟩
    exact List.eq_nil_iff_forall_not_mem.mpr fun e he =>
      absurd ((hfits c).edges e he).1 (by simp [hc])
  · obtain ⟨-, ht, hk⟩ := (hfits c).edges e he
    exact ⟨(hal c).tracker.trans ht, hk.transfer hb.slots hal⟩
  · exact fun c root hr => hprop root ((hfits c).follows root hr)
  · exact fun c p hp => hprop p ((hfits c).partners p hp)
  · exact (hfits c).trackers ((hal c).tracker.symm.trans hc)
  · exact fun f hf x hx => hprop x (hseen f hf x hx)
  · obtain ⟨hc', hs'⟩ := (hfits c).clean hc hs
    rw [(hal c).hasSlot]
    exact h.slotted c hc' hs' ((hal c).dropped.symm.trans hd)

theorem Sane.minor (h : Sane s) (hr : SameAround s t)
    (hm : ∀ d, (s.cell d).Minor (t.cell d)) : Sane t := by
  refine h.transfer hr.base (hr.frames ▸ h.seen) fun c => ?_
  have hc := h.fits c
  refine ⟨(hm c).alike, ?_, ?_, ?_, ?_, fun hk hs => ?_⟩
  · rw [(hm c).dependents]
    exact hc.edges
  · rw [(hm c).binding]
    exact hc.follows
  · rw [(hm c).partner]
    exact hc.partners
  · rw [(hm c).binding]
    exact hc.trackers
  · exact ⟨by rwa [Cell.Computed, ← (hm c).binding, ← (hm c).tracker], (hm c).state.symm.trans hs⟩

theorem minor_modify (c : CellId) (g : Cell K → Cell K)
    (ht : t.cells = s.cells.modify c g) (hg : ∀ cell, Cell.Minor cell (g cell)) (d : CellId) :
    (s.cell d).Minor (t.cell d) := by
  have hcell : t.cell d = (s.modify c g).cell d := by rw [cell, cell, ht, modify]
  rw [hcell, cell_modify]
  split
  · exact hg _
  · exact .refl _

theorem minor_observe (s : Store K) (c : CellId) (code : K Unit) (d : CellId) :
    (s.cell d).Minor ((s.observe c code).2.cell d) :=
  minor_modify c (fun cell => { cell with observers := cell.observers ++ [s.observers.size] }) rfl
    (fun _ => ⟨rfl, rfl, rfl, rfl, rfl, rfl, rfl, rfl, rfl, rfl⟩) d

theorem minor_keep (s : Store K) (c : CellId) (bindings : Nat) (v : Value) (d : CellId) :
    (s.cell d).Minor ((s.keep c bindings v).cell d) := by
  refine minor_modify c (fun cell =>
    if cell.bindings = bindings && !cell.dropped then { cell with value := v } else cell) rfl
    (fun cell => ?_) d
  split
  · exact ⟨rfl, rfl, rfl, rfl, rfl, rfl, rfl, rfl, rfl, rfl⟩
  · exact .refl _

theorem sameAround_observe (s : Store K) (c : CellId) (code : K Unit) :
    SameAround s (s.observe c code).2 :=
  ⟨by simp [observe], rfl, rfl, rfl, rfl, rfl⟩

theorem minor_unobserve (s : Store K) (o : ObserverId) (d : CellId) :
    (s.cell d).Minor ((s.unobserve o).cell d) := by
  unfold unobserve
  split
  · exact .refl _
  · rename_i observer _
    exact minor_modify observer.cell
      (fun cell => { cell with observers := cell.observers.filter (· != o) }) rfl
      (fun _ => ⟨rfl, rfl, rfl, rfl, rfl, rfl, rfl, rfl, rfl, rfl⟩) d

theorem sameAround_unobserve (s : Store K) (o : ObserverId) : SameAround s (s.unobserve o) := by
  unfold unobserve
  split
  · exact .refl s
  · exact ⟨by simp, rfl, rfl, rfl, rfl, rfl⟩

theorem Sane.ripple (h : Sane s) (hr : Ripple s t c)
    (hfollows : ∀ root, (t.cell c).binding = some (.follow root) → s.IsProperty root)
    (hpartners : ∀ p, (t.cell c).partner = some p → s.IsProperty p)
    (htracker : (s.cell c).tracker = true → (t.cell c).binding = none)
    (hclean : ¬(t.cell c).Fresh ∨ (t.cell c).binding = none ∧ (s.cell c).tracker = false) :
    Sane t := by
  refine h.transfer hr.around.base (hr.around.frames ▸ h.seen) fun d => ?_
  have hedges : ∀ e ∈ (t.cell d).dependents,
      (s.cell d).dropped = false ∧ (s.cell d).tracker = false ∧ Known s e :=
    fun e he => (h.fits d).edges e ((hr.fewer d).subset he)
  by_cases hdc : d = c
  · subst hdc
    refine ⟨hr.alike d, hedges, hfollows, hpartners, htracker, fun hk hs => ?_⟩
    rcases hclean with hf | ⟨hb, ht⟩
    · exact absurd (.inl hs) hf
    · rcases hk with hk | hk
      · simp [hb] at hk
      · rw [(hr.alike d).tracker, ht] at hk
        cases hk
  · -- elsewhere bindings stay and no cell becomes clean
    rcases hr.other d hdc with heq | ⟨_, heq⟩
    · exact heq ▸ h.fits d
    · refine ⟨hr.alike d, hedges, ?_, ?_, ?_, fun _ hs => ?_⟩
      · rw [heq, Cell.binding_spoil]
        exact h.follows d
      · rw [heq, Cell.partner_spoil]
        exact h.partners d
      · rw [heq, Cell.binding_spoil]
        exact h.trackers d
      · rw [heq] at hs
        exact absurd (.inl hs) (Cell.not_fresh_spoil _)

/-! ## Links -/

theorem partner?_eq_some {p : CellId} (h : s.partner? c = some p) :
    (s.cell c).partner = some p ∧ (s.cell p).dropped = false := by
  unfold partner? at h
  split at h
  · rename_i q hq
    split at h
    · cases h
    · rename_i hlive
      cases h
      exact ⟨hq, by simpa using hlive⟩
  · cases h

theorem Sane.isProperty_linkRoot (h : Sane s) (hc : s.IsProperty c) :
    s.IsProperty (s.linkRoot c) := by
  unfold linkRoot
  generalize s.cells.size = limit
  induction limit generalizing c with
  | zero => exact hc
  | succ limit ih =>
    unfold follow
    split
    · rename_i p hp
      exact ih (h.partners c p (partner?_eq_some hp).1)
    · exact hc

theorem dropped_linkRoot (hd : (s.cell c).dropped = false) :
    (s.cell (s.linkRoot c)).dropped = false := by
  unfold linkRoot
  generalize s.cells.size = limit
  induction limit generalizing c with
  | zero => exact hd
  | succ limit ih =>
    unfold follow
    split
    · rename_i p hp
      exact ih (partner?_eq_some hp).2
    · exact hd

/-! ## Reads -/

theorem Sane.reframe (h : Sane s) (hcells : t.cells = s.cells)
    (hb : SameBase s t) (hseen : ∀ f ∈ t.frames, ∀ x ∈ f.seen, s.IsProperty x) : Sane t := by
  refine h.transfer hb hseen fun d => ?_
  have hcell : t.cell d = s.cell d := by rw [cell, cell, hcells]
  exact hcell ▸ h.fits d

theorem Sane.known_edge (h : Sane s) {r : CellId} (hr : r ∈ s.consumers) :
    Known s (s.cell r).edge := by
  rcases (h.consumer r hr).2 with ⟨_, _, hs⟩ | ⟨_, hret⟩
  · exact .inl ⟨r, hs, rfl, Nat.le_refl _⟩
  · exact .inr hret

theorem mem_consumers_of_reader {r : CellId} (h : s.reader = some r) : r ∈ s.consumers := by
  obtain ⟨rest, hs⟩ := reader_eq_some.mp h
  rw [mem_consumers, hs]
  exact .head _

theorem Sane.track (h : Sane s) (hc : s.IsProperty c)
    (hd : (s.cell c).dropped = false) : Sane (s.track c) := by
  have hseen : ∀ f ∈ (s.track c).frames, ∀ x ∈ f.seen, s.IsProperty x := by
    have ht := s.tracked c
    generalize s.track c = t at ht ⊢
    cases ht with
    | idle => exact h.seen
    | @edge f rest r hf hr hne hs =>
      intro g hg x hx
      rcases List.mem_cons.mp hg with rfl | hg
      · rcases List.mem_cons.mp hx with rfl | hx
        · exact hc
        · exact h.seen f (hf ▸ .head _) x hx
      · exact h.seen g (hf ▸ .tail _ hg) x hx
  refine h.transfer ⟨by simp, by simp, by simp, by simp, by simp [consumers]⟩ hseen fun d => ?_
  by_cases hdc : d = c
  · subst hdc
    obtain ⟨edges, room, hcell, hof, -⟩ := s.cell_track hc.1
    have hfits := h.fits d
    rw [hcell]
    refine ⟨⟨rfl, rfl, rfl, rfl, Nat.le_refl _, .rfl⟩, fun e he => ⟨hd, hc.2, ?_⟩, hfits.follows,
      hfits.partners, hfits.trackers, hfits.clean⟩
    rcases hof e he with he | ⟨r, hr, rfl⟩
    · exact (h.edges d e he).2
    · exact h.known_edge (mem_consumers_of_reader hr)
  · rw [cell_track_ne hdc]
    exact h.fits d

theorem Sane.settle (h : Sane s) (hc : s.IsProperty c)
    (hs : (s.cell c).state = .dirty) (hb : (s.cell c).binding = none) :
    Sane (s.modify c fun cell => { cell with state := .clean }) := by
  refine h.transfer (SameAround.modify ..).base h.seen fun d => ?_
  have hfits := h.fits d
  by_cases hdc : d = c
  · subst hdc
    rw [cell_modify_self hc.1]
    exact ⟨⟨rfl, rfl, rfl, rfl, Nat.le_refl _, by simp [hs]⟩, hfits.edges, hfits.follows,
      hfits.partners, hfits.trackers, fun hk _ => by simp [Cell.Computed, hb, hc.2] at hk⟩
  · rw [cell_modify_ne hdc]
    exact hfits

theorem Sane.pair {s : Store K} (h : Sane s) {root : CellId} (hroot : s.IsProperty root)
    (c : CellId) : Sane (s.pair c root) := by
  refine h.transfer (SameAround.modify ..).base h.seen fun d => ?_
  have hfits := h.fits d
  rw [cell_modify]
  split
  · exact ⟨⟨rfl, rfl, rfl, rfl, Nat.le_refl _, .rfl⟩, hfits.edges, hfits.follows,
      fun p hp => Option.some.inj hp ▸ hroot, hfits.trackers, hfits.clean⟩
  · exact hfits

/-! ## Evaluations -/

theorem Sane.not_mem_consumers (h : Sane s)
    (hd : (s.cell c).dropped = false) (hs : (s.cell c).state ≠ .evaluating) :
    c ∉ s.consumers := fun hc => by
  rcases (h.consumer c hc).2 with ⟨_, he, _⟩ | ⟨hd', _⟩
  · exact hs he
  · simp [hd] at hd'

theorem Sane.enter (h : Sane s) (hc : c < s.cells.size)
    (hd : (s.cell c).dropped = false) (hs : (s.cell c).state ≠ .evaluating) : Sane (s.enter c) := by
  obtain ⟨har, hret, -⟩ := h.arena.takeSlot hc
  obtain ⟨r, hr⟩ := s.cell_takeSlot hc
  have hself : (s.enter c).cell c = _ := (s.cell_enter hc c).trans (if_pos rfl)
  have hother : ∀ d, d ≠ c → (s.enter c).cell d = s.cell d := fun d hdc =>
    (s.cell_enter hc d).trans (if_neg hdc)
  have hcons : (s.enter c).consumers = c :: s.consumers := by simp [consumers]
  have hprop : ∀ x, s.IsProperty x → (s.enter c).IsProperty x := fun x hx => by
    refine ⟨by simpa using hx.1, ?_⟩
    by_cases hxc : x = c
    · subst hxc
      rw [hself]
      exact hx.2
    · rw [hother x hxc]
      exact hx.2
  have hretired : ∀ r, Retired s r → Retired (s.enter c) r := fun r hr =>
    (hret r hr).transfer rfl
  have hbinding : ∀ d, ((s.enter c).cell d).binding = (s.cell d).binding ∧
      ((s.enter c).cell d).partner = (s.cell d).partner ∧
      ((s.enter c).cell d).dependents = (s.cell d).dependents ∧
      ((s.enter c).cell d).tracker = (s.cell d).tracker := fun d => by
    by_cases hdc : d = c
    · subst hdc
      rw [hself]
      exact ⟨rfl, rfl, rfl, rfl⟩
    · rw [hother d hdc]
      exact ⟨rfl, rfl, rfl, rfl⟩
  refine ⟨har.transfer rfl rfl fun d => ?_, ?_, ?_, fun d hdm => ?_, fun d hde => ?_,
    fun d hdd => ?_, fun d e he => ?_, fun d root hb => ?_, fun d p hp => ?_, fun d ht => ?_,
    fun f hf x hx => ?_, fun d hk hcl hdd => ?_⟩
  · by_cases hdc : d = c
    · subst hdc
      rw [hself, hr]
      simp
    · rw [hother d hdc, hr, if_neg hdc]
      exact ⟨rfl, rfl⟩
  · rw [hcons, List.nodup_cons]
    exact ⟨h.not_mem_consumers hd hs, h.nodup⟩
  · rw [active_enter, hcons, h.active, List.length_cons]
  · by_cases hdc : d = c
    · subst hdc
      rw [hself]
      exact ⟨by simpa using hc, .inl ⟨hd, rfl, rfl⟩⟩
    · rw [hcons, List.mem_cons] at hdm
      obtain ⟨hlt, hcase⟩ := h.consumer d (hdm.resolve_left hdc)
      rw [hother d hdc]
      exact ⟨by simpa using hlt, hcase.imp id fun hr => ⟨hr.1, hretired _ hr.2⟩⟩
  · rw [hcons]
    by_cases hdc : d = c
    · exact hdc ▸ .head _
    · rw [hother d hdc] at hde
      exact .tail _ (h.evaluating d hde)
  · by_cases hdc : d = c
    · subst hdc
      rw [hself] at hdd
      simp [hd] at hdd
    · rw [hother d hdc] at hdd ⊢
      exact h.dropped d hdd
  · rw [(hbinding d).2.2.1] at he
    obtain ⟨ht, hk⟩ := h.edges d e he
    refine ⟨(hbinding d).2.2.2.trans ht, ?_⟩
    rcases hk with ⟨x, hx, hxs, hle⟩ | hr'
    · refine .inl ⟨x, ?_⟩
      by_cases hxc : x = c
      · subst hxc
        rw [hself, takeSlot_of_hasSlot hx]
        exact ⟨rfl, hxs, Nat.le_succ_of_le hle⟩
      · rw [hother x hxc]
        exact ⟨hx, hxs, hle⟩
    · exact .inr (hretired _ hr')
  · exact hprop root (h.follows d root ((hbinding d).1 ▸ hb))
  · exact hprop p (h.partners d p ((hbinding d).2.1 ▸ hp))
  · exact (hbinding d).1.trans (h.trackers d ((hbinding d).2.2.2 ▸ ht))
  · rw [frames_enter] at hf
    rcases List.mem_cons.mp hf with rfl | hf
    · cases hx
    · exact hprop x (h.seen f hf x hx)
  · by_cases hdc : d = c
    · subst hdc
      rw [hself] at hcl
      cases hcl
    · rw [hother d hdc] at hk hcl hdd ⊢
      exact h.slotted d hk hcl hdd

theorem Sane.consumers_leave (h : Sane s) (hr : s.reader = some c)
    (completed : Bool) : s.consumers = c :: (s.leave c completed).consumers ∧
      c ∉ (s.leave c completed).consumers := by
  obtain ⟨rest, hs⟩ := reader_eq_some.mp hr
  have hcons : s.consumers = c :: (s.leave c completed).consumers := by simp [consumers, hs]
  refine ⟨hcons, ?_⟩
  have hn := h.nodup
  rw [hcons, List.nodup_cons] at hn
  exact hn.1

theorem Sane.leave (h : Sane s) (hr : s.reader = some c)
    (completed : Bool) : Sane (s.leave c completed) := by
  obtain ⟨hcons, hnot⟩ := h.consumers_leave hr completed
  obtain ⟨hc, hcase⟩ := h.consumer c (mem_consumers_of_reader hr)
  -- only the state of `c` changes
  have hcell : ∀ d, ∃ state, (s.leave c completed).cell d = { s.cell d with state := state } ∧
      (d ≠ c → state = (s.cell d).state) ∧ (d = c → state ≠ .evaluating) := fun d => by
    rw [cell_leave hc]
    by_cases hdc : d = c
    · subst hdc
      refine ⟨_, if_pos rfl, fun hne => absurd rfl hne, fun _ => ?_⟩
      split <;> simp
    · exact ⟨_, if_neg hdc, fun _ => rfl, fun heq => absurd heq hdc⟩
  have hprop : ∀ x, s.IsProperty x → (s.leave c completed).IsProperty x := fun x hx => by
    obtain ⟨state, heq, -⟩ := hcell x
    exact ⟨by simpa using hx.1, by rw [heq]; exact hx.2⟩
  have hknown : ∀ e, Known s e → Known (s.leave c completed) e := fun e he => by
    rcases he with ⟨d, hd, hself, hle⟩ | hret
    · obtain ⟨state, heq, -⟩ := hcell d
      exact .inl ⟨d, by rw [heq]; exact ⟨hd, hself, hle⟩⟩
    · exact .inr (hret.transfer rfl)
  refine ⟨h.arena.transfer rfl rfl fun d => ?_, ?_, ?_, fun d hd => ?_, fun d hd => ?_,
    fun d hd => ?_, fun d e he => ?_, fun d root hb => ?_, fun d p hp => ?_, fun d ht => ?_,
    fun f hf x hx => ?_, fun d hk hcl hdd => ?_⟩
  · obtain ⟨state, heq, -⟩ := hcell d
    rw [heq]
    exact ⟨rfl, rfl⟩
  · have hn := h.nodup
    rw [hcons, List.nodup_cons] at hn
    exact hn.2
  · rw [active_leave, h.active, hcons, List.length_cons, Nat.add_sub_cancel]
  · obtain ⟨state, heq, hst, -⟩ := hcell d
    obtain ⟨hlt, hd'⟩ := h.consumer d (hcons ▸ .tail _ hd)
    rw [hst fun hdc => hnot (hdc ▸ hd)] at heq
    rw [heq]
    exact ⟨by simpa using hlt, hd'.imp id fun hr => ⟨hr.1, hr.2.transfer rfl⟩⟩
  · obtain ⟨state, heq, hst, hev⟩ := hcell d
    rw [heq] at hd
    have hdc : d ≠ c := fun hdc => hev hdc hd
    have hmem := h.evaluating d ((hst hdc).symm.trans hd)
    rw [hcons] at hmem
    exact (List.mem_cons.mp hmem).resolve_left hdc
  · obtain ⟨state, heq, -⟩ := hcell d
    rw [heq] at hd ⊢
    exact h.dropped d hd
  · obtain ⟨state, heq, -⟩ := hcell d
    rw [heq] at he ⊢
    exact ⟨(h.edges d e he).1, hknown e (h.edges d e he).2⟩
  · obtain ⟨state, heq, -⟩ := hcell d
    rw [heq] at hb
    exact hprop root (h.follows d root hb)
  · obtain ⟨state, heq, -⟩ := hcell d
    rw [heq] at hp
    exact hprop p (h.partners d p hp)
  · obtain ⟨state, heq, -⟩ := hcell d
    rw [heq] at ht ⊢
    exact h.trackers d ht
  · exact hprop x (h.seen f (List.mem_of_mem_tail hf) x hx)
  · obtain ⟨state, heq, hst, -⟩ := hcell d
    rw [heq] at hk hcl hdd ⊢
    by_cases hdc : d = c
    · subst hdc
      rcases hcase with ⟨_, _, hs⟩ | ⟨hdr, _⟩
      · exact hs
      · rw [hdr] at hdd
        cases hdd
    · exact h.slotted d hk ((hst hdc).symm.trans hcl) hdd

/-! ## The life of a cell -/

theorem Sane.drop {s : Store K} (h : Sane s) {c : CellId} (hc : c < s.cells.size) :
    Sane (s.drop c) := by
  have hself : (s.drop c).cell c = _ := (cell_drop hc c).trans (if_pos rfl)
  have hother : ∀ d, d ≠ c → (s.drop c).cell d = s.cell d := fun d hdc =>
    (cell_drop hc d).trans (if_neg hdc)
  by_cases hd : (s.cell c).dropped = true
  · rw [if_pos hd] at hself
    have hr : SameAround s (s.drop c) := by
      rw [drop_eq hc, if_pos hd]
      exact .modify ..
    refine h.transfer hr.base (hr.frames ▸ h.seen) fun d => ?_
    have hfits := h.fits d
    by_cases hdc : d = c
    · subst hdc
      rw [hself]
      refine ⟨⟨rfl, rfl, rfl, rfl, Nat.le_refl _, .rfl⟩, hfits.edges, nofun, nofun, fun _ => rfl,
        fun hk hcl => ⟨.inr (hk.resolve_left (by simp)), hcl⟩⟩
    · rw [hother d hdc]
      exact hfits
  · rw [if_neg hd] at hself
    have hd' : (s.cell c).dropped = false := by simpa using hd
    obtain ⟨har, hret, hretc⟩ := h.arena.drop hc hd'
    have hprop : ∀ x, s.IsProperty x → (s.drop c).IsProperty x := fun x hx => by
      refine ⟨by simpa using hx.1, ?_⟩
      by_cases hxc : x = c
      · subst hxc
        rw [hself]
        exact hx.2
      · rw [hother x hxc]
        exact hx.2
    have hcons : (s.drop c).consumers = s.consumers := by simp [consumers]
    refine ⟨har, hcons ▸ h.nodup, ?_, fun d hdm => ?_, fun d hde => ?_, fun d hdd => ?_,
      fun d e he => ?_, fun d root hb => ?_, fun d p hp => ?_, fun d ht => ?_, fun f hf x hx => ?_,
      fun d hk hcl hdd => ?_⟩
    · rw [active_drop, hcons, h.active]
    · rw [hcons] at hdm
      obtain ⟨hlt, hcase⟩ := h.consumer d hdm
      refine ⟨by simpa using hlt, ?_⟩
      by_cases hdc : d = c
      · subst hdc
        rw [hself]
        rcases hcase with ⟨_, _, hs⟩ | ⟨hdr, _⟩
        · exact .inr ⟨rfl, hretc hs⟩
        · rw [hd'] at hdr
          cases hdr
      · rw [hother d hdc]
        exact hcase.imp id fun hr => ⟨hr.1, hret _ hr.2⟩
    · rw [hcons]
      by_cases hdc : d = c
      · subst hdc
        rw [hself] at hde
        cases hde
      · exact h.evaluating d (hother d hdc ▸ hde)
    · by_cases hdc : d = c
      · subst hdc
        rw [hself]
        exact ⟨rfl, rfl⟩
      · rw [hother d hdc] at hdd ⊢
        exact h.dropped d hdd
    · have hdc : d ≠ c := fun hdc => by
        subst hdc
        rw [hself] at he
        cases he
      rw [hother d hdc] at he ⊢
      obtain ⟨ht, hk⟩ := h.edges d e he
      refine ⟨ht, ?_⟩
      rcases hk with ⟨x, hx, hxs, hle⟩ | hr
      · by_cases hxc : x = c
        · subst hxc
          exact .inr (hxs ▸ hretc hx)
        · refine .inl ⟨x, ?_⟩
          rw [hother x hxc]
          exact ⟨hx, hxs, hle⟩
      · exact .inr (hret _ hr)
    · by_cases hdc : d = c
      · subst hdc
        rw [hself] at hb
        cases hb
      · exact hprop root (h.follows d root (hother d hdc ▸ hb))
    · by_cases hdc : d = c
      · subst hdc
        rw [hself] at hp
        cases hp
      · exact hprop p (h.partners d p (hother d hdc ▸ hp))
    · by_cases hdc : d = c
      · subst hdc
        rw [hself]
      · rw [hother d hdc] at ht ⊢
        exact h.trackers d ht
    · exact hprop x (h.seen f (by simpa using hf) x hx)
    · by_cases hdc : d = c
      · subst hdc
        rw [hself] at hdd
        cases hdd
      · rw [hother d hdc] at hk hcl hdd ⊢
        exact h.slotted d hk hcl hdd

theorem Sane.add {s : Store K} (h : Sane s) {cell : Cell K} (hb : cell.Blank) :
    Sane (s.add cell).2 := by
  have hcell := s.cell_add cell
  -- what a new cell shares with the cells that do not exist
  obtain ⟨hslot, hself, hedges, hdrop, hstate, hpart, hfollow, htrack, hclean⟩ :
      cell.hasSlot = false ∧ cell.self = ⟨0, 0⟩ ∧ cell.dependents = [] ∧ cell.dropped = false ∧
      cell.state ≠ .evaluating ∧ cell.partner = none ∧
      (∀ root, cell.binding ≠ some (.follow root)) ∧ (cell.tracker = true → cell.binding = none) ∧
        (cell.Computed → cell.state ≠ .clean) := by
    cases hb <;> simp [Cell.Computed]
  have hold := cell_of_size_le (Nat.le_refl s.cells.size)
  have hsize : (s.add cell).2.cells.size = s.cells.size + 1 := by simp [Store.add]
  have hlt : ∀ d, d < s.cells.size → (s.add cell).2.cell d = s.cell d := fun d hd => by
    rw [hcell, if_neg hd.ne]
  have hprop : ∀ x, s.IsProperty x → (s.add cell).2.IsProperty x := fun x hx =>
    ⟨by rw [hsize]; exact Nat.lt_succ_of_lt hx.1, by rw [hlt x hx.1]; exact hx.2⟩
  refine ⟨h.arena.transfer rfl rfl fun d => ?_, h.nodup, h.active, fun d hd => ?_, fun d hd => ?_,
    fun d hd => ?_, fun d e he => ?_, fun d root hr => ?_, fun d p hp => ?_, fun d ht => ?_,
    fun f hf x hx => hprop x (h.seen f hf x hx), fun d hk hcl hdd => ?_⟩
  · rw [hcell]
    split
    · rename_i hd
      rw [hd, hold]
      exact ⟨hslot, hself⟩
    · exact ⟨rfl, rfl⟩
  · obtain ⟨hd', hcase⟩ := h.consumer d hd
    rw [hlt d hd', hsize]
    exact ⟨Nat.lt_succ_of_lt hd', hcase.imp id fun hr => ⟨hr.1, hr.2.transfer rfl⟩⟩
  · rw [hcell] at hd
    split at hd
    · exact absurd hd hstate
    · exact h.evaluating d hd
  · rw [hcell] at hd ⊢
    split at hd
    · simp [hdrop] at hd
    · rename_i hne
      rw [if_neg hne]
      exact h.dropped d hd
  · rw [hcell] at he
    split at he
    · simp [hedges] at he
    · rename_i hd
      obtain ⟨ht, hk⟩ := h.edges d e he
      refine ⟨by rwa [hcell, if_neg hd], ?_⟩
      rcases hk with ⟨x, hx, hxs, hle⟩ | hr
      · exact .inl ⟨x, by rw [hlt x (Arena.lt_size hx)]; exact ⟨hx, hxs, hle⟩⟩
      · exact .inr (hr.transfer rfl)
  · rw [hcell] at hr
    split at hr
    · exact absurd hr (hfollow root)
    · exact hprop root (h.follows d root hr)
  · rw [hcell] at hp
    split at hp
    · simp [hpart] at hp
    · exact hprop p (h.partners d p hp)
  · rw [hcell] at ht ⊢
    split at ht
    · rename_i hd
      rw [if_pos hd]
      exact htrack ht
    · rename_i hd
      rw [if_neg hd]
      exact h.trackers d ht
  · rw [hcell] at hk hcl hdd ⊢
    split at hk
    · rename_i hd
      rw [if_pos hd] at hcl
      exact absurd hcl (hclean hk)
    · rename_i hd
      rw [if_neg hd] at hcl hdd ⊢
      exact h.slotted d hk hcl hdd

end Store

/-! ## Every step -/

theorem Store.Sane.written (h : s.Sane) {root : CellId} (hc : s.IsProperty root)
    (v : Value) : (s.written root v).Sane := by
  obtain ⟨hr, hb, hp, -⟩ := ripple_written h.arena hc.1 v
  refine h.ripple hr (fun r heq => ?_) (fun p heq => ?_) (fun _ => hb) (.inr ⟨hb, hc.2⟩)
  · rw [hb] at heq
    cases heq
  · rcases hp with hp | hp
    · rw [hp] at heq
      cases heq
    · exact h.partners root p (hp ▸ heq)

/-- A change that leaves the state of a cell alone, together with marking. -/
theorem Store.Sane.upset (h : s.Sane) (hc : c < s.cells.size)
    {g : Cell K → Cell K} (hal : (s.cell c).Alike (g (s.cell c)))
    (hst : (s.cell c).Steady (g (s.cell c)))
    (hfollows : ∀ root, (g (s.cell c)).binding = some (.follow root) → s.IsProperty root)
    (hpartners : ∀ p, (g (s.cell c)).partner = some p → s.IsProperty p)
    (htracker : (s.cell c).tracker = true → (g (s.cell c)).binding = none) :
    ((s.modify c g).upset c).Sane := by
  obtain ⟨hr, hf, hcell⟩ := ripple_upset h.arena hc hal hst
  have hsame : (((s.modify c g).upset c).cell c).binding = (g (s.cell c)).binding ∧
      (((s.modify c g).upset c).cell c).partner = (g (s.cell c)).partner := by
    rcases hcell with hcell | hcell <;> rw [hcell] <;> simp [Cell.clear]
  refine h.ripple hr ?_ ?_ ?_ (.inl hf)
  · rwa [hsame.1]
  · rwa [hsame.2]
  · rwa [hsame.1]

theorem Store.Sane.rebind {s : Store K} (h : s.Sane) {c : CellId} (hc : s.IsProperty c)
    {b : Binding K} (hb : ∀ root, b = .follow root → s.IsProperty root) :
    ((s.rebind c b).upset c).Sane :=
  h.upset hc.1 ⟨rfl, rfl, rfl, rfl, Nat.le_succ _, .rfl⟩ ⟨rfl, rfl, rfl, rfl, id⟩
    (fun root heq => hb root (Option.some.inj heq)) nofun fun ht => by simp [hc.2] at ht

open Store in
theorem Step.sane {k k' : Stage K} (h : Step k k') (hs : k.store.Sane) : k'.store.Sane := by
  cases h with
  | control | wrote | readDropped | refuseWork | fail | resume => exact hs
  | record e => exact hs.minor ⟨rfl, rfl, rfl, rfl, rfl, rfl⟩ fun _ => .refl _
  | observe c code => exact hs.minor (sameAround_observe ..) (minor_observe _ c code)
  | unobserve o => exact hs.minor (sameAround_unobserve ..) (minor_unobserve _ o)
  | add h => exact hs.add h
  | shelter =>
    refine hs.reframe rfl ⟨rfl, rfl, rfl, rfl, rfl⟩ fun f hf x hx => ?_
    rcases List.mem_cons.mp hf with rfl | hf
    · cases hx
    · exact hs.seen f hf x hx
  | @unshelter s _ _ seen rest hf =>
    have hcons : s.popFrame.consumers = s.consumers := by
      simp [Store.consumers, Store.stack, Store.popFrame, hf]
    refine hs.reframe rfl ⟨rfl, rfl, rfl, rfl, hcons⟩ fun f hf x hx => ?_
    exact hs.seen f (List.mem_of_mem_tail hf) x hx
  | readClean hc hd => exact hs.track hc hd
  | @readUnbound s t _ c hc hd hst hb ht =>
    obtain ⟨edges, room, hcell, -⟩ := s.cell_track hc.1
    exact ht ▸ (hs.track hc hd).settle ⟨by simpa using hc.1, by rw [hcell]; exact hc.2⟩
      (by rw [hcell]; exact hst) (by rw [hcell]; exact hb)
  | @beginRead s _ c hc hd hst =>
    obtain ⟨edges, room, hcell, -⟩ := s.cell_track hc.1
    exact (hs.track hc hd).enter (by simpa using hc.1) (by rw [hcell]; exact hd)
      (by rw [hcell]; simp [hst])
  | beginWork hc hd hst => exact hs.enter hc.1 hd hst
  | refuseRead hc hd => exact hs.track hc hd
  | finishRead bindings v hr ht h =>
    exact h ▸ (hs.minor (.modify ..) (minor_keep _ _ bindings v)).leave hr true
  | finishWork hr => exact hs.leave hr true
  | abort hr => exact hs.leave hr false
  | caught hr => exact hs.leave hr false
  | write v hc hd => exact hs.written (hs.isProperty_linkRoot hc) v
  | rebind hc _ hb => exact hs.rebind hc hb
  | pair hr => exact hs.pair hr _
  | drop hc => exact hs.drop hc
  | forget ht hd =>
    exact hs.upset ht.1 ⟨rfl, rfl, rfl, rfl, Nat.le_succ _, .rfl⟩ ⟨rfl, rfl, rfl, rfl, id⟩
      (hs.follows _) (hs.partners _) (hs.trackers _)

theorem Path.sane {k k' : Stage K} (h : Path k k') (hs : k.store.Sane) : k'.store.Sane := by
  induction h with
  | refl => exact hs
  | tail _ step ih => exact step.sane ih

end ReactiveTree
