import ReactiveTree.Proofs.Cell.Flow

/-!
# What becomes of evaluations

A call that writes nothing changes cells only by evaluating them. `Account` says what is to be
found in a cell from the fate of its evaluation in the chronicle of the call: a cell whose
evaluation completed is clean and has its new value, one that was cut short is dirty and has
the value it had before. It holds after every step inside the outermost evaluation, in which
nothing catches a stop.
-/

namespace ReactiveTree

variable {K : Type → Type}

open Store

variable {c : CellId} {past : Chronicle K} {k k' : Stage K} {s t : Store K}

/-- What has become of the latest evaluation of a cell. -/
inductive Fate where
  /-- There was none. -/
  | idle
  | ongoing
  /-- It completed and left the value `v`. -/
  | completed (v : Value)
  | cut

namespace Chronicle

def fate (c : CellId) : Chronicle K → Fate
  | [] => .idle
  | m :: past =>
    match m.event with
    | .began d => if d = c then .ongoing else fate c past
    | .ended d completed =>
      if d = c then if completed then .completed (m.store.cell c).value else .cut else fate c past
    | _ => fate c past

theorem fate_began (c d : CellId) (s : Store K) (past : Chronicle K) :
    fate c (⟨.began d, s⟩ :: past) = if d = c then .ongoing else fate c past := rfl

theorem fate_ended (c d : CellId) (completed : Bool) (s : Store K) (past : Chronicle K) :
    fate c (⟨.ended d completed, s⟩ :: past) =
      if d = c then if completed then .completed (s.cell c).value else .cut else fate c past := rfl

/-- No cell was written, bound, linked or invalidated. -/
def Writeless (past : Chronicle K) : Prop := ∀ m ∈ past, ∀ c, m.event ≠ .wrote c

end Chronicle

/-- A change of a cell that is neither an evaluation nor a write. -/
structure Cell.Lull (stop : Option Stop) (a b : Cell K) : Prop where
  value : b.value = a.value
  tracker : b.tracker = a.tracker
  disturbed : b.disturbed = a.disturbed
  computed : b.Computed → a.Computed
  state : b.state = a.state ∨ stop = none ∧ b.state = .clean

theorem Cell.Lull.refl (stop : Option Stop) (a : Cell K) : Lull stop a a :=
  ⟨rfl, rfl, rfl, id, .inl rfl⟩

theorem Cell.Minor.lull {a b : Cell K} (h : Minor a b) (hv : b.value = a.value)
    (stop : Option Stop) : Lull stop a b :=
  ⟨hv, h.tracker, h.disturbed, by simp only [Computed, h.binding, h.tracker, imp_self],
    .inl h.state⟩

theorem lull_track (s : Store K) (hc : c < s.cells.size) (stop : Option Stop)
    (d : CellId) : (s.cell d).Lull stop ((s.track c).cell d) := by
  by_cases hdc : d = c
  · subst hdc
    obtain ⟨edges, room, hcell, -⟩ := s.cell_track hc
    rw [hcell]
    exact ⟨rfl, rfl, rfl, id, .inl rfl⟩
  · rw [cell_track_ne hdc]
    exact .refl ..

theorem lull_modify (s : Store K) (c : CellId) {g : Cell K → Cell K} {stop : Option Stop}
    (hg : ∀ cell, Cell.Lull stop cell (g cell)) (d : CellId) :
    (s.cell d).Lull stop ((s.modify c g).cell d) := by
  rw [cell_modify]
  split
  · exact hg _
  · exact .refl ..

theorem lull_drop (hc : c < s.cells.size) (d : CellId) :
    (s.cell d).Lull none ((s.drop c).cell d) := by
  rw [cell_drop hc]
  split
  · rename_i hdc
    subst hdc
    split
    · exact ⟨rfl, rfl, rfl, fun h => .inr (by simpa [Cell.Computed] using h), .inl rfl⟩
    · exact ⟨rfl, rfl, rfl, fun h => .inr (by simpa [Cell.Computed] using h), .inr ⟨rfl, rfl⟩⟩
  · exact .refl ..

/-- The cells of `k`, by the fates of their evaluations since the store was `s`. -/
structure Account (s : Store K) (k : Stage K) : Prop where
  size : s.cells.size ≤ k.store.cells.size
  known : ∀ c, k.past.fate c ≠ .idle → c < k.store.cells.size
  ongoing : ∀ c, k.past.fate c = .ongoing ↔ c ∈ k.store.consumers
  undisturbed : ∀ c ∈ k.store.consumers, (k.store.cell c).disturbed = false
  completed : ∀ c v, k.past.fate c = .completed v →
    (k.store.cell c).state = .clean ∧ (k.store.cell c).value = v
  cut : ∀ c, k.past.fate c = .cut → (k.store.cell c).state = .dirty ∧ k.stop ≠ none
  /-- Where nothing has completed, the value is the one of `s`, or that of a new cell. -/
  held : ∀ c, k.past.fate c = .ongoing ∨ k.past.fate c = .cut ∨ (k.store.cell c).tracker = true →
    (k.store.cell c).value = (s.cell c).value
  idle : ∀ c, k.past.fate c = .idle → c < s.cells.size ∨ (k.store.cell c).Computed →
    (k.store.cell c).value = (s.cell c).value
  /-- A clean property is not evaluated. -/
  spared : ∀ c < s.cells.size, (s.cell c).state = .clean → (k.store.cell c).tracker = false →
    k.past.fate c = .idle ∧ (k.store.cell c).state = .clean

namespace Account

variable {s t t' : Store K} {past past' : Chronicle K} {stop stop' : Option Stop}

theorem start (h : s.consumers = []) : Account s ⟨s, [], none⟩ :=
  ⟨Nat.le_refl _, fun _ h => absurd rfl h, fun c => ⟨nofun, fun hc => by simp [h] at hc⟩,
    fun c hc => by simp [h] at hc, nofun, nofun, fun _ _ => rfl, fun _ _ _ => rfl,
    fun _ _ hst _ => ⟨rfl, hst⟩⟩

theorem quiet (h : Account s ⟨t, past, stop⟩) (hfate : ∀ c, past'.fate c = past.fate c)
    (hsize : t'.cells.size = t.cells.size) (hcons : t'.consumers = t.consumers)
    (hstop : stop' = none → stop = none) (hcell : ∀ c, (t.cell c).Lull stop (t'.cell c)) :
    Account s ⟨t', past', stop'⟩ := by
  refine ⟨hsize ▸ h.size, fun c hc => ?_, fun c => ?_, fun c hc => ?_, fun c v hc => ?_,
    fun c hc => ?_, fun c hc => ?_, fun c hc hor => ?_, fun c hlt hst htr => ?_⟩
  · rw [hsize]
    exact h.known c (hfate c ▸ hc)
  · rw [hfate, hcons]
    exact h.ongoing c
  · rw [(hcell c).disturbed]
    exact h.undisturbed c (hcons ▸ hc)
  · obtain ⟨hst, hv⟩ := h.completed c v (hfate c ▸ hc)
    exact ⟨(hcell c).state.elim (fun heq => heq.trans hst) And.right, (hcell c).value.trans hv⟩
  · obtain ⟨hst, hne⟩ := h.cut c (hfate c ▸ hc)
    refine ⟨(hcell c).state.elim (fun heq => heq.trans hst) fun hn => absurd hn.1 hne, ?_⟩
    exact fun hn => hne (hstop hn)
  · rw [(hcell c).value]
    rw [hfate, (hcell c).tracker] at hc
    exact h.held c hc
  · rw [(hcell c).value]
    exact h.idle c (hfate c ▸ hc) (hor.imp_right (hcell c).computed)
  · obtain ⟨hf, hst'⟩ := h.spared c hlt hst ((hcell c).tracker ▸ htr)
    exact ⟨(hfate c).trans hf, (hcell c).state.elim (fun heq => heq.trans hst') And.right⟩

theorem add (h : Account s ⟨t, past, none⟩) {cell : Cell K} (hb : cell.Blank) :
    Account s ⟨(t.add cell).2, past, none⟩ := by
  have hsize : s.cells.size ≤ t.cells.size := h.size
  have hsize' : (t.add cell).2.cells.size = t.cells.size + 1 := by simp [Store.add]
  have hold : ∀ c, c ≠ t.cells.size → (t.add cell).2.cell c = t.cell c := fun c hc => by
    rw [cell_add, if_neg hc]
  have hne : ∀ c, past.fate c ≠ .idle → c ≠ t.cells.size := fun c hc =>
    (h.known c hc).ne
  -- a new cell that is computed has no value of its own yet
  have hnew : ((t.add cell).2.cell t.cells.size).Computed →
      ((t.add cell).2.cell t.cells.size).value = (s.cell t.cells.size).value := by
    rw [cell_add, if_pos rfl, cell_of_size_le hsize]
    cases hb with
    | value name v => exact fun hk => by simp [Cell.Computed] at hk
    | bound | tracker => exact fun _ => rfl
  refine ⟨?_, fun c hc => ?_, h.ongoing, fun c hc => ?_, fun c v hc => ?_, fun c hc => ?_,
    fun c hc => ?_, fun c hc hor => ?_, fun c hlt hst htr => ?_⟩
  · rw [hsize']
    exact Nat.le_succ_of_le hsize
  · rw [hsize']
    exact Nat.lt_succ_of_lt (h.known c hc)
  · rw [hold c (hne c (by rw [(h.ongoing c).mpr hc]; simp))]
    exact h.undisturbed c hc
  · rw [hold c (hne c (by rw [hc]; simp))]
    exact h.completed c v hc
  · rw [hold c (hne c (by rw [hc]; simp))]
    exact h.cut c hc
  · by_cases hcs : c = t.cells.size
    · subst hcs
      rcases hc with hc | hc | hc
      · exact absurd rfl (hne _ (by rw [hc]; simp))
      · exact absurd rfl (hne _ (by rw [hc]; simp))
      · exact hnew (.inr hc)
    · rw [hold c hcs] at hc ⊢
      exact h.held c hc
  · by_cases hcs : c = t.cells.size
    · subst hcs
      exact hnew (hor.resolve_left (Nat.not_lt.mpr hsize))
    · rw [hold c hcs] at hor ⊢
      exact h.idle c hc hor
  · rw [hold c ((Nat.lt_of_lt_of_le hlt hsize).ne)] at htr ⊢
    exact h.spared c hlt hst htr

theorem fate_of_dirty (h : Account s ⟨t, past, none⟩) (hnot : c ∉ t.consumers)
    (hst : (t.cell c).state = .dirty) : past.fate c = .idle := by
  cases hf : past.fate c with
  | idle => rfl
  | ongoing => exact absurd ((h.ongoing c).mp hf) hnot
  | completed v => exact absurd (hst.symm.trans (h.completed c v hf).1) nofun
  | cut => exact absurd rfl (h.cut c hf).2

/-- An evaluation of `c` begins. A property is evaluated once at most. -/
theorem enter (h : Account s ⟨t, past, none⟩) (hc : c < t.cells.size)
    (hnot : c ∉ t.consumers) (hk : (t.cell c).Computed)
    (hst : (t.cell c).tracker = true ∨ (t.cell c).state = .dirty) (u : Store K) :
    Account s ⟨t.enter c, ⟨.began c, u⟩ :: past, none⟩ := by
  have hcons : (t.enter c).consumers = c :: t.consumers := by simp [consumers]
  have hself := t.cell_enter hc c
  rw [if_pos rfl] at hself
  have hother : ∀ d, d ≠ c → (t.enter c).cell d = t.cell d := fun d hd => by
    rw [t.cell_enter hc, if_neg hd]
  have hfate : ∀ d, d ≠ c → Chronicle.fate d (⟨.began c, u⟩ :: past) = past.fate d := fun d hd => by
    rw [Chronicle.fate_began, if_neg (Ne.symm hd)]
  have hfate' : Chronicle.fate c (⟨.began c, u⟩ :: past) = .ongoing := by
    rw [Chronicle.fate_began, if_pos rfl]
  have hvalue : (t.cell c).value = (s.cell c).value := by
    rcases hst with htr | hst
    · exact h.held c (.inr (.inr htr))
    · exact h.idle c (h.fate_of_dirty hnot hst) (.inr hk)
  refine ⟨by simpa using h.size, fun d hd => ?_, fun d => ?_, fun d hd => ?_, fun d v hd => ?_,
    fun d hd => ?_, fun d hd => ?_, fun d hd hor => ?_, fun d hlt hsd htr => ?_⟩
  all_goals by_cases hdc : d = c
  · simpa [hdc] using hc
  · simpa using h.known d (hfate d hdc ▸ hd)
  · subst hdc
    simp [hfate', hcons]
  · rw [hcons, List.mem_cons, or_iff_right hdc, hfate d hdc]
    exact h.ongoing d
  · rw [hdc, hself]
  · rw [hother d hdc]
    exact h.undisturbed d ((List.mem_cons.mp (hcons ▸ hd)).resolve_left hdc)
  · rw [hdc, hfate'] at hd
    cases hd
  · rw [hother d hdc]
    exact h.completed d v (hfate d hdc ▸ hd)
  · rw [hdc, hfate'] at hd
    cases hd
  · rw [hother d hdc]
    exact h.cut d (hfate d hdc ▸ hd)
  · rw [hdc, hself]
    exact hvalue
  · rw [hother d hdc] at hd ⊢
    exact h.held d (hfate d hdc ▸ hd)
  · rw [hdc, hfate'] at hd
    cases hd
  · rw [hother d hdc] at hor ⊢
    exact h.idle d (hfate d hdc ▸ hd) hor
  · subst hdc
    rw [hself] at htr
    rcases hst with htr' | hst
    · exact absurd (htr'.symm.trans htr) (by simp)
    · exact absurd (hst.symm.trans (h.spared d hlt hsd htr).2) (by simp)
  · rw [hother d hdc] at htr ⊢
    rw [hfate d hdc]
    exact h.spared d hlt hsd htr

/-- The innermost evaluation ends. If it completed, it may have stored a value. -/
theorem ended (h : Account s ⟨t, past, stop⟩) {completed : Bool}
    (hcons : t.consumers = c :: t'.consumers) (hnot : c ∉ t'.consumers)
    (hsize : t'.cells.size = t.cells.size) (hother : ∀ d, d ≠ c → t'.cell d = t.cell d)
    (htracker : (t'.cell c).tracker = (t.cell c).tracker)
    (hstate : (t'.cell c).state = if completed then .clean else .dirty)
    (hvalue : completed = false ∨ (t.cell c).tracker = true → (t'.cell c).value = (t.cell c).value)
    (hstop : completed = false → stop ≠ none) :
    Account s ⟨t', ⟨.ended c completed, t'⟩ :: past, stop⟩ := by
  have hongoing : past.fate c = .ongoing := (h.ongoing c).mpr (by simp [hcons])
  have hfate : ∀ d, d ≠ c → Chronicle.fate d (⟨.ended c completed, t'⟩ :: past) = past.fate d :=
    fun d hd => by rw [Chronicle.fate_ended, if_neg (Ne.symm hd)]
  have hfate' : Chronicle.fate c (⟨.ended c completed, t'⟩ :: past) =
      if completed then .completed (t'.cell c).value else .cut := by
    rw [Chronicle.fate_ended, if_pos rfl]
  refine ⟨hsize ▸ h.size, fun d hd => ?_, fun d => ?_, fun d hd => ?_, fun d v hd => ?_,
    fun d hd => ?_, fun d hd => ?_, fun d hd hor => ?_, fun d hlt hsd htr => ?_⟩
  all_goals by_cases hdc : d = c
  · rw [hsize, hdc]
    exact h.known c (by rw [hongoing]; nofun)
  · rw [hsize]
    exact h.known d (hfate d hdc ▸ hd)
  · rw [hdc, hfate']
    refine ⟨fun hf => ?_, fun hmem => absurd hmem hnot⟩
    split at hf <;> cases hf
  · rw [hfate d hdc, h.ongoing d, hcons, List.mem_cons, or_iff_right hdc]
  · exact absurd (hdc ▸ hd) hnot
  · rw [hother d hdc]
    exact h.undisturbed d (by rw [hcons]; exact .tail _ hd)
  · subst hdc
    rw [hfate'] at hd
    cases completed with
    | true => exact ⟨hstate, Fate.completed.inj hd⟩
    | false => cases hd
  · rw [hother d hdc]
    exact h.completed d v (hfate d hdc ▸ hd)
  · subst hdc
    rw [hfate'] at hd
    cases completed with
    | true => cases hd
    | false => exact ⟨hstate, hstop rfl⟩
  · rw [hother d hdc]
    exact h.cut d (hfate d hdc ▸ hd)
  · subst hdc
    refine (hvalue ?_).trans (h.held d (.inl hongoing))
    cases completed with
    | true =>
      rw [hfate', htracker] at hd
      exact .inr ((hd.resolve_left nofun).resolve_left nofun)
    | false => exact .inl rfl
  · rw [hother d hdc] at hd ⊢
    exact h.held d (hfate d hdc ▸ hd)
  · rw [hdc, hfate'] at hd
    split at hd <;> cases hd
  · rw [hother d hdc] at hor ⊢
    exact h.idle d (hfate d hdc ▸ hd) hor
  · subst hdc
    exact absurd (hongoing.symm.trans (h.spared d hlt hsd (htracker ▸ htr)).1) nofun
  · rw [hother d hdc] at htr ⊢
    rw [hfate d hdc]
    exact h.spared d hlt hsd htr

theorem leave (h : Account s ⟨t, past, stop⟩) (hs : t.Sane) (hr : t.reader = some c)
    (completed : Bool) (hstop : completed = false → stop ≠ none) :
    Account s ⟨t.leave c completed, ⟨.ended c completed, t.leave c completed⟩ :: past, stop⟩ := by
  obtain ⟨hcons, hnot⟩ := hs.consumers_leave hr completed
  have hmem := mem_consumers_of_reader hr
  have hc := (hs.consumer c hmem).1
  have hcell := cell_leave hc completed c
  rw [if_pos rfl, h.undisturbed c hmem] at hcell
  refine h.ended hcons hnot (by simp) (fun d hd => ?_) ?_ ?_ ?_ hstop
  · rw [cell_leave hc, if_neg hd]
  · rw [hcell]
  · rw [hcell]
    cases completed <;> rfl
  · rw [hcell]
    exact fun _ => rfl

/-- The binding of a property completes, and what it returned is stored. -/
theorem leave_keep (h : Account s ⟨t, past, none⟩) (hs : t.Sane)
    (hr : t.reader = some c) (htr : (t.cell c).tracker = false) (bindings : Nat) (v : Value)
    (ht' : t' = (t.keep c bindings v).leave c true) :
    Account s ⟨t', ⟨.ended c true, t'⟩ :: past, none⟩ := by
  subst ht'
  have hminor := minor_keep t c bindings v
  obtain ⟨hcons, hnot⟩ := hs.consumers_leave hr true
  have hmem := mem_consumers_of_reader hr
  have hc := (hs.consumer c hmem).1
  have hc' : c < (t.keep c bindings v).cells.size := by simpa [Store.keep] using hc
  have hcell := cell_leave hc' true c
  rw [if_pos rfl, (hminor c).disturbed, h.undisturbed c hmem] at hcell
  refine h.ended hcons hnot (by simp [Store.keep]) (fun d hd => ?_) ?_ ?_ ?_ (by simp)
  · rw [cell_leave hc', if_neg hd, Store.keep, cell_modify_ne hd]
  · rw [hcell, ← (hminor c).tracker]
  · rw [hcell]
    rfl
  · rintro (hn | hn)
    · cases hn
    · rw [htr] at hn
      cases hn

end Account

/-! ## Every step -/

theorem Step.past_suffix (step : Step k k') : k.past <:+ k'.past := by
  cases step with
  | control | wrote | readDropped | readClean | readUnbound | beginRead | beginWork | refuseRead
  | refuseWork | finishWork | abort | caught | shelter | unshelter => exact List.suffix_cons ..
  | finishRead => exact (List.suffix_cons ..).trans (List.suffix_cons ..)
  | record | observe | unobserve | add | fail | resume | write | rebind | pair | drop | forget =>
    exact List.suffix_rfl

theorem Path.past_suffix (path : Path k k') : k.past <:+ k'.past := by
  induction path with
  | refl => exact List.suffix_rfl
  | tail _ step ih => exact ih.trans step.past_suffix

theorem Chronicle.Writeless.of_suffix {past' : Chronicle K} (h : past'.Writeless)
    (hs : past <:+ past') : past.Writeless := fun m hm => h m (hs.subset hm)

/-- A change of the store that is neither an evaluation nor a write. -/
theorem Account.around {t' : Store K} (h : Account s ⟨t, past, none⟩)
    (hr : SameAround t t') (hcell : ∀ c, (t.cell c).Lull none (t'.cell c)) :
    Account s ⟨t', past, none⟩ :=
  h.quiet (fun _ => rfl) hr.size hr.base.consumers id hcell

theorem Account.track (h : Account s ⟨t, past, none⟩)
    (hc : c < t.cells.size) : Account s ⟨t.track c, past, none⟩ :=
  h.quiet (fun _ => rfl) (by simp) (by simp [consumers]) id (lull_track t hc none)

theorem Account.note {past' : Chronicle K} {stop : Option Stop}
    (h : Account s ⟨t, past, none⟩) (hfate : ∀ c, past'.fate c = past.fate c) :
    Account s ⟨t, past', stop⟩ :=
  h.quiet hfate rfl rfl (fun _ => rfl) fun _ => .refl ..

/-- A stop that is caught ends the call: the outermost evaluation is over. -/
theorem Step.account (step : Step k k') (hs : k.store.Sane)
    (h : Account s k) (hquiet : k'.past.Writeless)
    (hin : k.stop = none ∨ k'.store.consumers ≠ []) : Account s k' := by
  cases step with
  | control => exact h.note fun _ => rfl
  | wrote c => exact absurd rfl (hquiet _ (.head _) c)
  | record e => exact h.around ⟨rfl, rfl, rfl, rfl, rfl, rfl⟩ fun _ => .refl ..
  | @observe t _ c code =>
    exact h.around (sameAround_observe ..) fun d => (minor_observe t c code d).lull
      (proj_modify Cell.value
        (f := fun cell => { cell with observers := cell.observers ++ [t.observers.size] })
        (fun _ => rfl) t c d) none
  | @unobserve t _ o =>
    refine h.around (sameAround_unobserve ..) fun d => (minor_unobserve t o d).lull ?_ none
    unfold Store.unobserve
    split
    · rfl
    · rename_i observer _
      exact proj_modify Cell.value
        (f := fun cell => { cell with observers := cell.observers.filter (· != o) })
        (fun _ => rfl) t observer.cell d
  | add hb => exact h.add hb
  | shelter => exact h.quiet (fun _ => rfl) rfl rfl id fun _ => .refl ..
  | @unshelter t _ _ seen rest hf =>
    have hcons : t.popFrame.consumers = t.consumers := by simp [consumers, stack, popFrame, hf]
    exact h.quiet (fun _ => rfl) rfl hcons id fun _ => .refl ..
  | readDropped => exact h.note fun _ => rfl
  | readClean hc => exact (h.track hc.1).note fun _ => rfl
  | readUnbound hc hd hst hb ht =>
    subst ht
    refine Account.note (.around (h.track hc.1) (.modify ..) ?_) fun _ => rfl
    exact lull_modify _ _ fun _ => ⟨rfl, rfl, rfl, id, .inr ⟨rfl, rfl⟩⟩
  | @beginRead t _ c hc hd hst hb =>
    refine (h.track hc.1).enter (by simpa using hc.1) ?_ (.inl ?_) (.inr ?_) _
    · simpa [consumers] using hs.not_mem_consumers hd (by simp [hst])
    · obtain ⟨edges, room, hcell, -⟩ := t.cell_track hc.1
      rwa [hcell]
    · obtain ⟨edges, room, hcell, -⟩ := t.cell_track hc.1
      rwa [hcell]
  | beginWork ht hd hst =>
    exact h.enter ht.1 (hs.not_mem_consumers hd hst) (.inr ht.2) (.inl ht.2) _
  | refuseRead hc => exact (h.track hc.1).note fun _ => rfl
  | refuseWork => exact h.note fun _ => rfl
  | fail => exact h.note fun _ => rfl
  | finishRead bindings v hr ht heq => exact (h.leave_keep hs hr ht bindings v heq).note fun _ =>
    rfl
  | finishWork hr => exact h.leave hs hr true (by simp)
  | abort hr => exact h.leave hs hr false (by simp)
  | caught hr ha =>
    -- the outermost evaluation would be over
    have hact := (hs.leave hr false).active
    rw [ha] at hact
    exact absurd (List.length_eq_zero_iff.mp hact.symm) (hin.resolve_left (by simp))
  | resume hf => simp [consumers, stack, hf] at hin
  | write | rebind | forget => exact absurd rfl (hquiet _ (.head _) _)
  | pair => exact h.around (.modify ..) (lull_modify _ _ fun _ => ⟨rfl, rfl, rfl, id, .inl rfl⟩)
  | drop hc => exact h.quiet (fun _ => rfl) (by simp) (by simp [consumers]) id (lull_drop hc)

theorem PathOver.account {base : List (Option CellId)} {p : CellId}
    (path : PathOver base k k') (hbase : some p ∈ base) (hs : k.store.Sane)
    (h : Account s k) (hquiet : k'.past.Writeless) : Account s k' := by
  induction path with
  | refl => exact h
  | tail path step ih =>
    refine step.1.account (Path.sane (PathOver.path path) hs)
      (ih (hquiet.of_suffix step.1.past_suffix)) hquiet (.inr fun hnil => ?_)
    have hmem := mem_consumers.mpr (step.2.subset hbase)
    rw [hnil] at hmem
    cases hmem

end ReactiveTree
