import Mathlib.Data.List.Chain
import ReactiveTree.Proofs.Cell.Fate

/-!
# What a cycle error reports

Evaluations ask for one another: the consumers on the evaluation stack form a chain, in which
each one was asked for by the evaluation of the next (`Stage.Asked`). When a cell is asked for
that stands in the chain already, the part of the chain down to it is a ring, and this ring is
what the error reports (`Stage.Blamed`).
-/

namespace ReactiveTree

variable {K : Type → Type}

open Store

variable {c : CellId} {past : Chronicle K} {e : CycleError} {k k' : Stage K} {s : Store K}

/-- The cell whose evaluation asked for the latest evaluation of `c`. -/
def Chronicle.caller (c : CellId) : Chronicle K → Option CellId
  | [] => none
  | m :: past =>
    match m.event with
    | .began d => if d = c then m.store.consumers.head? else Chronicle.caller c past
    | _ => Chronicle.caller c past

theorem Chronicle.caller_began (c d : CellId) (s : Store K) (past : Chronicle K) :
    Chronicle.caller c (⟨.began d, s⟩ :: past) =
      if d = c then s.consumers.head? else past.caller c := rfl

namespace CycleError

/-- The error tells of the cells of `ring`, of which `c` is the first. In the store `s` they are
being evaluated, and after `past` each of them has asked for the next one, the last one for `c`
again. -/
structure Ring (e : CycleError) (s : Store K) (past : Chronicle K) (c : CellId)
    (ring : List CellId) : Prop where
  property : e.property = s.nameOf c
  path : e.path = (ring ++ [c]).map s.nameOf
  first : ring.head? = some c
  evaluating : ∀ x ∈ ring, x ∈ s.consumers
  asked : ring.IsChain fun x y => past.caller y = some x
  last : ring.getLast? = s.consumers.head?

/-- There was a refused read that the error reports. -/
def Reports (e : CycleError) (past : Chronicle K) : Prop :=
  ∃ c s before ring, ⟨.refused c, s⟩ :: before <:+ past ∧ e.Ring s before c ring

theorem Reports.of_suffix {past' : Chronicle K} (h : e.Reports past)
    (hs : past <:+ past') : e.Reports past' := by
  obtain ⟨c, s, before, ring, hmem, hring⟩ := h
  exact ⟨c, s, before, ring, hmem.trans hs, hring⟩

/-- The path begins and ends with the property that the error names. -/
theorem Ring.ends {ring : List CellId} (h : e.Ring s past c ring) :
    2 ≤ e.path.length ∧ e.path.head? = some e.property ∧ e.path.getLast? = some e.property := by
  obtain ⟨rest, rfl⟩ : ∃ rest, ring = c :: rest := by
    cases hr : ring with
    | nil => simpa [hr] using h.first
    | cons x rest => exact ⟨rest, by simpa [hr] using h.first⟩
  rw [h.path, h.property]
  refine ⟨by simp, by simp, ?_⟩
  rw [List.map_append, List.map_singleton, List.getLast?_concat]

theorem Reports.ends (h : e.Reports past) :
    2 ≤ e.path.length ∧ e.path.head? = some e.property ∧ e.path.getLast? = some e.property := by
  obtain ⟨c, s, before, ring, -, hring⟩ := h
  exact hring.ends

end CycleError

namespace Store

theorem frames_above {frames : List Frame} (h : some c ∈ frames.map Frame.consumer) :
    ∃ f rest, f.consumer = some c ∧
      frames = frames.takeWhile (fun f => f.consumer != some c) ++ f :: rest := by
  induction frames with
  | nil => simp at h
  | cons f frames ih =>
    by_cases hf : f.consumer = some c
    · exact ⟨f, frames, hf, by simp [hf]⟩
    · obtain ⟨g, rest, hg, heq⟩ := ih (by simpa [Ne.symm hf] using h)
      refine ⟨g, rest, hg, ?_⟩
      rw [List.takeWhile_cons_of_pos (by simpa using hf), List.cons_append, ← heq]

theorem consumers_eq (s : Store K) : s.consumers = s.frames.filterMap Frame.consumer := by
  simp [consumers, stack, List.reduceOption, List.filterMap_map]

theorem ring_cycleError (hc : c ∈ s.consumers)
    (hasked : s.consumers.IsChain fun y x => past.caller y = some x) :
    ∃ ring, (s.cycleError c).Ring s past c ring := by
  obtain ⟨f, rest, hf, heq⟩ := frames_above (mem_consumers.mp hc)
  set inner := s.frames.takeWhile fun f => f.consumer != some c with hinner
  have hcons : s.consumers = (inner.filterMap Frame.consumer ++ [c]) ++
      rest.filterMap Frame.consumer := by
    rw [consumers_eq, heq]
    simp [hf]
  have hinvolved : s.frames.take (inner.length + 1) = inner ++ [f] := by
    rw [heq, List.take_append, List.take_of_length_le (by simp)]
    simp
  refine ⟨(inner.filterMap Frame.consumer ++ [c]).reverse, rfl, ?_, by simp, fun x hx => ?_, ?_, ?_⟩
  · show (s.frames.take (inner.length + 1)).reverse.filterMap
      (fun f => f.consumer.map s.nameOf) ++ [s.nameOf c] = _
    rw [hinvolved]
    simp [hf, List.map_filterMap]
  · rw [hcons]
    exact List.mem_append_left _ (List.mem_reverse.mp hx)
  · rw [List.isChain_reverse]
    exact (hcons ▸ hasked).left_of_append
  · rw [List.getLast?_reverse, hcons, List.head?_append]
    cases inner.filterMap Frame.consumer <;> rfl

end Store

/-! ## Every step -/

namespace Stage

/-- Each cell under evaluation was asked for by the evaluation outside it. -/
def Asked (k : Stage K) : Prop := k.store.consumers.IsChain fun y x => k.past.caller y = some x

theorem Asked.same (h : k.Asked) (hcons : k'.store.consumers = k.store.consumers)
    (hcaller : ∀ c, k'.past.caller c = k.past.caller c) : k'.Asked := by
  unfold Asked
  rw [hcons]
  exact h.imp fun y x hyx => (hcaller y).trans hyx

theorem Asked.began (h : k.Asked)
    (hcons : k'.store.consumers = c :: k.store.consumers) (hnot : c ∉ k.store.consumers)
    (hs : s.consumers = k.store.consumers) (hpast : k'.past = ⟨.began c, s⟩ :: k.past) :
    k'.Asked := by
  unfold Asked
  rw [hcons, hpast]
  refine .cons (h.imp_of_mem_imp fun y x hy _ hyx => ?_) fun x hx => ?_
  · have hcy : c ≠ y := fun heq => hnot (heq ▸ hy)
    rw [Chronicle.caller_began, if_neg hcy, hyx]
  · rw [Chronicle.caller_began, if_pos rfl, hs]
    exact hx

theorem Asked.ended (h : k.Asked) (hcons : k.store.consumers = c :: k'.store.consumers)
    (hcaller : ∀ d, k'.past.caller d = k.past.caller d) : k'.Asked := by
  unfold Asked at h
  rw [hcons] at h
  exact h.tail.imp fun y x hyx => (hcaller y).trans hyx

/-- A cycle that the run is unwound for was met on the way. -/
def Blamed (k : Stage K) : Prop := ∀ e, k.stop = some (.cycle e) → e.Reports k.past

end Stage

theorem Step.asked (step : Step k k') (hs : k.store.Sane) (h : k.Asked) : k'.Asked := by
  cases step with
  | control | wrote | record | add | shelter | readDropped | refuseWork | fail | resume =>
    exact h.same rfl fun _ => rfl
  | observe => exact h.same (sameAround_observe ..).base.consumers fun _ => rfl
  | unobserve => exact h.same (sameAround_unobserve ..).base.consumers fun _ => rfl
  | unshelter hf => exact h.same (by simp [consumers, stack, popFrame, hf]) fun _ => rfl
  | readClean | refuseRead => exact h.same (by simp [consumers]) fun _ => rfl
  | readUnbound _ _ _ _ ht =>
    subst ht
    exact h.same ((SameAround.modify ..).base.consumers.trans (by simp [consumers])) fun _ => rfl
  | beginRead hc hd hst =>
    exact h.began (by simp [consumers]) (hs.not_mem_consumers hd (by simp [hst]))
      (by simp [consumers]) rfl
  | beginWork ht hd hst =>
    exact h.began (by simp [consumers]) (hs.not_mem_consumers hd hst) rfl rfl
  | finishRead _ _ hr _ heq =>
    subst heq
    exact h.ended (hs.consumers_leave hr true).1 fun _ => rfl
  | finishWork hr => exact h.ended (hs.consumers_leave hr true).1 fun _ => rfl
  | abort hr | caught hr => exact h.ended (hs.consumers_leave hr false).1 fun _ => rfl
  | write v hc =>
    have hr := (ripple_written hs.arena (hs.isProperty_linkRoot hc).1 v).1
    exact h.same hr.around.base.consumers fun _ => rfl
  | rebind hc => exact h.same (ripple_rebind hs.arena hc.1 _).1.around.base.consumers fun _ => rfl
  | pair => exact h.same (SameAround.modify ..).base.consumers fun _ => rfl
  | drop => exact h.same (by simp [consumers]) fun _ => rfl
  | forget ht => exact h.same (ripple_forget hs.arena ht.1).1.around.base.consumers fun _ => rfl

theorem Step.blamed (step : Step k k') (hs : k.store.Sane) (hasked : k.Asked)
    (h : k.Blamed) : k'.Blamed := by
  have hpast := step.past_suffix
  cases step with
  | @refuseRead s past c hc hd hst =>
    rintro _ ⟨⟩
    have hcons : (s.track c).consumers = s.consumers := by simp [consumers]
    have hasked' : (s.track c).consumers.IsChain fun y x => past.caller y = some x := by
      rw [hcons]
      exact hasked
    obtain ⟨ring, hring⟩ := ring_cycleError (hcons ▸ hs.evaluating c hst) hasked'
    exact ⟨c, _, past, ring, List.suffix_rfl, hring⟩
  | @refuseWork s past t ht hd hst =>
    rintro _ ⟨⟩
    obtain ⟨ring, hring⟩ := ring_cycleError (hs.evaluating t hst) hasked
    exact ⟨t, s, past, ring, List.suffix_rfl, hring⟩
  | fail hne => exact fun e he => absurd (Option.some.inj he) (hne e)
  | abort | unshelter => exact fun e he => (h e he).of_suffix hpast
  | _ => rintro _ ⟨⟩

theorem Path.blamed (path : Path k k') (hs : k.store.Sane) (hasked : k.Asked)
    (h : k.Blamed) : k'.Asked ∧ k'.Blamed := by
  induction path with
  | refl => exact ⟨hasked, h⟩
  | tail path step ih =>
    have hs' := Path.sane path hs
    exact ⟨step.asked hs' ih.1, step.blamed hs' ih.1 ih.2⟩

end ReactiveTree
