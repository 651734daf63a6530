import ReactiveTree.Proofs.Scene.Kinds

/-!
# Transitions keep kinds

A transition moves its cell between values of the cell's kind: it starts at the current value
of the cell and heads for a value that was converted to the kind, and interpolation stays in
the kind. What its binding computes is converted too, as long as the tracker of the binding
lives. A dropped tracker would make the binding compute nothing, so the invariant says that a
transition holds on to a tracker only while it lives.
-/

namespace ReactiveTree

open Store

variable {U X : Type} {g g' : List Role} {w w' : SceneTale U X}
variable {f : Transition U → Transition U} {a : TransitionId}

def Moves (w : Tale (Scene U X) (Code U)) (a : TransitionId) (c : CellId) : Prop :=
  a < w.host.1.transitions.size ∧ (w.host.1.transition a).cell = c

theorem KindedLater.moves (h : KindedLater g w g' w') {c : CellId}
    (ha : Moves w a c) : Moves w' a c :=
  ⟨ha.1.trans_le h.scene.transitions, (h.scene.cell a ha.1).trans ha.2⟩

/-- How a transition may change, apart from a new binding. -/
structure Transition.Onward (g : List Role) (t t' : Transition U) : Prop where
  cell : t'.cell = t.cell
  interpolate : t'.interpolate = t.interpolate
  target : t'.target = t.target ∨ t'.target.Fits (kindAt g t.cell)
  source : t'.source = t.source ∨ t'.source.Fits (kindAt g t.cell)
  running : t'.running = true → t.running = true ∨ t'.source.Fits (kindAt g t.cell)
  binding : t'.binding = t.binding ∨ t'.binding = none
  tracker : t'.tracker = t.tracker ∨ t'.tracker = none

theorem Transition.Onward.kinded {t t' : Transition U} (h : Onward g t t')
    (ht : t.Kinded g a) : t'.Kinded g a := by
  constructor
  · rw [h.cell]
    exact ht.cell
  · rw [h.interpolate]
    exact ht.interpolate
  · rw [h.cell]
    rcases h.target with heq | hfits
    · rw [heq]
      exact ht.target
    · exact hfits
  · intro hrun
    rw [h.cell]
    rcases h.running hrun with hold | hfits
    · rcases h.source with heq | hfits
      · rw [heq]
        exact ht.source hold
      · exact hfits
    · exact hfits
  · intro code hcode
    rw [h.cell]
    rcases h.binding with heq | hnone
    · exact ht.binding code (heq.symm.trans hcode)
    · rw [hnone] at hcode
      cases hcode
  · intro c hc
    rcases h.tracker with heq | hnone
    · exact ht.tracker c (heq.symm.trans hc)
    · rw [hnone] at hc
      cases hc

theorem KindedTale.modifyTransition (hw : KindedTale g w) (a : TransitionId)
    (hcell : (f (w.host.1.transition a)).cell = (w.host.1.transition a).cell)
    (hf : (f (w.host.1.transition a)).Kinded g a)
    (hsource : (w.host.1.transition a).source.Fits (kindAt g (w.host.1.transition a).cell) →
      (f (w.host.1.transition a)).source.Fits (kindAt g (w.host.1.transition a).cell))
    (halive : ∀ c, (f (w.host.1.transition a)).tracker = some c →
    (w.store.cell c).dropped = false) : KindedTale g (w.withHost (w.host.1.modifyTransition a f)) ∧
      KindedLater g w g (w.withHost (w.host.1.modifyTransition a f)) := by
  have hget := fun b => w.host.1.transition_modify a b f
  have hsize : (w.host.1.modifyTransition a f).transitions.size = w.host.1.transitions.size :=
    Array.size_modify
  have hlater : w.host.1.Later g (w.host.1.modifyTransition a f) := by
    refine ⟨Nat.le_of_eq hsize.symm, fun b _ => ?_, fun b _ _ hb => ?_, Nat.le_refl _,
      fun _ _ _ => rfl, fun _ _ _ => rfl, Nat.le_refl _, fun _ _ => rfl⟩
    · rw [hget]
      split
      · rename_i h
        rw [h.1]
        exact hcell
      · rfl
    · rw [hget]
      split
      · rename_i h
        rw [h.1] at hb ⊢
        exact hsource hb
      · exact hb
  refine hw.withHost (hw.scene.change hlater rfl ?_ (fun _ _ => .inl rfl) (fun _ _ _ h => .inl h)
    (fun b => ?_) fun _ => .inl rfl) hlater fun b c hc => ?_
  · rw [hsize]
    exact hw.scene.running
  · rw [hget]
    split
    · rename_i h
      rw [h.1]
      exact .inr hf
    · exact .inl rfl
  · rw [hget] at hc
    split at hc
    · rename_i h
      rw [h.1] at hc
      exact halive c hc
    · exact hw.alive b c hc

theorem KindedTale.onward (hw : KindedTale g w)
    (h : (w.host.1.transition a).Onward g (f (w.host.1.transition a))) :
    KindedTale g (w.withHost (w.host.1.modifyTransition a f)) ∧
      KindedLater g w g (w.withHost (w.host.1.modifyTransition a f)) := by
  refine hw.modifyTransition a h.cell (h.kinded (hw.scene.transitions a)) (fun hs => ?_)
    fun c hc => ?_
  · rcases h.source with heq | hfits
    · rw [heq]
      exact hs
    · exact hfits
  · rcases h.tracker with heq | hnone
    · exact hw.alive a c (heq.symm.trans hc)
    · rw [hnone] at hc
      cases hc

theorem KindedTale.setRunning (hw : KindedTale g w) {running : List TransitionId}
    (h : ∀ a ∈ running, a < w.host.1.transitions.size) :
    KindedTale g (w.withHost { w.host.1 with clock := { w.host.1.clock with running } }) ∧
      KindedLater g w g
        (w.withHost { w.host.1 with clock := { w.host.1.clock with running } }) := by
  have hlater : w.host.1.Later g { w.host.1 with clock := { w.host.1.clock with running } } :=
    ⟨Nat.le_refl _, fun _ _ => rfl, fun _ _ _ h => h, Nat.le_refl _, fun _ _ _ => rfl,
      fun _ _ _ => rfl, Nat.le_refl _, fun _ _ => rfl⟩
  exact hw.withHost (hw.scene.change hlater rfl h (fun _ _ => .inl rfl) (fun _ _ _ h => .inl h)
    (fun _ => .inl rfl) fun _ => .inl rfl) hlater hw.alive

/-! ## The programs -/

section Programs

variable {α : Type} {nested : SceneNested U X}
  {Q : List Role → SceneTale U X → α → Prop} {a : TransitionId} {c : CellId}

section

variable (hw : KindedTale g w)
include hw

theorem kinding_modify
    (h : (w.host.1.transition a).Onward g (f (w.host.1.transition a))) :
    kinding.Keeps nested g w (Transition.modify a f) :=
  .change hw fun hn => KindedTale.onward hn h

theorem modify_then {k : Unit → SceneM U X α}
    (h : (w.host.1.transition a).Onward g (f (w.host.1.transition a)))
      (hk : ∀ w', KindedTale g w' → KindedLater g w g w' →
        w'.host.1 = w.host.1.modifyTransition a f → kinding.Runs nested g w' (k ()) Q) :
    kinding.Runs nested g w (Transition.modify a f >>= k) Q := by
  obtain ⟨hn, hle⟩ := kinding_ok.note .control trivial hw
  exact .change_then hw (fun hn => KindedTale.onward hn h) fun hs =>
    hk _ hs (kinding_ok.trans hle (KindedTale.onward hn h).2) rfl

theorem kinding_schedule (ha : a < w.host.1.transitions.size) :
    kinding.Keeps nested g w (Transition.schedule a) := by
  refine .change hw fun hn => ?_
  split
  · exact ⟨hn, kinding_ok.refl g _⟩
  · obtain ⟨hs, hle⟩ := KindedTale.onward (f := fun t => { t with queued := true }) hn
      ⟨rfl, rfl, .inl rfl, .inl rfl, .inl, .inl rfl, .inl rfl⟩
    obtain ⟨hr, hle'⟩ := KindedTale.setRunning hs (Scene.running_queue hw.scene.running ha _)
    exact ⟨hr, kinding_ok.trans hle hle'⟩

theorem kinding_retarget (ha : a < w.host.1.transitions.size) :
    kinding.Keeps nested g w (Transition.retarget a) := by
  refine modify_then hw ⟨rfl, rfl, .inl rfl, .inl rfl, .inl, .inl rfl, .inl rfl⟩
    fun w' hw' hle _ => kinding_schedule hw' ?_
  exact ha.trans_le hle.scene.transitions

theorem kinding_clearBinding (a : TransitionId) :
    kinding.Keeps nested g w (Transition.clearBinding a) := by
  set cleared : Transition U → Transition U := fun t =>
    { t with tracker := none, binding := none, bindingChanged := false } with hcleared
  have honward : (w.host.1.transition a).Onward g (cleared (w.host.1.transition a)) :=
    ⟨rfl, rfl, .inl rfl, .inl rfl, .inl, .inr rfl, .inr rfl⟩
  refine .ask hw fun hn => ?_
  dsimp only
  cases htr : (w.host.1.transition a).tracker with
  | none => exact kinding_modify hn honward
  | some tracker =>
    refine .drop_then hn (fun _ => trivial)
      (fun hlt => ⟨List.prefix_refl g, kept_drop hlt, .refl g _⟩) fun hlt => ?_
    -- nothing runs between the drop and the change, so they may as well change places
    obtain ⟨hm, -⟩ := kinding_ok.note .control trivial hn
    obtain ⟨hs, hle⟩ := KindedTale.onward hm honward
    have hfree : ∀ b, ((w.host.1.modifyTransition a cleared).transition b).tracker ≠
        some tracker := by
      intro b hb
      rw [Scene.transition_modify] at hb
      split at hb
      · cases hb
      · rename_i hne
        have hrole := ((hw.scene.transitions a).tracker tracker htr).2
        rw [((hw.scene.transitions b).tracker tracker hb).2] at hrole
        refine hne ⟨Role.follows.inj hrole, ?_⟩
        by_contra hge
        rw [Scene.transition, getD_of_size_le (not_lt.1 hge)] at hb
        cases hb
    obtain ⟨hd, -⟩ := KindedTale.drop hs hlt hfree
    obtain ⟨hend, -⟩ := kinding_ok.note .control trivial hd
    exact ⟨g, ⟨List.prefix_refl g, .refl _, hle.scene⟩, hend, trivial⟩

end

variable (hN : kinding.Obeys nested)
include hN

section

variable (hw : KindedTale g w)
include hw

theorem kinding_animateTo (ha : Moves w a c) {v : Value} (hv : FitsAt g c v) :
    kinding.Keeps nested g w (Transition.animateTo a v) := by
  obtain ⟨hlt, hcell⟩ := ha
  refine .ask hw fun hn => .view_then hn fun hn => ?_
  dsimp only
  rw [hcell]
  split
  · exact .ret hn trivial
  refine modify_then hn ⟨rfl, rfl, .inl rfl, .inl rfl, .inl, .inl rfl, .inl rfl⟩
    fun w1 hw1 hle1 _ => ?_
  refine .seq (kinding_peek hN hw1 c) fun g2 w2 current hle2 hw2 hcurrent => ?_
  have ha2 : Moves w2 a c := hle2.moves (hle1.moves ⟨hlt, hcell⟩)
  have hv2 : FitsAt g2 c v := hv.mono hle2.roles
  refine .ask hw2 fun hn => ?_
  dsimp only [id]
  generalize (if (w2.host.1.transition a).running = true
    then (w2.host.1.transition a).target.same v else current.same v) = there
  split
  · exact .ret hn trivial
  split
  · -- without a duration the value is applied at once
    refine modify_then hn ⟨rfl, rfl, .inr ?_, .inl rfl, nofun, .inl rfl, .inl rfl⟩
      fun w3 hw3 _ _ => kinding_set hN hw3 hv2
    exact ha2.2.symm ▸ hv2.2
  · refine modify_then hn ⟨rfl, rfl, .inr ?_, .inr ?_, .inl, .inl rfl, .inl rfl⟩
      fun w3 hw3 hle3 hhost => ?_
    · exact ha2.2.symm ▸ hv2.2
    · exact ha2.2.symm ▸ hcurrent.2
    have ha3 := hle3.moves ha2
    have hsource : (w3.host.1.transition a).source.Fits (kindAt g2 c) := by
      rw [hhost, Scene.transition_modify, if_pos ⟨rfl, ha2.1⟩]
      exact hcurrent.2
    refine .ask hw3 fun hn => ?_
    refine .seq (kinding_peek hN hn _) fun g4 w4 started hle4 hw4 _ => ?_
    -- while the clock was read the transition may have been sent elsewhere, in its kind
    have hle4 : KindedLater g2 w3 g4 w4 :=
      kinding_ok.trans (kinding_ok.note .control trivial hw3).2 hle4
    have ha4 := hle4.moves ha3
    have hsource4 : (w4.host.1.transition a).source.Fits (kindAt g4 c) := by
      rw [kindAt_extend hle4.roles hcurrent.1]
      have := hle4.scene.source a ha3.1
      rw [ha3.2] at this
      exact this hcurrent.1 hsource
    refine modify_then hw4 ⟨rfl, rfl, .inl rfl, .inl rfl, fun _ => .inr ?_, .inl rfl, .inl rfl⟩
      fun w5 hw5 hle5 _ => kinding_schedule hw5 (hle5.moves ha4).1
    exact ha4.2.symm ▸ hsource4

theorem kinding_setTransition (ha : Moves w a c) {v : Value} (hv : FitsAt g c v) :
    kinding.Keeps nested g w (Transition.set a v) := by
  refine .ask hw fun hn => ?_
  split
  · refine .seq (kinding_clearBinding hn a) fun g' w' _ hle hw' _ => ?_
    exact kinding_animateTo hN hw' (KindedLater.moves hle ha) (hv.mono hle.roles)
  · exact kinding_animateTo hN hn ha hv

theorem kinding_evaluateBinding (ha : Moves w a c) :
    kinding.Runs nested g w (Transition.evaluateBinding a) fun g' _ r =>
      ∀ v, r = some v → FitsAt g' c v := by
  have hkinded := hw.scene.transitions a
  refine .ask hw fun hn => ?_
  dsimp only [id]
  cases hb : (w.host.1.transition a).binding with
  | none => exact .ret hn nofun
  | some code =>
    cases htr : (w.host.1.transition a).tracker with
    | none => exact .ret hn nofun
    | some tracker =>
      have hbody : ∀ w', KindedLater g w.beat g w' → KindedTale g w' →
          kinding.Runs nested g w' (.perform code) fun _ _ v => code.Returns v :=
        fun w' _ hw' => .perform hN hw' fun _ => code.known _
      refine .seq (.track hn (fun _ => trivial) trivial hbody
        fun _ _ _ _ _ _ h => h) fun g' w' r hle hw' hr => ?_
      have hroles : g <+: g' := hle.roles
      cases r with
      | done v =>
        refine .ret hw' fun u hu => ?_
        cases hu
        have hfits := (hkinded.binding code hb).fits (hr.1 v rfl)
        rw [ha.2] at hfits
        exact FitsAt.mono hroles ⟨ha.2 ▸ hkinded.cell, hfits⟩
      | skipped =>
        -- the tracker is alive
        have hdropped := hr.2 rfl
        have halive := hw.alive a tracker htr
        rw [show (w.store.cell tracker).dropped = true from hdropped] at halive
        cases halive
      | failed e =>
        refine .view_then hw' fun hn' => ?_
        exact .seq (.record _ hn') fun _ _ _ _ hw'' _ =>
          .ret hw'' nofun

theorem kinding_setTransitionBinding (ha : Moves w a c)
    {code : Code U Value} (hcode : code.Yields (kindAt g c)) :
    kinding.Keeps nested g w (Transition.setBinding a code) := by
  refine .seq (kinding_clearBinding hw a) fun g1 w1 _ hle1 hw1 _ => ?_
  have ha1 := hle1.moves ha
  have hlt : c < g.length := ha.2 ▸ (hw.scene.transitions a).cell
  refine .ask hw1 fun hn => .view_then hn fun hn => ?_
  dsimp only
  rw [ha1.2]
  refine .seq (kinding_newTracker (x := .follows a) hn _ rfl ha1.1)
    fun g2 w2 tracker hle2 hw2 hnew => ?_
  obtain ⟨rfl, hhost, rfl, halive⟩ := hnew
  have ha2 : Moves w2 a c := KindedLater.moves hle2 ha1
  have hcode2 : code.Yields (kindAt (g1 ++ [.follows a]) c) := by
    rw [kindAt_extend (hle1.roles.trans hle2.roles) hlt]
    exact hcode
  set bound : Transition U → Transition U := fun t =>
    { t with binding := some code, tracker := some g1.length } with hbound
  have hkinded : (bound (w2.host.1.transition a)).Kinded (g1 ++ [.follows a]) a := by
    have hold := hw2.scene.transitions a
    refine ⟨hold.cell, hold.interpolate, hold.target, hold.source, fun code' h => ?_, fun d h => ?_⟩
    · cases h
      exact ha2.2.symm ▸ hcode2
    · cases h
      exact ⟨by simp, roleAt_append ..⟩
  have hset : ∀ w', KindedTale (g1 ++ [.follows a]) w' → w'.host.1 = w2.host.1 →
      w'.store = w2.store →
      KindedTale (g1 ++ [.follows a]) (w'.withHost (w'.host.1.modifyTransition a bound)) ∧
      KindedLater (g1 ++ [.follows a]) w' (g1 ++ [.follows a])
        (w'.withHost (w'.host.1.modifyTransition a bound)) := by
    intro w' hw' hhost' hstore'
    refine hw'.modifyTransition a rfl (by rw [hhost']; exact hkinded) (fun h => h) fun d h => ?_
    cases h
    rw [hstore']
    exact halive
  refine .change_then hw2 (fun hn => hset _ hn rfl rfl) fun hs => ?_
  have ha3 : Moves (w2.beat.withHost (w2.host.1.modifyTransition a bound)) a c :=
    (hset _ (kinding_ok.note .control trivial hw2).1 rfl rfl).2.moves ha2
  refine .seq (kinding_evaluateBinding hN hs ha3) fun g4 w4 r hle4 hw4 hr => ?_
  cases r with
  | none => exact .ret hw4 trivial
  | some v =>
    have hv := hr v rfl
    have ha4 := hle4.moves ha3
    refine modify_then hw4 ⟨rfl, rfl, .inr ?_, .inl rfl, nofun, .inl rfl, .inl rfl⟩
      fun w5 hw5 _ _ => kinding_set hN hw5 hv
    exact ha4.2.symm ▸ hv.2

omit hN in
theorem kinding_stop (a : TransitionId) :
    kinding.Keeps nested g w (Transition.stop a) :=
  .seq (kinding_clearBinding hw a) fun _ _ _ _ hw' _ =>
    kinding_modify hw' ⟨rfl, rfl, .inl rfl, .inl rfl, nofun, .inl rfl, .inl rfl⟩

theorem kinding_step (ha : Moves w a c) (now : Int64) :
    kinding.Keeps nested g w (Transition.step a now) := by
  refine .ask hw fun hn => ?_
  extract_lets move
  have hmove : ∀ {g' w'}, KindedTale g' w' → Moves w' a c →
      kinding.Keeps nested g' w' (move ()) := by
    intro g' w' hw' ha'
    have hkinded := hw'.scene.transitions a
    refine .ask hw' fun hn => ?_
    dsimp only [id]
    split
    · exact .ret hn trivial
    · rename_i hrun
      have hrun : (w'.host.1.transition a).running = true := by simpa using hrun
      split
      · exact .ret hn trivial
      · split
        · refine modify_then hn ⟨rfl, rfl, .inl rfl, .inl rfl, nofun, .inl rfl, .inl rfl⟩
            fun w1 hw1 _ _ => ?_
          exact .seq_ret (kinding_set hN hw1 ⟨hkinded.cell, hkinded.target⟩)
        · rw [hkinded.interpolate]
          refine .seq_ret (kinding_set hN hn ⟨hkinded.cell, ?_⟩)
          exact Lerp.value_fits (hkinded.source hrun) hkinded.target _
  split
  · refine modify_then hn ⟨rfl, rfl, .inl rfl, .inl rfl, .inl, .inl rfl, .inl rfl⟩
      fun w1 hw1 hle1 _ => ?_
    refine .seq (kinding_evaluateBinding hN hw1 (hle1.moves ha))
      fun g2 w2 r hle2 hw2 hr => ?_
    have ha2 := hle2.moves (hle1.moves ha)
    cases r with
    | none => exact hmove hw2 ha2
    | some v =>
      exact .seq (kinding_animateTo hN hw2 ha2 (hr v rfl))
        fun g3 w3 _ hle3 hw3 _ => hmove hw3 (hle3.moves ha2)
  · exact hmove hn ha

end

/-! ## The clock -/

theorem kinding_ticks : kinding.Ticks nested fun s a => a < s.transitions.size where
  sober := kinding_ok.toSober
  later hle ha := ha.trans_le hle.scene.transitions
  listed hw ha := hw.scene.running _ ha
  step now hw ha := kinding_step hN hw ⟨ha, rfl⟩ now
  dismiss _ hw := KindedTale.onward hw ⟨rfl, rfl, .inl rfl, .inl rfl, .inl, .inl rfl, .inl rfl⟩
  setList hw hr := KindedTale.setRunning hw hr
  setTicking {g w} ticking hw :=
    hw.withHost (hw.scene.aside ticking ..)
      (Scene.later_aside g _ ticking ..) hw.alive
  setTime {g w} now hw := by
    refine kinding_set hN hw ?_
    rw [hw.scene.clock]
    refine ⟨hw.store.pos, ?_⟩
    rw [kindAt, hw.store.roleAt_zero]
    exact Value.fits_void _
  peek c hw := (kinding_peek hN hw c).keeps

end Programs

end ReactiveTree
