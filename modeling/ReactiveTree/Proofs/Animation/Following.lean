import ReactiveTree.Proofs.Animation.Heeding

/-!
# Bindings of transitions do not go deaf

After each program and each tick of a session the transition that is watched heeds its binding
(`Vigil.Stands`). At the end a clean tracker means that the binding would give what it gave before,
and one that is not clean means that the transition waits in the clock's list.

Three things break this, and none of them is an error that anyone is told: a transition that was
stopped stays so when it gets a binding, work that fails leaves the tracker marked, and what is
told to a transition during its own last step is lost.
-/

namespace ReactiveTree

open Store

variable {U X : Type}

/-- Programs over cells and transitions that leave the value of `x` and the work under `t` to
others. -/
inductive Sparing (x t : CellId) : ⦃α : Type⦄ → SceneM U X α → Prop where
  | new (name : String) (v : Value) : Sparing x t (.new name v)
  | newBound (name : String) {code : Code U Value} (h : code.Minds) :
      Sparing x t (.newBound name code)
  | newTracker (name : String) (u : U) (self : Option ComponentId) :
      Sparing x t (.newTracker name (some (.effect u self)))
  | read (c : CellId) : Sparing x t (.get c)
  | tryRead (c : CellId) : Sparing x t (.tryGet c)
  | write {c : CellId} (h : c ≠ x) (v : Value) : Sparing x t (.set c v)
  | bind (c : CellId) {code : Code U Value} (h : code.Minds) : Sparing x t (.setBinding c code)
  | link (c d : CellId) : Sparing x t (.link c d)
  | drop (c : CellId) : Sparing x t (.drop c)
  | observe (c : CellId) (u : U) (self : Option ComponentId) :
      Sparing x t (.observe c (.effect u self))
  | unobserve (o : ObserverId) : Sparing x t (.unobserve o)
  | track {c : CellId} (h : c ≠ t) {α : Type} {code : Code U α} (hcode : code.Minds) :
      Sparing x t (.track c (.perform code))
  | invalidate (c : CellId) : Sparing x t (.invalidate c)
  | perform {α : Type} {code : Code U α} (h : code.Minds) : Sparing x t (.perform code)
  | animate (cell : CellId) (spec : Spec) (interpolate : Value → Value → Float → Value) :
      Sparing x t (Transition.create cell spec interpolate)
  | start (a : TransitionId) (v : Value) : Sparing x t (Transition.set a v)
  | follow (a : TransitionId) {code : Code U Value} (h : code.Minds) :
      Sparing x t (Transition.setBinding a code)
  | stop (a : TransitionId) : Sparing x t (Transition.stop a)
  /-- Changes what user code keeps in the scene. -/
  | aside {α : Type} (f : X → α × X) :
      Sparing x t (.host fun s => ((f s.user).1, { s with user := (f s.user).2 }))

section

variable {V : Vigil} {α : Type} {w w' : SceneTale U X} {host : Host U X} {depth : Nat}
  {code : Code U Value}

/-- Nothing is being evaluated and the transition heeds its binding. -/
structure Vigil.Stands (V : Vigil) (host : Host U X) (code : Code U Value)
    (w : Tale (Scene U X) (Code U)) : Prop where
  upright : Upright w
  heeds : V.Heeds host code w

theorem Vigil.Stands.noting (h : V.Stands host code w) : V.Stands host code w.beat :=
  ⟨h.upright.noting, h.heeds.kept (Vigil.Passes.noting w).toKeeps⟩

theorem Vigil.Keeping.stands {act : SceneM U X α} (h : V.Keeping host depth w act)
    (hw : V.Stands host code w) : act.Grants host depth w fun _ w' => V.Stands host code w' :=
  fun a w' hr => ⟨(h a w' hr).1, hw.heeds.kept (h a w' hr).2⟩

theorem Vigil.Stands.rehosted (h : V.Stands host code w) {s : Scene U X}
    (ht : s.transitions = w.host.1.transitions) (hc : s.clock.cell = w.host.1.clock.cell) :
    V.Stands host code (w.withHost s) := by
  have hget : ∀ b, s.transition b = w.host.1.transition b := fun b => by
    rw [Scene.transition, Scene.transition, ht]
  have hbonded : s.Bonded w.store := h.upright.bonded.changed (by rw [ht]) hc
    (fun b => .inr (by rw [hget])) (fun b => .inr (by rw [hget])) fun b => by rw [hget]
  refine ⟨⟨h.upright.sane, h.upright.outside, h.upright.tended, hbonded⟩, ?_⟩
  refine h.heeds.kept ⟨⟨.refl _, Nat.le_of_eq (by rw [← ht]; rfl), .inl (hget _), fun _ hf => ?_,
    fun _ _ => rfl, fun _ _ hc => .inl hc⟩, fun _ _ => rfl⟩
  refine ⟨hf.live, hf.shown, hf.loose, hf.alerts, fun b hb hne => ?_, hf.past⟩
  rw [← hget]
  exact hf.alone b (Nat.lt_of_lt_of_eq hb (by rw [← ht]; rfl)) hne

/-- Only frames and the past have changed, the past by what does not concern the tracker. -/
theorem Vigil.Stands.restored (h : V.Stands host code w) {s : Store (Code U)} (hsane : s.Sane)
    (hout : s.consumers = []) (hc : s.cells = w.store.cells) (ho : s.observers = w.store.observers)
    {past : Chronicle (Code U)} (hp : w.past ⊆ past)
    (hr : past.reads V.tracker = w.past.reads V.tracker) :
    V.Stands host code ⟨s, w.host.1, past⟩ := by
  have hcell : ∀ c, s.cell c = w.store.cell c := fun c => by rw [Store.cell, Store.cell, hc]
  have hakin : Akin w.store s := .of_cells hc ho
  refine ⟨⟨hsane, hout, h.upright.tended.akin hakin, h.upright.bonded.kept hakin.kept⟩, ?_⟩
  refine h.heeds.kept ⟨⟨hakin.kept, Nat.le_refl _, .inl rfl, fun _ hf => ?_, fun _ _ => hr,
    fun _ _ hclean => .inl ((congrArg Cell.state (hcell _)).trans hclean)⟩,
    fun _ _ => congrArg Cell.value (hcell _)⟩
  exact ⟨(hakin.dropped _).symm.trans hf.live, (hakin.dropped _).symm.trans hf.shown,
    hf.loose.akin hakin.symm, hf.alerts.same ho (hakin.observed _), hf.alone,
    fun m hm => hf.past m (hp hm)⟩

/-! ## Ticks -/

theorem Vigil.Stands.isAlive (hw : V.Stands host code w) (b : TransitionId) :
    (Transition.isAlive b).Grants host depth w fun alive u => V.Stands host code u ∧
      u.store = w.store ∧ u.host.1 = w.host.1 ∧
      (alive = true → (w.host.1.transition b).stopped = false) ∧
      (alive = false → (w.host.1.transition b).stopped = true ∨
        (w.store.cell (w.host.1.transition b).cell).dropped = true) := by
  refine .ask ?_
  split
  · rename_i hstopped
    exact .returning ⟨hw.noting.noting, rfl, rfl, nofun, fun _ => .inl hstopped⟩
  · rename_i hstopped
    refine .view (.returning ⟨hw.noting.noting.noting, rfl, rfl, fun _ => by simpa using hstopped,
      fun h => .inr ?_⟩)
    have h : (!(w.store.cell (w.host.1.transition b).cell).dropped) = false := h
    simpa using h

variable (hhost : host.Minds V.shared) (hx : ¬V.shared V.cell) (hclock : V.cell ≠ 0)
  (hreading : (code.meaning host).Reading)
include hhost hx hclock hreading

theorem Vigil.Stands.stepAll (now : Int64) (as : List TransitionId) (hw : V.Stands host code w) :
    (Transition.stepAll now as).Grants host depth w fun _ w' => V.Stands host code w' := by
  induction as generalizing w with
  | nil => exact .returning hw.noting
  | cons b rest ih =>
    -- what follows a step, or the lack of one
    have hfinish : ∀ {u : SceneTale U X} (finished : Bool), V.Stands host code u →
        (finished = true → V.Stands host code (u.beat.withHost
          (u.host.1.modifyTransition b fun t => { t with queued := false }))) →
        (if finished = true then do
            Transition.modify b fun t => { t with queued := false }
            Transition.stepAll now rest
          else do
            let kept ← Transition.stepAll now rest
            return b :: kept : SceneM U X (List TransitionId)).Grants host depth u
          fun _ w' => V.Stands host code w' := by
      intro u finished hu hdone
      split
      · exact .modify (ih (hdone ‹_›))
      · exact .bind ((ih hu).mono fun _ w' hw' => .returning hw'.noting)
    have hmild : Transition.Mild (U := U) fun t => { t with queued := false } :=
      .kept fun _ => ⟨rfl, rfl, rfl⟩
    refine .bind ((hw.isAlive b).mono fun alive u hu => ?_)
    obtain ⟨hstands, hstore, hscene, hgoing, hdead⟩ := hu
    by_cases hb : b = V.transition
    · subst hb
      split
      · rename_i halive
        refine .bind ((hstands.upright.stepOwn hhost hx hclock hreading hstands.heeds
          (by rw [hscene]; exact hgoing halive) now).mono fun finished u1 hu1 => ?_)
        refine hfinish finished ⟨hu1.1, hu1.2.heeds⟩ fun _ => ⟨hu1.1.modify _ hmild, ?_⟩
        have hm : V.Moves u1 (u1.beat.withHost (u1.host.1.modifyTransition V.transition
            fun t => { t with queued := false })) :=
          Vigil.moves_modify u1 (fun _ => rfl) (fun _ => rfl) fun _ => rfl
        refine (hu1.2.moved hm fun hp _ => ?_).heeds
        have hheading : V.heading (u1.beat.withHost (u1.host.1.modifyTransition V.transition
            fun t => { t with queued := false })) = V.heading u1 := by
          show (if ((u1.host.1.modifyTransition V.transition _).transition
            V.transition).running = true then
              ((u1.host.1.modifyTransition V.transition _).transition V.transition).target else _) =
                _
          rw [hp.modified]
          rfl
        rw [hheading]
        exact .refl _
      · rename_i halive
        -- one that is stopped or whose cell is gone need not heed anything
        refine .bind
          (.returning (hfinish true hstands.noting fun _ => ⟨hstands.upright.noting.modify _ hmild,
            fun hp _ hs hf => ?_⟩))
        have hget : ((u.host.1.modifyTransition V.transition fun t =>
            { t with queued := false }).transition V.transition).stopped =
              (w.host.1.transition V.transition).stopped ∧
            ((u.host.1.modifyTransition V.transition fun t =>
              { t with queued := false }).transition V.transition).cell =
                (w.host.1.transition V.transition).cell := by
          rw [hscene, Scene.transition_modify]
          split
          · exact ⟨rfl, rfl⟩
          · exact ⟨rfl, rfl⟩
        have hs : ((u.host.1.modifyTransition V.transition fun t =>
          { t with queued := false }).transition V.transition).stopped = false := hs
        have hcell : ((u.host.1.modifyTransition V.transition fun t =>
          { t with queued := false }).transition V.transition).cell = V.cell := hp.cell
        have hshown : (u.store.cell V.cell).dropped = false := hf.shown
        rcases hdead (by simpa using halive) with hstopped | hdropped
        · rw [hget.1, hstopped] at hs
          cases hs
        · rw [← hget.2, hcell, ← hstore, hshown] at hdropped
          cases hdropped
    · have hkeep : ∀ {u : SceneTale U X}, V.Stands host code u → V.Stands host code
          (u.beat.withHost (u.host.1.modifyTransition b fun t =>
            { t with queued := false })) := by
        intro u hu
        have hmodify :
            V.Keeping host depth u (Transition.modify b fun t => { t with queued := false }) :=
          .modify hu.upright hb hmild
        exact hmodify.stands hu () _ rfl
      split
      · refine .bind ((Vigil.Keeping.stands (.stepOther hhost hx hclock hstands.upright hb now)
          hstands).mono fun finished u1 hu1 => ?_)
        exact hfinish finished hu1 fun _ => hkeep hu1
      · exact .bind (.returning (hfinish true hstands.noting fun _ => hkeep hstands.noting))

theorem Vigil.Stands.tick (now : Int64) (hw : V.Stands host code w) :
    (Clock.tick now).Grants host depth w fun _ w' => V.Stands host code w' := by
  refine .ask (.bind ?_)
  have hcell : V.Present w.beat → w.host.1.clock.cell ≠ V.cell ∨ ¬V.Fair w.beat :=
    fun _ => .inl (hw.upright.bonded.clock ▸ hclock.symm)
  refine (Vigil.Keeping.stands (.set hhost hx hw.upright.noting hcell _) hw.noting).mono
    fun _ u hu => ?_
  have htaken : V.Stands host code (u.beat.withHost
      { u.host.1 with clock := { u.host.1.clock with running := [] } }) :=
    hu.noting.rehosted rfl rfl
  refine .bind fun running u' htake => ?_
  cases htake
  refine .bind ((htaken.stepAll hhost hx hclock hreading now _).mono fun kept u1 hu1 _ w' h => ?_)
  cases h
  exact hu1.noting.rehosted rfl rfl

omit hclock hreading in
theorem Vigil.Stands.time (hw : V.Stands host code w) :
    Clock.time.Grants host depth w fun _ w' => V.Stands host code w' := by
  refine .ask (.bind ((Vigil.Keeping.stands (.peek hhost hx hw.upright.noting _) hw.noting).mono
    fun v u hu => ?_))
  exact .returning hu.noting

theorem Vigil.Stands.moveTo (now : Int64) (hw : V.Stands host code w) :
    (Clock.moveTo now).Grants host depth w fun _ w' => V.Stands host code w' := by
  have hmove : ∀ {u : SceneTale U X} {time : Int64}, V.Stands host code u → (do
      Act.change fun s => { s with clock := { s.clock with ticking := true } }
      .ensure (Clock.tick time) fun s =>
        { s with clock := { s.clock with ticking := false } } : SceneM U X Unit).Grants host depth u
      fun _ w' => V.Stands host code w' := by
    intro u time hu
    refine .change fun _ w' h => ?_
    obtain ⟨u', htick, rfl⟩ := Act.of_tell_ensure h
    have hu' := (hu.noting.rehosted
      (s := { u.host.1 with clock := { u.host.1.clock with ticking := true } }) rfl
        rfl).noting.tick hhost hx hclock hreading time _ _ htick
    exact hu'.rehosted
      rfl rfl
  refine .ask ?_
  split
  · exact Vigil.Keeping.stands (.record hw.upright.noting _) hw.noting
  refine .bind ((hw.noting.time hhost hx).mono fun current u hu => ?_)
  split
  · exact .bind ((hu.time hhost hx).mono fun time u1 hu1 => hmove hu1)
  · exact .bind (.returning (hmove hu.noting))

theorem Vigil.Stands.ticks {act : SceneM U X Unit} (h : Tick act) (hw : V.Stands host code w) :
    act.Grants host depth w fun _ w' => V.Stands host code w' := by
  cases h with
  | moveTo now => exact hw.moveTo hhost hx hclock hreading now
  | advance dt =>
    unfold Clock.advance
    split
    · exact .returning hw.noting
    · exact .bind ((hw.time hhost hx).mono fun time u hu => hu.moveTo hhost hx hclock hreading _)

/-! ## Programs of a session -/

theorem Vigil.Stands.sparing {act : SceneM U X α} (h : Sparing V.cell V.tracker act)
    (hw : V.Stands host code w) : act.Grants host depth w fun _ w' => V.Stands host code w' := by
  have hup := hw.upright
  have hown : ∀ {act : SceneM U X Unit}, (act.Grants host depth w fun _ w' =>
      Upright w' ∧ (w'.host.1.transition V.transition).binding = none) →
      act.Grants host depth w fun _ w' => V.Stands host code w' := fun h =>
    h.mono fun _ _ h => ⟨h.1, Vigil.heeds_of_unbound h.2⟩
  cases h with
  | new name v =>
    exact Vigil.Keeping.stands (.step (f := fun s => s.add { name, value := v }) rfl hup
      (hup.tended.add _ nofun) fun hp => .add (hup.isTracker hp).1 (hup.isProperty hp).1 _) hw
  | @newBound name code' hcode =>
    exact Vigil.Keeping.stands (.step (f := fun s =>
        s.add { name, binding := some (.code code'), bindings := 1, state := .dirty }) rfl hup
      (hup.tended.add _ fun _ h => by cases h; exact hcode)
      fun hp => .add (hup.isTracker hp).1 (hup.isProperty hp).1 _) hw
  | newTracker name u self =>
    exact Vigil.Keeping.stands (.newTracker hup name (by trivial) nofun) hw
  | read c => exact Vigil.Keeping.stands (.get hhost hx hup c) hw
  | tryRead c => exact Vigil.Keeping.stands (.tryGet hhost hx hup c) hw
  | write hc v => exact Vigil.Keeping.stands (.set hhost hx hup (fun _ => .inl hc) v) hw
  | bind c hcode => exact Vigil.Keeping.stands (.setBinding hhost hx hup c hcode) hw
  | link c d => exact Vigil.Keeping.stands (.link hhost hx hup c d) hw
  | drop c => exact Vigil.Keeping.stands (.drop hup c) hw
  | observe c u self =>
    exact Vigil.Keeping.stands (.observe hup c (by trivial) nofun) hw
  | unobserve o =>
    exact Vigil.Keeping.stands (.step (f := fun s => ((), s.unobserve o)) rfl hup
      (hup.tended.unobserve o) fun _ => .unobserve o) hw
  | track hc hcode => exact Vigil.Keeping.stands (.track hhost hx hup (fun _ => hc) hcode) hw
  | invalidate c => exact Vigil.Keeping.stands (.invalidate hhost hx hup c) hw
  | perform hcode => exact Vigil.Keeping.stands (.perform hhost hx hup hcode) hw
  | animate cell spec interpolate =>
    intro a w' hr
    obtain ⟨hw', hkeeps, hfresh⟩ := hup.create hhost hx hr
    by_cases hlt : V.transition < w.host.1.transitions.size
    · exact ⟨hw', hw.heeds.kept (hkeeps hlt)⟩
    · exact ⟨hw', Vigil.heeds_of_unbound (hfresh (not_lt.1 hlt))⟩
  | start a v =>
    by_cases ha : a = V.transition
    · subst ha
      exact hown (hup.setOwnTransition hhost hx hclock v)
    · exact Vigil.Keeping.stands (.setTransition hhost hx hclock hup ha v) hw
  | follow a hcode =>
    by_cases ha : a = V.transition
    · subst ha
      exact (hup.followOwn hhost hx hcode hreading).mono fun _ _ h => ⟨h.1, h.2.heeds⟩
    · exact Vigil.Keeping.stands (.follow hhost hx hclock hup ha hcode) hw
  | stop a =>
    by_cases ha : a = V.transition
    · subst ha
      exact hown hup.stopOwn
    · exact Vigil.Keeping.stands (.stop hup ha) hw
  | aside f =>
    intro a w' hr
    cases hr
    exact hw.noting.rehosted rfl rfl

theorem Vigil.Stands.composed {act : SceneM U X α} (h : Act.Composed (Sparing V.cell V.tracker) act)
    (hw : V.Stands host code w) : act.Grants host depth w fun _ w' => V.Stands host code w' := by
  induction h generalizing w with
  | prim h => exact hw.sparing hhost hx hclock hreading h
  | pure a => exact .returning hw.noting
  | bind _ _ ihx ihf => exact .bind ((ihx hw).mono fun a u hu => ihf a hu)
  | ask f =>
    intro a w' hr
    cases hr
    exact hw.noting
  | view f =>
    intro a w' hr
    cases hr
    exact hw.noting
  | record e => exact Vigil.Keeping.stands (.record hw.upright e) hw
  | panic text =>
    intro a w' hr
    cases hr
  | @untracked α body _ ih =>
    intro a w' hr
    obtain ⟨hsane, hout, -⟩ := hw.upright.ran hr
    obtain ⟨u, hbody, rfl⟩ := Told.of_untracked (w := w.beat) hr
    have hin : V.Stands host code (Told.sheltering w.beat) :=
      hw.noting.restored ((@Step.shelter _ w.store []).sane hw.upright.sane)
        hw.upright.outside rfl rfl (List.subset_cons_self ..) rfl
    exact (ih hin a u hbody).restored hsane hout rfl rfl (List.subset_cons_self ..) rfl

theorem Vigil.Stands.session {acts : List (SceneM U X Unit)}
    (hacts : ∀ act ∈ acts, Tick act ∨ Act.Composed (Sparing V.cell V.tracker) act)
    (hw : V.Stands host code w)
    (hreturns : Act.Returning (Code.meaning host) depth (fun _ => True) acts w.untold) :
    V.Stands host code (Act.toldSession (Code.meaning host) depth acts w) := by
  induction acts generalizing w with
  | nil => exact hw
  | cons act acts ih =>
    obtain ⟨hact, hrest⟩ := List.forall_mem_cons.1 hacts
    obtain ⟨hreturn, hreturns⟩ := hreturns
    have hplain := Act.tell_echoes (Act.toldTo_echoes (Code.meaning host) depth) act w
    obtain ⟨u, hu⟩ := hreturn trivial
    have hok : Told.untoldResult (act.tell (host.told depth) w) = .ok () u :=
      hplain.trans hu
    set r := act.tell (host.told depth) w with hr
    refine ih hrest ?_ ?_
    · show V.Stands host code (Act.outcome r)
      cases hres : r with
      | error stop w' =>
        rw [hres] at hok
        cases hok
      | ok x w' =>
        rcases hact with htick | hact
        · exact hw.ticks hhost hx hclock hreading htick x w' (hr.symm.trans hres)
        · exact hw.composed hhost hx hclock hreading hact x w' (hr.symm.trans hres)
    · rw [Act.outcome_untold, hplain]
      exact hreturns

end

/-! ## The end of a session -/

section

variable {V : Vigil} {host : Host U X} {code : Code U Value}

theorem stands_start (user : X) (reports : Bool) :
    V.Stands host code (Tale.start user reports) := by
  refine ⟨⟨Path.sane (path_start user reports) (sane_empty reports), rfl,
    ⟨fun c code h => ?_, nofun⟩, ⟨fun b code h => ?_, fun b t h => ?_, fun b b' t h => ?_,
      nofun, rfl⟩⟩, Vigil.heeds_of_unbound rfl⟩
  · rcases c with _ | c
    · cases h
    · cases h
  · cases h
  · cases h
  · cases h

theorem Upright.headingProgram {w : SceneTale U X} {depth : Nat} (hw : Upright w)
    (hhost : host.Minds V.shared) (hx : ¬V.shared V.cell) (hp : V.Present w) (hf : V.Fair w) :
    (Transition.heading V.transition).Grants host depth w fun h _ => h = V.heading w := by
  refine .ask ?_
  split
  · rename_i hrunning
    exact .returning (if_pos hrunning).symm
  · rename_i hidle
    intro v w' h
    obtain ⟨-, -, hvalue⟩ := hw.noting.peek hhost hx h
    obtain ⟨hv, hsame⟩ := hvalue hf.loose hp.cell
    rw [hv, hsame]
    exact (if_neg hidle).symm

/-- A binding whose tracker is clean gives what it gave before. -/
theorem Vigil.Settled.again {w : SceneTale U X} {depth : Nat} {v : Value}
    {u : World (Scene U X) (Code U)} (h : V.Settled host code w) (hup : Upright w)
    (hcoherent : Coherent w.store w.past) (hframes : w.store.frames = []) (hp : V.Present w)
    (hf : V.Fair w) (hclean : (w.store.cell V.tracker).state = .clean)
    (hr : (Act.perform code).runTo (Code.meaning host) depth w.untold = .ok v u) :
    v.Alike (V.heading w) := by
  obtain ⟨v', hanswered, halike⟩ := h
  cases depth with
  | zero => cases hr
  | succ depth =>
    obtain ⟨rfl, -⟩ := hanswered.again hframes
      (hcoherent.upToDate V.tracker (.inr (hup.isTracker hp).2) hclean hf.live) hr
    exact halike

theorem Act.Returning.mono {S : Type} {K : Type → Type} {meaning : {α : Type} → K α → Act S K α}
    {depth : Nat} {p q : Act S K Unit → Prop} {acts : List (Act S K Unit)} {w : World S K}
    (h : Returning meaning depth p acts w) (hq : ∀ act, q act → p act) :
    Returning meaning depth q acts w := by
  induction acts generalizing w with
  | nil => trivial
  | cons act acts ih => exact ⟨fun hact => h.1 (hq act hact), ih h.2⟩

theorem Sparing.steering {x t : CellId} ⦃α : Type⦄ {act : SceneM U X α} (h : Sparing x t act) :
    Steering (fun _ => True) act := by
  cases h with
  | new name v => exact .new name v
  | newBound name h => exact .newBound name h.plain
  | newTracker name u self => exact .newTracker name u self
  | read c => exact .read c
  | tryRead c => exact .tryRead c
  | write h v => exact .write _ v
  | bind c h => exact .bind c h.plain
  | link c d => exact .link c d
  | drop c => exact .drop c
  | observe c u self => exact .observe c u self
  | unobserve o => exact .unobserve o
  | track h hcode => exact .track _ hcode.plain
  | invalidate c => exact .invalidate c
  | perform h => exact .perform h.plain
  | animate cell spec interpolate => exact .animate cell spec interpolate
  | start a v => exact .start trivial v
  | follow a h => exact .follow trivial h.plain
  | stop a => exact .stop trivial
  | aside f => exact .aside f

theorem Host.Minds.steers {shared : CellId → Prop} (h : host.Minds shared) :
    host.Steers fun _ => False := by
  have hall : ∀ {α : Type} {act : SceneM U X α}, Act.Composed (Minding shared) act →
      Act.Composed (Steering fun _ => False) act := fun h => h.mono fun α act hact => by
    cases hact with
    | read c => exact .read c
    | tryRead c => exact .tryRead c
    | write h v => exact .write _ v
    | aside f => exact .aside f
  exact ⟨fun u self args => hall (h.value u self args), fun u self => hall (h.model u self),
    fun u change => hall (h.peer u change)⟩

end

/-- In every session of programs over cells and transitions and of ticks, all of which return: a
transition that follows a binding, is not stopped and was treated fairly heads for the value that
the binding would give now, or it is in the clock's list and takes part in the next tick. -/
theorem session_binding_heeded (host : Host U X) (V : Vigil) (hhost : host.Minds V.shared)
    (hx : ¬V.shared V.cell) (hclock : V.cell ≠ 0) (code : Code U Value)
    (hreading : (code.meaning host).Reading) (depth : Nat) (user : X) (reports : Bool)
    (acts : List (SceneM U X Unit))
    (hacts : ∀ act ∈ acts, Tick act ∨ Act.Composed (Sparing V.cell V.tracker) act)
    (hreturns : Act.Returning (Code.meaning host) depth (fun _ => True) acts
      (World.start user reports)) :
    let w := Act.toldSession (Code.meaning host) depth acts (Tale.start user reports)
    V.Present w → (w.host.1.transition V.transition).binding = some code →
      (w.host.1.transition V.transition).stopped = false → V.Fair w →
      ∀ v h u u', (Act.perform code).runTo (Code.meaning host) depth w.untold = .ok v u →
        (Transition.heading V.transition).runTo (Code.meaning host) depth w.untold = .ok h u' →
        v.Alike h ∨ V.transition ∈ w.untold.host.clock.running ∧
          (Transition.isAlive V.transition).runTo (Code.meaning host) depth w.untold =
            .ok true w.untold := by
  intro w hp hb hs hf v h u u' hv hh
  have hstands : V.Stands host code w :=
    (stands_start user reports).session hhost hx hclock hreading hacts hreturns
  obtain ⟨hsettled, hstate⟩ := hstands.heeds hp hb hs hf
  -- what the transition heads for is what the program says
  have hheading : h = V.heading w := by
    have hecho := Act.tell_echoes (Act.toldTo_echoes (Code.meaning host) depth)
      (Transition.heading V.transition) w
    cases hr : (Transition.heading V.transition).tell (Act.toldTo (Code.meaning host) depth) w with
    | error stop w' =>
      rw [hr] at hecho
      cases hecho.trans hh
    | ok h' w' =>
      rw [hr] at hecho
      cases hecho.trans hh
      exact hstands.upright.headingProgram hhost hx hp hf h w' hr
  rcases hstate with hclean | hflag
  · obtain ⟨hpath, hframes⟩ := Act.toldSession_path (Code.meaning host) depth acts
      (w := Tale.start (U := U) user reports)
      (Path.sane (path_start (U := U) user reports) (sane_empty reports)) rfl
    have hcoherent : Coherent w.store w.past :=
      (Path.coherence ((path_start (U := U) user reports).trans hpath)
        (coherence_start reports)).coherent
    rw [hheading]
    exact .inl (hsettled.again hstands.upright hcoherent hframes hp hf hclean hv)
  · obtain ⟨hstart, hlisted⟩ := enlisted_start (fun _ => False) (U := U) user reports
    obtain ⟨-, hlist⟩ := toldSession_listed hhost.steers depth
      (fun act hact => (hacts act hact).imp id fun h => h.mono fun _ _ h => h.steering)
      hstart hlisted (hreturns.mono fun _ _ => trivial)
    refine .inr ⟨hlist V.transition hflag.2, ?_⟩
    have halive : (Transition.isAlive V.transition).runTo (Code.meaning host) depth w.untold =
        .ok (!(w.store.cell (w.host.1.transition V.transition).cell).dropped) w.untold := by
      show Act.interpret _
        (if (w.host.1.transition V.transition).stopped = true then _ else _) _ = _
      rw [if_neg (by simp [hs])]
      rfl
    rw [halive, hp.cell, hf.shown]
    rfl

/-! ## An input and a loop -/

/-- What a binding reads: the input, or the input until its own cell has come to rest. -/
inductive Wire where
  | input
  | own

namespace Wire

def value : Wire → SceneM Wire Unit Value
  | .input => Act.get 2
  | .own => do
    let x ← Act.get 1
    if x.same (.int 5) then return .int 7
    Act.get 2

def host : Host Wire Unit := .ofValue Wire.value

def binding (wire : Wire) : Code Wire Value := .value wire none

/-- A cell with a transition. Some acts later the transition follows the binding, and then the
input changes. -/
def acts (input : SceneM Wire Unit Unit) (before : List (SceneM Wire Unit Unit)) (wire : Wire) :
    List (SceneM Wire Unit Unit) :=
  discard (Act.new "x" (.int 0)) :: input ::
    discard (Transition.create 1 { duration := 100, delay := 50 } Lerp.value) :: before ++
    [Transition.setBinding 0 wire.binding, Act.set 2 (.int 5)]

/-- The input is a cell without a binding. -/
def plain : SceneM Wire Unit Unit := discard (Act.new "in" (.int 0))

/-- The input is bound to itself. -/
def loop : SceneM Wire Unit Unit := discard (Act.newBound "in" (.value .input none))

def run (acts : List (SceneM Wire Unit Unit)) : World (Scene Wire Unit) (Code Wire) :=
  Act.session (Code.meaning host) 5 acts (World.start () false)

def tell (acts : List (SceneM Wire Unit Unit)) : Tale (Scene Wire Unit) (Code Wire) :=
  Act.toldSession (Code.meaning host) 5 acts (Tale.start () false)

/-- The program returns the number. -/
def gives (w : World (Scene Wire Unit) (Code Wire)) (act : SceneM Wire Unit Value) (n : Int64) :
    Bool :=
  match act.runTo (Code.meaning host) 5 w with
  | .ok (.int m) _ => m == n
  | _ => false

/-- The transition has a binding, which would give a number that the transition does not head
for. -/
def astray (wire : Wire) (w : World (Scene Wire Unit) (Code Wire)) (new old : Int64) : Bool :=
  (w.host.transition 0).binding.isSome && gives w (Act.perform wire.binding) new &&
    gives w (Transition.heading 0) old && new != old

end Wire

/-- Work under the tracker did not fail, nothing is linked, and the cell is not read. -/
def Vigil.unread (V : Vigil) {K : Type → Type} (m : Moment K) : Bool :=
  (match m.event with
    | .ended c completed => c != V.tracker || completed
    | _ => true) &&
    (m.store.cell V.cell).binding.isNone && (m.store.cell V.cell).dependents.isEmpty &&
    (List.range m.store.cells.size).all fun c => (m.store.cell c).partner.isNone

theorem Vigil.Spared.of_unread {V : Vigil} {K : Type → Type} {m : Moment K}
    (hshared : ∀ c, ¬V.shared c) (hne : V.cell ≠ V.tracker) (h : V.unread m = true) :
    V.Spared m := by
  simp only [Vigil.unread, Bool.and_eq_true, List.all_eq_true, List.mem_range,
    Option.isNone_iff_eq_none, List.isEmpty_iff] at h
  obtain ⟨⟨⟨hevent, hbinding⟩, hunread⟩, hpartner⟩ := h
  have hfree : ∀ c, (m.store.cell c).partner = none := fun c => by
    rcases Nat.lt_or_ge c m.store.cells.size with hc | hc
    · exact hpartner c hc
    · rw [Store.cell_of_size_le hc]
  have hloose : m.store.Loose V.cell := ⟨hbinding, hfree _, fun c => by simp [hfree c]⟩
  have hfar : ¬m.store.Upstream V.cell V.tracker := fun h => by
    cases Relation.ReflTransGen.cases_head h with
    | inl h => exact hne h
    | inr h =>
      obtain ⟨_, ⟨e, he, -⟩, -⟩ := h
      simp [hunread] at he
  refine ⟨fun hended => ?_, hloose, fun c hc => ?_⟩
  · rw [hended] at hevent
    simp at hevent
  · obtain rfl := hc.resolve_left (hshared c)
    rw [linkRoot_of_partner hloose.partner]
    exact ⟨hfar, hfar⟩

theorem Value.Alike.int {m n : Int64} (h : Value.Alike (.int m) (.int n)) : m = n := by
  have hsound : ∀ a b : Value, Relation.EqvGen (fun v w => v.same w = true) a b →
      ∀ k : Int64, a = .int k ↔ b = .int k := by
    intro a b hab
    induction hab with
    | rel a b hab => cases a <;> cases b <;> simp_all [Value.same]
    | refl a => simp
    | symm a b _ ih => exact fun k => (ih k).symm
    | trans a b c _ _ ih ih' => exact fun k => (ih k).trans (ih' k)
  have hn := (hsound _ _ h m).mp rfl
  cases hn
  rfl

theorem Wire.gives_iff {w : World (Scene Wire Unit) (Code Wire)} {act : SceneM Wire Unit Value}
    {n : Int64} (h : gives w act n = true) :
    ∃ u, act.runTo (Code.meaning host) 5 w = .ok (.int n) u := by
  unfold gives at h
  split at h
  · rename_i m u hr
    rw [hr, beq_iff_eq.mp h]
    exact ⟨u, rfl⟩
  · cases h

def Wire.readsInput : Option (Code Wire Value) → Bool
  | some (.value .input none) => true
  | _ => false

def Wire.alerts : Option (Observer (Code Wire)) → Bool
  | some ⟨_, .retarget 0, false⟩ => true
  | _ => false

/-- The input has changed, and the transition waits in the list for the tick that turns it. -/
theorem session_binding_heeded_input :
    let w := Wire.run (Wire.acts Wire.plain [] .input)
    Wire.input.astray w 5 0 = true ∧ 0 ∈ w.host.clock.running := by
  let V : Vigil := ⟨0, 1, 3, fun _ => False⟩
  let acts := Wire.acts Wire.plain [] .input
  have hhost : Wire.host.Minds V.shared := by
    refine ⟨fun u _ _ => ?_, fun _ _ => .pure _, fun _ _ => .pure _⟩
    cases u with
    | input => exact .prim (.read 2)
    | own =>
      refine .bind (.prim (.read 1)) fun x => ?_
      split
      · exact .pure _
      · exact .prim (.read 2)
  have hacts : ∀ act ∈ acts, Tick act ∨ Act.Composed (Sparing V.cell V.tracker) act := by
    simp only [acts, Wire.acts, Wire.plain, List.nil_append, List.cons_append, List.forall_mem_cons,
      List.not_mem_nil, false_imp_iff, implies_true, and_true]
    exact ⟨.inr (.discard (.prim (.new ..))), .inr (.discard (.prim (.new ..))),
      .inr (.discard (.prim (.animate ..))), .inr (.prim (.follow _ trivial)),
      .inr (.prim (.write (by decide) _))⟩
  have hplain : (Wire.tell acts).untold = Wire.run acts := Act.untold_toldSession ..
  have hpresent : V.Present (Wire.tell acts) := ⟨by decide +kernel, by decide +kernel⟩
  have hspared : ∀ m : Moment (Code Wire), V.unread m = true → V.Spared m := fun m =>
    .of_unread (fun _ => not_false) (by decide)
  have hpast : ∀ m ∈ (Wire.tell acts).past, V.unread m = true := by decide +kernel
  have hbinding : ((Wire.tell acts).host.1.transition 0).binding = some Wire.input.binding := by
    have h : Wire.readsInput ((Wire.tell acts).host.1.transition 0).binding = true := by
      decide +kernel
    unfold Wire.readsInput at h
    split at h
    · assumption
    · cases h
  have halerts : (Wire.tell acts).store.Alerts V.tracker (.retarget V.transition) := by
    have h : Wire.alerts (Wire.tell acts).store.observers[0]? = true := by decide +kernel
    unfold Wire.alerts at h
    split at h
    · exact ⟨0, by decide +kernel, _, by assumption, rfl, rfl⟩
    · cases h
  have hfair : V.Fair (Wire.tell acts) :=
    ⟨by decide +kernel, by decide +kernel,
      (hspared ⟨.control, (Wire.tell acts).store⟩ (by decide +kernel)).loose, halerts,
      by decide +kernel, fun m hm => hspared m (hpast m hm)⟩
  have hastray : Wire.input.astray (Wire.run acts) 5 0 = true := by decide +kernel
  refine ⟨hastray, ?_⟩
  simp only [Wire.astray, Bool.and_eq_true] at hastray
  obtain ⟨⟨⟨-, hnew⟩, hold⟩, -⟩ := hastray
  obtain ⟨u, hnew⟩ := Wire.gives_iff hnew
  obtain ⟨u', hold⟩ := Wire.gives_iff hold
  rw [← hplain] at hnew hold ⊢
  rcases session_binding_heeded Wire.host V hhost not_false (by decide) Wire.input.binding
    (.get 2) 5 () false acts hacts (Act.returning_of_allReturn (by decide +kernel)) hpresent
    hbinding (by decide +kernel) hfair _ _ u u' hnew hold with h | h
  · exact absurd h.int (by decide)
  · exact h.1

/-- The binding has changed and no tick will look at it: of a transition that was stopped before
it got the binding, of one whose binding failed at first, and of one that its last step has
changed. -/
theorem deaf_bindings :
    let stopped := Wire.run (Wire.acts Wire.plain [Transition.stop 0] .input ++ [Clock.advance 50])
    let failed := Wire.run (Wire.acts Wire.loop [] .input)
    let late := Wire.run (Wire.acts Wire.plain [] .own ++ [Clock.advance 50, Clock.advance 200])
    (Wire.input.astray stopped 5 0 = true ∧ 0 ∉ stopped.host.clock.running) ∧
      (Wire.input.astray failed 5 0 = true ∧ 0 ∉ failed.host.clock.running) ∧
      Wire.own.astray late 7 5 = true ∧ 0 ∉ late.host.clock.running := by
  decide +kernel

end ReactiveTree
