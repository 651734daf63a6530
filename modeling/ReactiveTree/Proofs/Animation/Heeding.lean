import ReactiveTree.Proofs.Animation.Elsewhere
import ReactiveTree.Proofs.Animation.Running
import ReactiveTree.Proofs.Cell.Answered

/-!
# Bound transitions heed their bindings

A transition that follows a binding heads for the value that the binding gave from what it read
last, and either its tracker is still clean or it has been told (`Vigil.Heeds`). Programs about
something else keep this by `Vigil.Keeps`. Here are those about the transition itself, and ticks.

A step takes the transition out of the clock's list when it needs no more ticks, whatever it was
told meanwhile. That does no harm as long as its own writes do not reach its tracker.
-/

namespace ReactiveTree

open Store

variable {U X : Type}
variable {f : Transition U → Transition U}

/-- Values that comparisons find to be the same, one after another. -/
def Value.Alike : Value → Value → Prop := Relation.EqvGen fun v w => v.same w = true

theorem Value.Alike.refl (v : Value) : v.Alike v := Relation.EqvGen.refl v

/-- What follows a write of `v` to a cell with the value `old`. -/
theorem Value.Alike.written {v old new : Value} (h : new = v ∨ new = old ∧ old.same v = true) :
    v.Alike new := by
  rcases h with rfl | ⟨rfl, hsame⟩
  · exact .refl _
  · exact .symm _ _ (.rel _ _ hsame)

namespace Vigil

/-- The value that the transition heads for, or has. -/
def heading (V : Vigil) (w : Tale (Scene U X) (Code U)) : Value :=
  if (w.host.1.transition V.transition).running then (w.host.1.transition V.transition).target
  else (w.store.cell V.cell).value

/-- The transition heads for what the binding gave from what it has read. -/
def Settled (V : Vigil) (host : Host U X) (code : Code U Value) (w : Tale (Scene U X) (Code U)) :
    Prop :=
  ∃ v, (code.meaning host).Answered (fun c v => (c, v) ∈ w.past.reads V.tracker) v ∧
    v.Alike (V.heading w)

/-- The tracker has read the cells that make `code` answer `v`, and is clean. -/
def Yields (V : Vigil) (host : Host U X) (code : Code U Value) (w : Tale (Scene U X) (Code U))
    (v : Value) : Prop :=
  (code.meaning host).Answered (fun c v => (c, v) ∈ w.past.reads V.tracker) v ∧
    (w.store.cell V.tracker).state = .clean

/-- A transition that follows `code` and is not stopped is settled, and knows when it is no longer
so. -/
def Heeds (V : Vigil) (host : Host U X) (code : Code U Value) (w : Tale (Scene U X) (Code U)) :
    Prop :=
  V.Present w → (w.host.1.transition V.transition).binding = some code →
    (w.host.1.transition V.transition).stopped = false → V.Fair w →
    V.Settled host code w ∧ ((w.store.cell V.tracker).state = .clean ∨ V.Flagged w)

/-- From `w` to `w'` the transition kept its binding. -/
structure Stirs (V : Vigil) (w w' : Tale (Scene U X) (Code U)) : Prop where
  binding : (w'.host.1.transition V.transition).binding = (w.host.1.transition V.transition).binding
  tracker : (w'.host.1.transition V.transition).tracker = (w.host.1.transition V.transition).tracker
  cell : (w'.host.1.transition V.transition).cell = (w.host.1.transition V.transition).cell
  fair : V.Present w → V.Fair w' → V.Fair w

/-- And the binding was not evaluated, and nothing that it had read was changed. -/
structure Moves (V : Vigil) (w w' : Tale (Scene U X) (Code U)) : Prop extends V.Stirs w w' where
  reads : V.Present w → V.Fair w' → w'.past.reads V.tracker = w.past.reads V.tracker
  calm : V.Present w → V.Fair w' → (w.store.cell V.tracker).state = .clean →
    (w'.store.cell V.tracker).state = .clean

variable {V : Vigil} {w w1 w2 w' : SceneTale U X} {host : Host U X} {code : Code U Value}

theorem Stirs.present (h : V.Stirs w w') : V.Present w' ↔ V.Present w := by
  constructor
  · exact fun hp => ⟨h.tracker.symm.trans hp.tracker, h.cell.symm.trans hp.cell⟩
  · exact fun hp => ⟨h.tracker.trans hp.tracker, h.cell.trans hp.cell⟩

theorem Stirs.trans (h : V.Stirs w w1) (h' : V.Stirs w1 w2) : V.Stirs w w2 where
  binding := h'.binding.trans h.binding
  tracker := h'.tracker.trans h.tracker
  cell := h'.cell.trans h.cell
  fair hp hf := h.fair hp (h'.fair (h.present.mpr hp) hf)

theorem Moves.trans (h : V.Moves w w1) (h' : V.Moves w1 w2) : V.Moves w w2 where
  toStirs := h.toStirs.trans h'.toStirs
  reads hp hf := (h'.reads (h.present.mpr hp) hf).trans (h.reads hp (h'.fair (h.present.mpr hp) hf))
  calm hp hf hc := h'.calm (h.present.mpr hp) hf (h.calm hp (h'.fair (h.present.mpr hp) hf) hc)

theorem Carries.proj (h : V.Carries w w') {β : Type} (f : Transition U → β)
    (hf : ∀ x, f (Transition.flag x) = f x) :
    f (w'.host.1.transition V.transition) = f (w.host.1.transition V.transition) := by
  rcases h.nudge with h | h
  · rw [h]
  · rw [h, hf]

theorem Carries.stirs (h : V.Carries w w') : V.Stirs w w' :=
  ⟨h.proj Transition.binding fun _ => rfl, h.proj Transition.tracker fun _ => rfl,
    h.proj Transition.cell fun _ => rfl, h.fair⟩

theorem Passes.moves (h : V.Passes w w') : V.Moves w w' := ⟨h.stirs, h.reads, h.calm⟩

theorem Carries.heading (h : V.Carries w w')
    (hv : (w'.store.cell V.cell).value = (w.store.cell V.cell).value) :
    V.heading w' = V.heading w := by
  unfold Vigil.heading
  rw [h.proj Transition.running fun _ => rfl, h.proj Transition.target fun _ => rfl, hv]

theorem Heeds.kept (h : V.Heeds host code w) (hk : V.Keeps w w') : V.Heeds host code w' := by
  intro hp hb hs hf
  have hpw : V.Present w := hk.stirs.present.mp hp
  have hbw := (hk.proj Transition.binding fun _ => rfl).symm.trans hb
  have hsw := (hk.proj Transition.stopped fun _ => rfl).symm.trans hs
  obtain ⟨⟨v, hv, hheading⟩, hstate⟩ := h hpw hbw hsw (hk.fair hpw hf)
  refine ⟨⟨v, ?_, ?_⟩, ?_⟩
  · rw [hk.reads hpw hf]
    exact hv
  · rw [hk.heading (hk.value hpw hf)]
    exact hheading
  · rcases hstate with hc | hflag
    · exact hk.state hpw hf hc
    · exact .inr (hflag.carried hk.toCarries)

theorem heeds_of_unbound (h : (w.host.1.transition V.transition).binding = none) :
    V.Heeds host code w := fun _ hb => by
  rw [h] at hb
  cases hb

/-- A change of the scene that leaves the transition its binding, and all of them their cells. -/
theorem moves_scene (w : SceneTale U X) {s : Scene U X}
    (hsize : s.transitions.size = w.host.1.transitions.size)
    (hbinding : (s.transition V.transition).binding = (w.host.1.transition V.transition).binding)
    (htracker : (s.transition V.transition).tracker = (w.host.1.transition V.transition).tracker)
    (hcell : ∀ b, (s.transition b).cell = (w.host.1.transition b).cell) :
    V.Moves w (w.beat.withHost s) := by
  refine ⟨⟨hbinding, htracker, hcell _, fun _ hf => ?_⟩, fun _ _ => rfl, fun _ _ hc => hc⟩
  refine ⟨hf.live, hf.shown, hf.loose, hf.alerts, fun b hb hne => ?_,
    fun m hm => hf.past m (List.mem_cons_of_mem _ hm)⟩
  rw [← hcell b]
  exact hf.alone b (Nat.lt_of_lt_of_eq hb hsize.symm) hne

theorem moves_modify (w : SceneTale U X)
    (hbinding : ∀ t, (f t).binding = t.binding) (htracker : ∀ t, (f t).tracker = t.tracker)
    (hcell : ∀ t, (f t).cell = t.cell) :
    V.Moves w (w.beat.withHost (w.host.1.modifyTransition V.transition f)) := by
  have hproj {β : Type} (g : Transition U → β) (hg : ∀ t, g (f t) = g t) (b : TransitionId) :
      g ((w.host.1.modifyTransition V.transition f).transition b) = g (w.host.1.transition b) := by
    rw [Scene.transition_modify]
    split
    · exact hg _
    · rfl
  exact moves_scene w Array.size_modify (hproj _ hbinding _) (hproj _ htracker _) (hproj _ hcell)

theorem moves_enlist (w : SceneTale U X) (a : TransitionId) :
    V.Moves w (w.beat.withHost (w.host.1.enlist a)) := by
  have hget := w.host.1.transition_enlist a
  refine moves_scene w ?_ (by rw [hget]) (by rw [hget]) fun b => by rw [hget]
  unfold Scene.enlist
  split
  · rfl
  · exact Array.size_modify

end Vigil

/-! ## What programs return -/

section

variable {α β : Type}

/-- If the program returns, `P` holds of its result. -/
def Act.Grants (host : Host U X) (depth : Nat) (w : Tale (Scene U X) (Code U)) (act : SceneM U X α)
    (P : α → Tale (Scene U X) (Code U) → Prop) : Prop :=
  ∀ a w', act.tell (Act.toldTo (Code.meaning host) depth) w = .ok a w' → P a w'

variable {host : Host U X} {depth : Nat} {w : SceneTale U X} {P Q : α → SceneTale U X → Prop}

namespace Act.Grants

theorem mono {act : SceneM U X α} (h : act.Grants host depth w P) (hpq : ∀ a w', P a w' → Q a w') :
    act.Grants host depth w Q := fun a w' hr => hpq a w' (h a w' hr)

theorem bind {x : SceneM U X β} {f : β → SceneM U X α}
    (h : x.Grants host depth w fun b u => (f b).Grants host depth u P) :
    (x >>= f).Grants host depth w P := by
  intro a w' hr
  obtain ⟨b, u, hx, hf⟩ := Act.of_tell_bind hr
  exact h b u hx a w' hf

theorem returning {a : α} (h : P a w.beat) : (Act.pure a).Grants host depth w P := by
  intro b w' hr
  cases hr
  exact h

theorem ask {f : Scene U X → β} {k : β → SceneM U X α}
    (h : (k (f w.host.1)).Grants host depth w.beat P) :
    (Act.ask f >>= k).Grants host depth w P := h

theorem view {f : Store (Code U) → β} {k : β → SceneM U X α}
    (h : (k (f w.store)).Grants host depth w.beat P) :
    (Act.view f >>= k).Grants host depth w P := h

theorem change {f : Scene U X → Scene U X} {k : Unit → SceneM U X α}
    (h : (k ()).Grants host depth (w.beat.withHost (f w.host.1)) P) :
    (Act.change f >>= k).Grants host depth w P := h

theorem modify {a : TransitionId} {k : Unit → SceneM U X α}
    (h : (k ()).Grants host depth (w.beat.withHost (w.host.1.modifyTransition a f)) P) :
    (Transition.modify a f >>= k).Grants host depth w P := h

theorem schedule {a : TransitionId} {P : Unit → SceneTale U X → Prop}
    (h : P () (w.beat.withHost (w.host.1.enlist a))) :
    (Transition.schedule a).Grants host depth w P := by
  intro b w' hr
  cases hr
  exact h

end Act.Grants

end

theorem Told.of_trackWork {S : Type} {K : Type → Type} {α : Type} {body : Told S K α} {t : CellId}
    {w w' : Tale S K} {r : Evaluation α} (h : Told.trackWork t body w = .ok r w') :
    r = .skipped ∧ (w.store.cell t).dropped = true ∧ w' = w ∨
      (w.store.cell t).dropped = false ∧ (w.store.cell t).state ≠ .evaluating ∧
        ((∃ a u, body (Told.entering t w) = .ok a u ∧ r = .done a ∧ w' = Told.leaving t true u) ∨
          ∃ e u, body (Told.entering t w) = .error (.cycle e) u ∧ r = .failed e ∧
            w' = Told.leaving t false u) := by
  have h : (if (w.store.cell t).dropped = true then pure .skipped
    else if (w.store.cell t).state = .evaluating then (do
      Told.note (.refused t)
      throw (.cycle (← Run.view fun s => s.cycleError t)))
    else Told.evaluate t body >>= _ : Told S K (Evaluation α)) w = .ok r w' := h
  split at h
  · cases h
    exact .inl ⟨rfl, ‹_›, rfl⟩
  rename_i hd
  split at h
  · cases h
  rename_i hst
  refine .inr ⟨by simpa using hd, hst, ?_⟩
  obtain ⟨x, u', heval, h⟩ := Run.of_bind h
  cases hrun : body (Told.entering t w) with
  | ok a u =>
    rw [Told.evaluate_of_ok hrun] at heval
    cases heval
    cases h
    exact .inl ⟨a, u, rfl, rfl, rfl⟩
  | error stop u =>
    rcases Told.evaluate_of_error hrun with ⟨e, rfl, -, heq⟩ | ⟨-, heq⟩
    · rw [heq] at heval
      cases heval
      cases h
      exact .inr ⟨e, u, rfl, rfl, rfl⟩
    · rw [heq] at heval
      cases heval

/-! ## Programs about the transition -/

section

variable {V : Vigil} {α : Type} {w w' : SceneTale U X} {host : Host U X} {depth : Nat}

/-- Another transition in its place. -/
def Vigil.next (V : Vigil) : Vigil := { V with transition := V.transition + 1 }

theorem Vigil.next_ne (V : Vigil) : V.transition ≠ V.next.transition := (Nat.succ_ne_self _).symm

theorem Vigil.Present.modified (h : V.Present w) :
    (w.host.1.modifyTransition V.transition f).transition V.transition =
      f (w.host.1.transition V.transition) := by
  rw [Scene.transition_modify, if_pos ⟨rfl, h.lt⟩]

theorem Upright.modify (h : Upright w) (a : TransitionId)
    (hf : Transition.Mild f) : Upright (w.beat.withHost (w.host.1.modifyTransition a f)) :=
  ⟨h.sane, h.outside, h.tended, h.bonded.modify hf a⟩

variable (hhost : host.Minds V.shared) (hx : ¬V.shared V.cell)
include hhost hx

theorem Upright.setOwn (hw : Upright w) {c : CellId}
    (hc : c = (w.host.1.transition V.transition).cell) {v : Value}
    (h : (Act.set c v).tell (host.told depth) w = .ok () w') :
      Upright w' ∧ V.Moves w w' ∧ V.Carries w w' ∧
        (V.Present w → V.Fair w' → v.Alike (w'.store.cell V.cell).value) := by
  obtain ⟨hw', hcarries, hvalue⟩ := hw.set hhost hx h
  have hown : V.Present w → c = V.cell := fun hp => hc.trans hp.cell
  refine ⟨hw', ⟨hcarries.stirs, hcarries.reads, fun hp hf => ((hvalue hp hf).2 (hown hp)).2⟩,
    hcarries, fun hp hf => .written ((hvalue hp hf).2 (hown hp)).1⟩

theorem Upright.animateTo (hw : Upright w) (hclock : V.cell ≠ 0) (v : Value) :
    (Transition.animateTo V.transition v).Grants host depth w fun _ w' =>
      Upright w' ∧ V.Moves w w' ∧ (V.Present w → V.Fair w' → v.Alike (V.heading w')) := by
  suffices h : (Transition.animateTo V.transition v).Grants host depth w fun _ w' =>
      V.Moves w w' ∧ (V.Present w → V.Fair w' → v.Alike (V.heading w')) from fun a w' hr =>
    ⟨(Vigil.Keeping.animateTo (V := V.next) hhost hx hclock hw V.next_ne v a w' hr).1, h a w' hr⟩
  have hnote : V.Moves w w.beat.beat :=
    ((Vigil.Passes.noting w).trans (Vigil.Passes.noting _)).moves
  refine .ask (.view ?_)
  split
  · rename_i hd
    have hd : (w.store.cell (w.host.1.transition V.transition).cell).dropped = true := hd
    refine .returning ⟨hnote.trans (Vigil.Passes.noting _).moves, fun hp hf => ?_⟩
    have hshown : (w.store.cell V.cell).dropped = false := hf.shown
    rw [hp.cell, hshown] at hd
    cases hd
  refine .modify ?_
  set w1 := (World.beat w.beat.beat).withHost
    (w.host.1.modifyTransition V.transition fun t => { t with stopped := false }) with hw1def
  have hw1 : Upright w1 :=
    hw.noting.noting.modify V.transition (.kept fun _ => ⟨rfl, rfl, rfl⟩)
  have hm1 :
      V.Moves w w1 := hnote.trans (Vigil.moves_modify _ (fun _ => rfl) (fun _ => rfl) fun _ => rfl)
  refine .bind fun current w2 hpeek => ?_
  obtain ⟨hw2, hp2, hcurrent⟩ := hw1.peek hhost hx hpeek
  have hm2 : V.Moves w w2 := hm1.trans hp2.moves
  refine .ask ?_
  dsimp only [id]
  generalize hthere : (if (w2.host.1.transition V.transition).running = true
    then (w2.host.1.transition V.transition).target.same v else current.same v) = there
  cases there with
  | true =>
    refine .returning ⟨(hm2.trans (Vigil.Passes.noting _).moves).trans
      (Vigil.Passes.noting _).moves, fun hp hf => ?_⟩
    have hf2 : V.Fair w2 := ((Vigil.Passes.noting w2).trans (Vigil.Passes.noting _)).fair
      (hm2.present.mpr hp) hf
    have hloose := (hp2.fair (hm1.present.mpr hp) hf2).loose
    have hcell := (hcurrent hloose ((hm1.cell.symm.trans rfl).trans ?_)).1
    · show v.Alike (V.heading w2)
      unfold Vigil.heading
      split
      · rename_i hrunning
        rw [if_pos hrunning] at hthere
        exact .symm _ _ (.rel _ _ hthere)
      · rename_i hidle
        rw [if_neg hidle, hcell] at hthere
        exact .symm _ _ (.rel _ _ hthere)
    · exact (hm1.present.mpr hp).cell
  | false =>
    rw [if_neg Bool.false_ne_true]
    split
    · refine .modify fun _ w' hset => ?_
      set w3 := (World.beat w2.beat).withHost
        (w2.host.1.modifyTransition V.transition fun t => { t with running := false, target := v })
      have hw3 : Upright w3 :=
        hw2.noting.modify V.transition (.kept fun _ => ⟨rfl, rfl, rfl⟩)
      have hm3 : V.Moves w w3 := (hm2.trans (Vigil.Passes.noting w2).moves).trans
        (Vigil.moves_modify _ (fun _ => rfl) (fun _ => rfl) fun _ => rfl)
      obtain ⟨-, hm, hcarries, hvalue⟩ := hw3.setOwn hhost hx hm3.cell.symm hset
      refine ⟨hm3.trans hm, fun hp hf => ?_⟩
      have hidle : (w'.host.1.transition V.transition).running = false := by
        rw [hcarries.proj Transition.running fun _ => rfl]
        exact congrArg Transition.running (hm2.present.mpr hp).modified
      unfold Vigil.heading
      rw [hidle]
      exact hvalue (hm3.present.mpr hp) hf
    · refine .modify (.ask (.bind fun time w4 hpeek => .modify (.schedule ?_)))
      set w3 := (World.beat w2.beat).withHost
        (w2.host.1.modifyTransition V.transition fun t => { t with source := current, target := v })
      have hw3 : Upright w3 :=
        hw2.noting.modify V.transition (.kept fun _ => ⟨rfl, rfl, rfl⟩)
      have hm3 : V.Moves w w3 := (hm2.trans (Vigil.Passes.noting w2).moves).trans
        (Vigil.moves_modify _ (fun _ => rfl) (fun _ => rfl) fun _ => rfl)
      obtain ⟨-, hp4, -⟩ := hw3.noting.peek hhost hx hpeek
      have hm4 : V.Moves w w4 := (hm3.trans (Vigil.Passes.noting _).moves).trans hp4.moves
      set w5 := w4.beat.withHost (w4.host.1.modifyTransition V.transition fun t =>
        { t with started := time.asDuration, running := true })
      have hm5 : V.Moves w w5 :=
        hm4.trans (Vigil.moves_modify _ (fun _ => rfl) (fun _ => rfl) fun _ => rfl)
      refine ⟨hm5.trans (Vigil.moves_enlist w5 V.transition), fun hp _ => ?_⟩
      have hmodified : w5.host.1.transition V.transition = _ := (hm4.present.mpr hp).modified
      have htarget : (w4.host.1.transition V.transition).target = v := by
        rw [hp4.proj Transition.target fun _ => rfl]
        exact congrArg Transition.target (hm2.present.mpr hp).modified
      have hheading : V.heading (w5.beat.withHost (w5.host.1.enlist V.transition)) = v := by
        show (if ((w5.host.1.enlist V.transition).transition V.transition).running = true
          then ((w5.host.1.enlist V.transition).transition V.transition).target else _) = v
        rw [Scene.transition_enlist, hmodified]
        exact htarget
      exact hheading ▸ .refl v

/-! ## Evaluating the binding -/

theorem trackWork_done (hw : Upright w) (ht : w.store.IsTracker V.tracker) {code : Code U Value}
    (hcode : code.Minds) (hreading : (code.meaning host).Reading) (hf : V.Fair w')
    {r : Evaluation Value} (h : Told.trackWork V.tracker ((Act.perform code).tell (host.told depth))
      w.beat = .ok r w') : ∃ v, r = .done v ∧ V.Yields host code w' v := by
  set t := V.tracker
  rcases Told.of_trackWork h with ⟨-, hd, rfl⟩ | ⟨hd, hst, hresult⟩
  · have hlive : (w.store.cell t).dropped = false := hf.live
    have hd : (w.store.cell t).dropped = true := hd
    rw [hlive] at hd
    cases hd
  have hbegin : Step ⟨w.store, ⟨.control, w.store⟩ :: w.past, none⟩
      ⟨w.store.enter t, ⟨.began t, w.store⟩ :: ⟨.control, w.store⟩ :: w.past, none⟩ :=
    .beginWork ht hd hst
  set wₑ := Told.entering t w.beat
  have hsₑ : wₑ.store.Sane := hbegin.sane hw.sane
  rcases hresult with ⟨v, u, hrun, rfl, rfl⟩ | ⟨e, u, -, -, rfl⟩
  · refine ⟨v, rfl, ?_, ?_⟩
    · cases depth with
      | zero => cases hrun
      | succ depth =>
        have hreader : wₑ.beat.store.reader = some t :=
          reader_eq_some.mpr ⟨_, stack_enter w.store t⟩
        have hanswered := hreading.answered (w := wₑ.beat)
          (Act.toldTo_flows (Code.meaning host) depth) hsₑ hreader hrun
        exact hanswered
    · have hreach := Act.tell_begins (Act.toldTo_flows (Code.meaning host) depth)
        (.perform code) wₑ hsₑ
      rw [hrun] at hreach
      obtain ⟨hpath, -⟩ := hreach
      have hholds : (minding V.shared (fun _ => False) V.cell).holds false wₑ :=
        ⟨hw.tended.akin (akin_enter ..), hsₑ.trackers, nofun⟩
      have hgoes := Regime.Runs.perform (toldTo_minding hhost hx depth) hholds fun _ => hcode
      obtain ⟨_, ⟨rfl, hm⟩, -⟩ := Regime.Goes.of_ok hgoes hrun
      have htₑ : wₑ.store.IsTracker t := ht.kept (akin_enter ..).kept
      have hlive : (u.store.cell t).dropped = false :=
        ((u.store.akin_leave t true).dropped t).symm.trans hf.live
      obtain ⟨new, hnew⟩ := Path.past_suffix hpath.path
      have hnew : new ++ ⟨.control, wₑ.store⟩ :: wₑ.past = u.past := hnew
      obtain ⟨all, hall, hevents⟩ := hm.past
      have hsub : all = new ++ [⟨.control, wₑ.store⟩] := by
        apply (List.append_left_inj wₑ.past).mp
        rw [← hall, ← hnew, List.append_assoc, List.singleton_append]
      have hstill := hpath.still hsₑ htₑ (fun hmem => mem_consumers.mp hmem) hlive
        (fun m hm => by cases hm; exact ⟨nofun, nofun⟩) hnew.symm fun m hm => by
          have hmem : m ∈ u.past := by
            rw [← hnew]
            exact List.mem_append_left _ hm
          obtain ⟨hkept, hwrote, hbegan⟩ :=
            hevents m (by rw [hsub]; exact List.mem_append_left _ hm)
          refine hf.spares (List.mem_cons_of_mem _ hmem) (fun hb => ?_) hwrote
          have htracker := (htₑ.kept hkept).2
          rcases hbegan _ hb with hb | hb
          · exact hb
          · rw [htracker] at hb
            cases hb
      have hquiet : (u.store.cell t).disturbed = false := by
        refine hstill.disturbed.trans ?_
        show ((w.store.enter t).cell t).disturbed = false
        rw [cell_enter _ ht.1, if_pos rfl]
      show ((u.store.leave t true).cell t).state = .clean
      rw [cell_leave ((htₑ.kept hm.kept).1), if_pos rfl, hquiet]
      rfl
  · -- the failure is on record
    exact absurd rfl (hf.past ⟨.ended t false, u.store.leave t false⟩ List.mem_cons_self).ended

/-- Work under the tracker that completes leaves it clean, and its result follows from what it
has read. -/
theorem Upright.trackOwn (hw : Upright w) {code : Code U Value} (hcode : code.Minds) :
    (Act.track V.tracker (.perform code)).Grants host depth w fun r w' =>
      Upright w' ∧ V.Stirs w w' ∧ ((code.meaning host).Reading → V.Fair w' →
        ∃ v, r = .done v ∧ V.Yields host code w' v) := by
  intro r w' h
  obtain ⟨-, -, -, hcontrol⟩ := hw.ran h
  obtain ⟨hw', -, hm⟩ := hw.program (V := { V with tracker := V.tracker + 1 }) hhost hx
    (· = V.tracker) (fun _ => Nat.succ_ne_self _)
    (fun hN own hown => .track hown (fun _ => trivial) (.inl rfl) (fun _ _ hw' =>
      (Regime.Runs.perform hN hw' fun _ => hcode).keeps)
      Regime.stable_true) h
  have hproj {β : Type} (f : Transition U → β) (hf : ∀ x, f (Transition.flag x) = f x) :=
    hm.scene.proj f hf V.transition
  refine ⟨hw', ⟨hproj _ fun _ => rfl, hproj _ fun _ => rfl, hproj _ fun _ => rfl,
    fun _ hf => hf.before hm hcontrol⟩, fun hreading hf => ?_⟩
  obtain ⟨ht, h⟩ := Run.of_onTracker h
  exact trackWork_done hhost hx hw ht hcode hreading hf h

theorem Upright.evaluateBinding (hw : Upright w) :
    (Transition.evaluateBinding V.transition).Grants host depth w fun r w' =>
      Upright w' ∧ V.Stirs w w' ∧
        ∀ code, (w.host.1.transition V.transition).binding = some code →
          (code.meaning host).Reading → V.Present w → V.Fair w' →
            ∃ v, r = some v ∧ V.Yields host code w' v := by
  have hnote : V.Stirs w w.beat := (Vigil.Passes.noting w).stirs
  refine .ask ?_
  dsimp only [id]
  cases hbinding : (w.host.1.transition V.transition).binding with
  | none =>
    exact .returning ⟨hw.noting.noting, hnote.trans (Vigil.Passes.noting _).stirs, nofun⟩
  | some code =>
    cases htracker : (w.host.1.transition V.transition).tracker with
    | none =>
      refine .returning ⟨hw.noting.noting, hnote.trans (Vigil.Passes.noting _).stirs,
        fun _ _ _ hp => ?_⟩
      rw [hp.tracker] at htracker
      cases htracker
    | some t =>
      have hcode := hw.bonded.binding _ code hbinding
      -- what the work under the tracker gives
      have htrack : (Act.track t (.perform code)).Grants host depth w.beat fun r w' =>
          Upright w' ∧ V.Stirs w w' ∧ (V.Present w → (code.meaning host).Reading → V.Fair w' →
            ∃ v, r = .done v ∧ V.Yields host code w' v) := by
        by_cases ht : t = V.tracker
        · subst ht
          refine (hw.noting.trackOwn hhost hx hcode).mono fun r w' h => ?_
          exact ⟨h.1, hnote.trans h.2.1, fun _ => h.2.2⟩
        · intro r w' h
          obtain ⟨hw', hk⟩ := Vigil.Keeping.track hhost hx hw.noting (fun _ => ht) hcode r w' h
          refine ⟨hw', hnote.trans hk.stirs, fun hp => ?_⟩
          rw [hp.tracker] at htracker
          exact absurd (Option.some.inj htracker).symm ht
      refine .bind (htrack.mono fun r u hu => ?_)
      obtain ⟨hup, hstirs, hdone⟩ := hu
      have hnoted : V.Stirs w u.beat := hstirs.trans (Vigil.Passes.noting u).stirs
      cases r with
      | done v =>
        refine .returning ⟨hup.noting, hnoted, fun code' hcode' hreading hp hf => ?_⟩
        cases hcode'
        obtain ⟨v', hv', hanswered, hclean⟩ :=
          hdone hp hreading ((Vigil.Passes.noting u).fair (hstirs.present.mpr hp) hf)
        cases hv'
        exact ⟨v, rfl, hanswered, hclean⟩
      | skipped =>
        refine .returning ⟨hup.noting, hnoted, fun code' hcode' hreading hp hf => ?_⟩
        cases hcode'
        obtain ⟨_, hv, -⟩ := hdone hp hreading
          ((Vigil.Passes.noting u).fair (hstirs.present.mpr hp) hf)
        cases hv
      | failed e =>
        refine .view (.bind fun _ u1 hlog => ?_)
        obtain ⟨hu1, hk1⟩ := Vigil.Keeping.record hup.noting _ _ _ hlog
        have hall := (hnoted.trans hk1.stirs).trans (Vigil.Passes.noting u1).stirs
        refine .returning ⟨hu1.noting, hall, fun code' hcode' hreading hp hf => ?_⟩
        cases hcode'
        have hf1 := (Vigil.Passes.noting u1).fair ((hnoted.trans hk1.stirs).present.mpr hp) hf
        have hf2 := hk1.fair (hnoted.present.mpr hp) hf1
        obtain ⟨_, hv, -⟩ := hdone hp hreading
          ((Vigil.Passes.noting u).fair (hstirs.present.mpr hp) hf2)
        cases hv

/-! ## Starting, binding and stopping it -/

omit hhost hx in
theorem Upright.clearBinding (hw : Upright w) :
    (Transition.clearBinding V.transition).Grants host depth w fun _ w' =>
      Upright w' ∧ (w'.host.1.transition V.transition).binding = none := by
  have hclear : ∀ {u : SceneTale U X}, (Transition.modify V.transition fun t =>
      { t with tracker := none, binding := none, bindingChanged := false }).Grants host depth u
        fun _ w' => (w'.host.1.transition V.transition).binding = none := by
    intro u _ w' h
    cases h
    rw [Scene.transition_modify]
    split
    · rfl
    · rename_i hge
      rw [Scene.transition, getD_of_size_le (not_lt.1 fun h => hge ⟨rfl, h⟩)]
      rfl
  suffices h : (Transition.clearBinding V.transition).Grants host depth w fun _ w' =>
      (w'.host.1.transition V.transition).binding = none from fun a w' hr =>
    ⟨(Vigil.Keeping.clearBinding hw V.next_ne a w' hr).1, h a w' hr⟩
  refine .ask ?_
  extract_lets finish
  dsimp only
  cases (w.host.1.transition V.transition).tracker with
  | none => exact hclear
  | some t => exact .bind fun _ _ _ => hclear

theorem Upright.setOwnTransition (hw : Upright w) (hclock : V.cell ≠ 0) (v : Value) :
    (Transition.set V.transition v).Grants host depth w fun _ w' =>
      Upright w' ∧ (w'.host.1.transition V.transition).binding = none := by
  refine .ask ?_
  split
  · refine .bind (hw.noting.clearBinding.mono fun _ u hu => ?_)
    exact (hu.1.animateTo hhost hx hclock v).mono fun _ w' h => ⟨h.1, h.2.1.binding.trans hu.2⟩
  · rename_i hb
    have hnone : (w.host.1.transition V.transition).binding = none := by simpa using hb
    exact (hw.noting.animateTo hhost hx hclock v).mono fun _ w' h =>
      ⟨h.1, h.2.1.binding.trans hnone⟩

omit hhost hx in
theorem Upright.stopOwn (hw : Upright w) :
    (Transition.stop V.transition).Grants host depth w fun _ w' =>
      Upright w' ∧ (w'.host.1.transition V.transition).binding = none := by
  refine .bind (hw.clearBinding.mono fun _ u hu _ w' h => ?_)
  cases h
  refine ⟨hu.1.modify V.transition (.kept fun _ => ⟨rfl, rfl, rfl⟩), ?_⟩
  rw [Scene.transition_modify]
  split
  · exact hu.2
  · exact hu.2

/-- The transition is settled and its tracker is clean. -/
def Vigil.Rests (V : Vigil) (host : Host U X) (code : Code U Value)
    (w : Tale (Scene U X) (Code U)) : Prop :=
  V.Present w → (w.host.1.transition V.transition).binding = some code → V.Fair w →
    V.Settled host code w ∧ (w.store.cell V.tracker).state = .clean

variable {code : Code U Value}

omit hhost hx in
theorem Vigil.Rests.heeds (h : V.Rests host code w) : V.Heeds host code w :=
  fun hp hb _ hf => ⟨(h hp hb hf).1, .inl (h hp hb hf).2⟩

omit hhost hx in
theorem Vigil.Rests.moved (h : V.Rests host code w) (hm : V.Moves w w')
    (hheading : V.Present w → V.Fair w' → (V.heading w).Alike (V.heading w')) :
    V.Rests host code w' := by
  intro hp hb hf
  have hpw := hm.present.mp hp
  obtain ⟨⟨v, hv, halike⟩, hclean⟩ := h hpw (hm.binding.symm.trans hb) (hm.fair hpw hf)
  refine ⟨⟨v, ?_, halike.trans _ _ _ (hheading hpw hf)⟩, hm.calm hpw hf hclean⟩
  rw [hm.reads hpw hf]
  exact hv

omit hhost hx in
theorem Vigil.Rests.noting (h : V.Rests host code w) : V.Rests host code w.beat :=
  h.moved (Vigil.Passes.noting w).moves fun _ _ => .refl _

theorem Upright.followOwn (hw : Upright w) {code' : Code U Value} (hcode : code'.Minds)
    (hreading : (code.meaning host).Reading) :
    (Transition.setBinding V.transition code').Grants host depth w fun _ w' =>
      Upright w' ∧ V.Rests host code w' := by
  refine .bind (hw.clearBinding.mono fun _ w1 hw1 => ?_)
  refine .ask (.view (.bind fun t w2 hnew => .modify ?_))
  have hn := hw1.1.noting.noting
  have hw2 : Upright w2 := (Vigil.Keeping.newTracker hn _ (by trivial)
    (fun h => V.next_ne (Code.retarget.inj h)) t w2 hnew).1
  obtain ⟨hbonded, -, hhost2⟩ := hn.bound hcode hw2 hnew
  set w3 := w2.beat.withHost (w2.host.1.modifyTransition V.transition fun x =>
    { x with binding := some code', tracker := some t }) with hw3def
  have hw3 : Upright w3 := ⟨hw2.sane, hw2.outside, hw2.tended, hbonded⟩
  have hcell3 :
      (w1.host.1.transition V.transition).cell = (w3.host.1.transition V.transition).cell := by
    show _ = ((w2.host.1.modifyTransition V.transition _).transition V.transition).cell
    rw [Scene.transition_modify, hhost2]
    split <;> rfl
  -- the transition has the binding that it was given
  refine .bind ((hw3.evaluateBinding hhost hx).mono fun r w4 h4 => ?_)
  obtain ⟨hw4, hstirs, hdone⟩ := h4
  have hresult : V.Present w4 → (w4.host.1.transition V.transition).binding = some code →
      V.Fair w4 → ∃ v, r = some v ∧ V.Yields host code w4 v := by
    intro hp hb hf
    exact hdone code (hstirs.binding.symm.trans hb) hreading (hstirs.present.mp hp) hf
  cases r with
  | none =>
    have hrests : V.Rests host code w4 := fun hp hb hf => by
      obtain ⟨v, hv, -⟩ := hresult hp hb hf
      cases hv
    exact .returning ⟨hw4.noting, hrests.noting⟩
  | some v =>
    refine .modify fun _ w' hset => ?_
    set w5 := w4.beat.withHost (w4.host.1.modifyTransition V.transition fun x =>
      { x with running := false, target := v })
    have hw5 : Upright w5 :=
      hw4.modify V.transition (.kept fun _ => ⟨rfl, rfl, rfl⟩)
    have hm5 : V.Moves w4 w5 := Vigil.moves_modify w4 (fun _ => rfl) (fun _ => rfl) fun _ => rfl
    have hcell5 := hcell3.trans (hstirs.cell.symm.trans hm5.cell.symm)
    obtain ⟨hw', hm, hcarries, hvalue⟩ := hw5.setOwn hhost hx hcell5 hset
    refine ⟨hw', fun hp hb hf => ?_⟩
    have hall := hm5.trans hm
    have hp4 := hall.present.mp hp
    obtain ⟨v', hv', hanswered, hclean⟩ :=
      hresult hp4 (hall.binding.symm.trans hb) (hall.fair hp4 hf)
    cases hv'
    refine ⟨⟨v, ?_, ?_⟩, hall.calm hp4 hf hclean⟩
    · rw [hall.reads hp4 hf]
      exact hanswered
    · have hidle : (w'.host.1.transition V.transition).running = false := by
        rw [hcarries.proj Transition.running fun _ => rfl]
        exact congrArg Transition.running hp4.modified
      unfold Vigil.heading
      rw [hidle]
      exact hvalue (hm5.present.mpr hp4) hf

/-! ## Its steps -/

theorem Upright.stepOwn (hw : Upright w) (hclock : V.cell ≠ 0)
    (hreading : (code.meaning host).Reading) (hheeds : V.Heeds host code w)
    (halive : (w.host.1.transition V.transition).stopped = false) (now : Int64) :
    (Transition.step V.transition now).Grants host depth w fun _ w' =>
      Upright w' ∧ V.Rests host code w' := by
  refine .ask ?_
  extract_lets move
  have hmove : ∀ {u : SceneTale U X}, Upright u → V.Rests host code u →
      (move ()).Grants host depth u fun _ w' => Upright w' ∧ V.Rests host code w' := by
    intro u hu hrests
    refine .ask ?_
    dsimp only [id]
    split
    · exact .returning ⟨hu.noting.noting, hrests.noting.noting⟩
    rename_i hrunning
    have hrunning : (u.host.1.transition V.transition).running = true := by simpa using hrunning
    split
    · exact .returning ⟨hu.noting.noting, hrests.noting.noting⟩
    split
    · refine .modify (.bind fun _ w' hset => ?_)
      set u1 := (World.beat u.beat).withHost
        (u.host.1.modifyTransition V.transition fun x => { x with running := false })
      have hu1 : Upright u1 :=
        hu.noting.modify V.transition (.kept fun _ => ⟨rfl, rfl, rfl⟩)
      have hm1 : V.Moves u u1 := (Vigil.Passes.noting u).moves.trans
        (Vigil.moves_modify _ (fun _ => rfl) (fun _ => rfl) fun _ => rfl)
      obtain ⟨hw', hm, hcarries, hvalue⟩ := hu1.setOwn hhost hx hm1.cell.symm hset
      refine .returning ⟨hw'.noting, (hrests.moved (hm1.trans hm) fun hp hf => ?_).noting⟩
      have hidle : (w'.host.1.transition V.transition).running = false := by
        rw [hcarries.proj Transition.running fun _ => rfl]
        exact congrArg Transition.running hp.modified
      have hbefore : V.heading u = (u.host.1.transition V.transition).target := if_pos hrunning
      rw [hbefore]
      unfold Vigil.heading
      rw [hidle]
      exact hvalue (hm1.present.mpr hp) hf
    · refine .bind fun _ w' hset => ?_
      obtain ⟨hw', hm, hcarries, -⟩ := hu.noting.setOwn hhost hx rfl hset
      have hrunning' : (w'.host.1.transition V.transition).running = true :=
        (hcarries.proj Transition.running fun _ => rfl).trans hrunning
      refine .returning ⟨hw'.noting,
        (hrests.moved ((Vigil.Passes.noting u).moves.trans hm) fun _ _ => ?_).noting⟩
      have hbefore : V.heading u = (u.host.1.transition V.transition).target := if_pos hrunning
      have hafter : V.heading w' = (w'.host.1.transition V.transition).target := if_pos hrunning'
      rw [hbefore, hafter, hcarries.proj Transition.target fun _ => rfl]
      exact .refl _
  dsimp only
  split
  · refine .modify (.bind fun r w2 heval => ?_)
    set w1 := (World.beat w.beat).withHost
      (w.host.1.modifyTransition V.transition fun x => { x with bindingChanged := false })
    have hw1 : Upright w1 :=
      hw.noting.modify V.transition (.kept fun _ => ⟨rfl, rfl, rfl⟩)
    obtain ⟨hw2, hstirs, hdone⟩ := hw1.evaluateBinding hhost hx r w2 heval
    have hresult : V.Present w2 → (w2.host.1.transition V.transition).binding = some code →
        V.Fair w2 → ∃ v, r = some v ∧ V.Yields host code w2 v := by
      intro hp hb hf
      exact hdone code (hstirs.binding.symm.trans hb) hreading (hstirs.present.mp hp) hf
    cases r with
    | none =>
      refine hmove hw2 fun hp hb hf => ?_
      obtain ⟨v, hv, -⟩ := hresult hp hb hf
      cases hv
    | some v =>
      refine .bind ((hw2.animateTo hhost hx hclock v).mono fun _ w3 h3 => hmove h3.1 ?_)
      obtain ⟨-, hm, hheading⟩ := h3
      intro hp hb hf
      have hp2 := hm.present.mp hp
      obtain ⟨v', hv', hanswered, hclean⟩ :=
        hresult hp2 (hm.binding.symm.trans hb) (hm.fair hp2 hf)
      cases hv'
      refine ⟨⟨v, ?_, hheading hp2 hf⟩, hm.calm hp2 hf hclean⟩
      rw [hm.reads hp2 hf]
      exact hanswered
  · rename_i hquiet
    refine hmove hw.noting (Vigil.Rests.noting fun hp hb hf => ?_)
    obtain ⟨hsettled, hclean | hflag⟩ := hheeds hp hb halive hf
    · exact ⟨hsettled, hclean⟩
    · rw [hflag.1, hp.tracker] at hquiet
      exact absurd rfl hquiet

end

end ReactiveTree
