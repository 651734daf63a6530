import ReactiveTree.Proofs.Animation.Minding

/-!
# What others do to a bound transition

A transition with a binding relies on three things: its tracker is marked when something that the
binding has read changes, the tracker's observer then runs, and the transition gets into the
clock's list. This file follows one transition through runs that are not its own. As long as the
run is fair to it (`Vigil.Fair`), nobody changes its cell, and a tracker that was clean is either
still clean or the transition was told (`Vigil.Passes`).
-/

namespace ReactiveTree

open Store

variable {U X : Type}

/-- An observer that is not stopped runs `code` when `c` is marked. -/
def Store.Alerts {K : Type → Type} (s : Store K) (c : CellId) (code : K Unit) : Prop :=
  ∃ o ∈ (s.cell c).observers, ∃ x, s.observers[o]? = some x ∧ x.code = code ∧ x.stopped = false

/-- What is watched: a transition, its cell, the tracker of its binding, and the cells that code of
bindings and observers may write. -/
structure Vigil where
  transition : TransitionId
  cell : CellId
  tracker : CellId
  shared : CellId → Prop

namespace Vigil

/-- At this moment the work under the tracker did not fail, the cell was on its own, and neither
the cell nor what code writes was read for the binding. -/
structure Spared (V : Vigil) {K : Type → Type} (m : Moment K) : Prop where
  ended : m.event ≠ .ended V.tracker false
  loose : m.store.Loose V.cell
  far : ∀ c, V.shared c ∨ c = V.cell →
    ¬m.store.Upstream c V.tracker ∧ ¬m.store.Upstream (m.store.linkRoot c) V.tracker

/-- All that has happened was fair to the transition: its cell and its tracker live and were left to
it, and the tracker's observer is in place. -/
structure Fair (V : Vigil) (w : Tale (Scene U X) (Code U)) : Prop where
  live : (w.store.cell V.tracker).dropped = false
  shown : (w.store.cell V.cell).dropped = false
  loose : w.store.Loose V.cell
  alerts : w.store.Alerts V.tracker (.retarget V.transition)
  alone : ∀ b < w.host.1.transitions.size, b ≠ V.transition → (w.host.1.transition b).cell ≠ V.cell
  past : ∀ m ∈ w.past, V.Spared m

/-- The transition has this cell, and its binding has this tracker. -/
structure Present (V : Vigil) (w : Tale (Scene U X) (Code U)) : Prop where
  tracker : (w.host.1.transition V.transition).tracker = some V.tracker
  cell : (w.host.1.transition V.transition).cell = V.cell

/-- The transition has been told that its binding has changed. -/
def Flagged (V : Vigil) (w : Tale (Scene U X) (Code U)) : Prop :=
  (w.host.1.transition V.transition).bindingChanged = true ∧
    (w.host.1.transition V.transition).queued = true

end Vigil

/-- The transitions of a scene: each has a cell, and the binding of each has a tracker of its
own. -/
structure Scene.Bonded (store : Store (Code U)) (s : Scene U X) : Prop where
  binding : ∀ b code, (s.transition b).binding = some code → code.Minds
  tracker : ∀ b t, (s.transition b).tracker = some t → store.IsTracker t
  apart : ∀ b b' t, (s.transition b).tracker = some t → (s.transition b').tracker = some t → b = b'
  cell : ∀ b < s.transitions.size, store.IsProperty (s.transition b).cell
  clock : s.clock.cell = 0

/-- Between two programs of a session, or in one of them where nothing is being evaluated. -/
structure Upright (w : Tale (Scene U X) (Code U)) : Prop where
  sane : w.store.Sane
  outside : w.store.consumers = []
  tended : Tended Code.Minds w.store
  bonded : w.host.1.Bonded w.store

/-- From `w` to `w'` the transition may have been told that its binding has changed. In a fair run
that is the only way in which its tracker stops being clean. -/
structure Vigil.Carries (V : Vigil) (w w' : Tale (Scene U X) (Code U)) : Prop where
  kept : Kept w.store w'.store
  size : w.host.1.transitions.size ≤ w'.host.1.transitions.size
  nudge : w'.host.1.transition V.transition = w.host.1.transition V.transition ∨
    w'.host.1.transition V.transition = (w.host.1.transition V.transition).flag
  fair : V.Present w → V.Fair w' → V.Fair w
  reads : V.Present w → V.Fair w' → w'.past.reads V.tracker = w.past.reads V.tracker
  state : V.Present w → V.Fair w' → (w.store.cell V.tracker).state = .clean →
    (w'.store.cell V.tracker).state = .clean ∨ V.Flagged w'

/-- The cell has kept its value as well. -/
structure Vigil.Keeps (V : Vigil) (w w' : Tale (Scene U X) (Code U)) : Prop extends
    V.Carries w w' where
  value : V.Present w → V.Fair w' → (w'.store.cell V.cell).value = (w.store.cell V.cell).value

/-- And the tracker was not marked at all. -/
structure Vigil.Passes (V : Vigil) (w w' : Tale (Scene U X) (Code U)) : Prop extends
    V.Keeps w w' where
  calm : V.Present w → V.Fair w' → (w.store.cell V.tracker).state = .clean →
    (w'.store.cell V.tracker).state = .clean

section

variable {V : Vigil} {α : Type} {w w1 w2 w' : SceneTale U X}

theorem Vigil.Present.nudged (h : V.Present w)
    (hn : w'.host.1.transition V.transition = w.host.1.transition V.transition ∨
      w'.host.1.transition V.transition = (w.host.1.transition V.transition).flag) : V.Present
        w' := by
  rcases hn with hn | hn
  · exact ⟨by rw [hn]; exact h.tracker, by rw [hn]; exact h.cell⟩
  · exact ⟨by rw [hn]; exact h.tracker, by rw [hn]; exact h.cell⟩

theorem Vigil.Present.carried (h : V.Present w) (hp : V.Carries w w') : V.Present w' :=
  h.nudged hp.nudge

theorem Upright.isTracker (h : Upright w) (hp : V.Present w) : w.store.IsTracker V.tracker :=
  h.bonded.tracker _ _ hp.tracker

theorem Vigil.Present.lt (h : V.Present w) : V.transition < w.host.1.transitions.size := by
  by_contra hge
  have htracker := h.tracker
  rw [Scene.transition, getD_of_size_le (not_lt.1 hge)] at htracker
  cases htracker

theorem Upright.isProperty (h : Upright w) (hp : V.Present w) : w.store.IsProperty V.cell :=
  hp.cell ▸ h.bonded.cell _ hp.lt

theorem Vigil.Flagged.carried (h : V.Flagged w) (hp : V.Carries w w') : V.Flagged w' := by
  unfold Flagged
  rcases hp.nudge with hn | hn
  · rw [hn]
    exact h
  · rw [hn]
    exact ⟨rfl, rfl⟩

theorem Vigil.Carries.trans (h : V.Carries w w1) (h' : V.Carries w1 w2) : V.Carries w w2 where
  kept := h.kept.trans h'.kept
  size := h.size.trans h'.size
  nudge := by
    rcases h'.nudge with h' | h' <;> rw [h'] <;> rcases h.nudge with h | h <;> rw [h]
    · exact .inl rfl
    · exact .inr rfl
    · exact .inr rfl
    · exact .inr rfl
  fair hp hf := h.fair hp (h'.fair (hp.carried h) hf)
  reads hp hf :=
    (h'.reads (hp.carried h) hf).trans (h.reads hp (h'.fair (hp.carried h) hf))
  state hp hf hc := by
    rcases h.state hp (h'.fair (hp.carried h) hf) hc with hc | hc
    · exact h'.state (hp.carried h) hf hc
    · exact .inr (hc.carried h')

theorem Vigil.Keeps.trans (h : V.Keeps w w1) (h' : V.Keeps w1 w2) : V.Keeps w w2 where
  toCarries := h.toCarries.trans h'.toCarries
  value hp hf := (h'.value (hp.carried h.toCarries) hf).trans
    (h.value hp (h'.fair (hp.carried h.toCarries) hf))

theorem Vigil.Passes.trans (h : V.Passes w w1) (h' : V.Passes w1 w2) : V.Passes w w2 where
  toKeeps := h.toKeeps.trans h'.toKeeps
  calm hp hf hc := h'.calm (hp.carried h.toCarries) hf
    (h.calm hp (h'.fair (hp.carried h.toCarries) hf) hc)

theorem Vigil.Fair.shorter (h : V.Fair w') (hs : w.store = w'.store) (hh : w.host.1 = w'.host.1)
    (hp : w.past ⊆ w'.past) : V.Fair w :=
  ⟨hs ▸ h.live, hs ▸ h.shown, hs ▸ h.loose, hs ▸ h.alerts, hh ▸ h.alone, fun m hm => h.past m
    (hp hm)⟩

/-- Only the past has changed, and only by what does not concern the tracker. -/
theorem Vigil.Passes.of_eq (hs : w'.store = w.store) (hh : w'.host.1 = w.host.1)
    (hp : w.past ⊆ w'.past) (hr : w'.past.reads V.tracker = w.past.reads V.tracker) :
    V.Passes w w' where
  kept := hs ▸ .refl _
  size := Nat.le_of_eq (by rw [hh])
  nudge := .inl (by rw [hh])
  fair _ h := h.shorter hs.symm hh.symm hp
  reads _ _ := hr
  state _ _ h := .inl (hs ▸ h)
  value _ _ := by rw [hs]
  calm _ _ h := hs ▸ h

theorem Vigil.Passes.refl (w : SceneTale U X) : V.Passes w w :=
  .of_eq rfl rfl (List.Subset.refl _) rfl

theorem Vigil.Passes.noting (w : SceneTale U X) : V.Passes w w.beat :=
  .of_eq rfl rfl (List.subset_cons_self ..) rfl

theorem Upright.noting (h : Upright w) : Upright w.beat := { h with }

theorem Upright.holds (h : Upright w) {shared busy : CellId → Prop} {x : CellId} {own : Bool}
    (hx : own = true → w.store.Loose x) : (minding shared busy x).holds own w :=
  ⟨h.tended, h.sane.trackers, hx⟩

theorem Scene.Nudges.proj {s t : Scene U X} (h : s.Nudges t) {β : Type} (f : Transition U → β)
    (hf : ∀ x, f (Transition.flag x) = f x) (b : TransitionId) :
    f (t.transition b) = f (s.transition b) := by
  rcases h.transition b with h | h
  · rw [h]
  · rw [h, hf]

theorem Scene.Bonded.kept {store store' : Store (Code U)} {s : Scene U X} (h : s.Bonded store)
    (hk : Kept store store') : s.Bonded store' :=
  ⟨h.binding, fun b t ht => (h.tracker b t ht).kept hk, h.apart, fun b hb => (h.cell b hb).kept hk,
    h.clock⟩

theorem Scene.Bonded.nudged {store : Store (Code U)} {s t : Scene U X} (h : s.Bonded store)
    (hn : s.Nudges t) : t.Bonded store := by
  have hbinding := hn.proj Transition.binding fun _ => rfl
  have htracker := hn.proj Transition.tracker fun _ => rfl
  have hcell := hn.proj Transition.cell fun _ => rfl
  refine ⟨fun b => ?_, fun b => ?_, fun b b' => ?_, fun b hb => ?_, hn.clock.trans h.clock⟩
  · rw [hbinding]
    exact h.binding b
  · rw [htracker]
    exact h.tracker b
  · rw [htracker, htracker]
    exact h.apart b b'
  · rw [hcell]
    exact h.cell b (hn.size ▸ hb)

/-- What the observers of a store are does not depend on anything else. -/
theorem Store.Alerts.same {K : Type → Type} {s t : Store K} {c : CellId} {code : K Unit}
    (h : t.Alerts c code) (ho : t.observers = s.observers)
    (hl : (t.cell c).observers = (s.cell c).observers) : s.Alerts c code := by
  obtain ⟨o, hmem, x, hx, hcode⟩ := h
  exact ⟨o, hl ▸ hmem, x, ho ▸ hx, hcode⟩

/-! ## Runs of code -/

theorem Vigil.Fair.spares (h : V.Fair w') {m : Moment (Code U)} (hm : m ∈ w'.past)
    (hbegan : m.event ≠ .began V.tracker) (hwrote : ∀ c, m.event = .wrote c → V.shared c) :
    m.Spares V.tracker :=
  ⟨hbegan, fun c hc => (h.past m hm).far c (.inl (hwrote c hc))⟩

/-- What was fair after a run of code was fair before it. -/
theorem Vigil.Fair.before (hf : V.Fair w') {busy : CellId → Prop} {x : CellId} {own : Bool}
    (hm : Minded V.shared busy x own w w') (hcontrol : ⟨.control, w.store⟩ :: w.past <:+ w'.past) :
    V.Fair w where
  live := (hm.dropped _).symm.trans hf.live
  shown := (hm.dropped _).symm.trans hf.shown
  loose := (hf.past _ (hcontrol.subset List.mem_cons_self)).loose
  alerts := hf.alerts.same hm.observers (hm.observed _)
  alone b hb hne := by
    rw [← hm.scene.proj Transition.cell (fun _ => rfl) b]
    exact hf.alone b (hm.scene.size.symm ▸ hb) hne
  past m hmem := hf.past m (hcontrol.subset (List.mem_cons_of_mem _ hmem))

/-- A run that begins with a program of its own, keeps the regime of code that minds its own
business, and returns. -/
theorem Upright.run (hw : Upright w) (busy : CellId → Prop) (hbusy : V.Present w → ¬busy V.tracker)
    {Q : Bool → SceneTale U X → α → Prop} {a : α}
    (hgoes : ∀ own, (minding V.shared busy V.cell).holds own w →
      (minding V.shared busy V.cell).Goes own w Q (.ok a w'))
    (hreach : Told.Reaches w.beat (.ok a w')) :
    Upright w' ∧ V.Passes w w' ∧ Minded V.shared busy V.cell false w w' := by
  obtain ⟨_, ⟨rfl, hm⟩, hholds, -⟩ := hgoes false (hw.holds (by simp))
  obtain ⟨hpath, hlevel⟩ := hreach
  have hsane : w'.store.Sane := Path.sane hpath.path hw.sane
  have hcontrol : ⟨.control, w.store⟩ :: w.past <:+ w'.past := Path.past_suffix hpath.path
  have hup : Upright w' := by
    refine ⟨hsane, ?_, hholds.1, (hw.bonded.kept hm.kept).nudged hm.scene⟩
    rw [consumers, hlevel.stack]
    exact hw.outside
  have hfair : V.Fair w' → V.Fair w := fun hf => hf.before hm hcontrol
  have hstill : V.Present w → V.Fair w' →
      Stage.Still V.tracker ⟨w.store, ⟨.control, w.store⟩ :: w.past, none⟩ ⟨w'.store, w'.past,
        none⟩ := by
    intro hp hf
    obtain ⟨new, hnew⟩ := hcontrol
    obtain ⟨all, hall, hevents⟩ := hm.past
    have hsub : all = new ++ [⟨.control, w.store⟩] := by
      apply (List.append_left_inj w.past).mp
      rw [← hall, ← hnew, List.append_assoc, List.singleton_append]
    refine hpath.still hw.sane (hw.isTracker hp)
      (fun hmem => ?_) hf.live ?_ hnew.symm fun m hmem => ?_
    · have hmem : V.tracker ∈ w.store.consumers := hmem
      rw [hw.outside] at hmem
      cases hmem
    · intro m hmem
      cases hmem
      exact ⟨by simp, by simp⟩
    · have hmem' : m ∈ all := by
        rw [hsub]
        exact List.mem_append_left _ hmem
      obtain ⟨hkept, hwrote, hbegan⟩ := hevents m hmem'
      refine hf.spares (by rw [← hnew]; exact List.mem_append_left _ hmem) (fun hb => ?_) hwrote
      have htracker := ((hw.isTracker hp).kept hkept).2
      rcases hbegan _ hb with hb | hb
      · exact hbusy hp hb
      · rw [htracker] at hb
        cases hb
  have hcalm : V.Present w → V.Fair w' → (w.store.cell V.tracker).state = .clean →
      (w'.store.cell V.tracker).state = .clean := fun hp hf hc => (hstill hp hf).state.trans hc
  refine ⟨hup, ⟨⟨⟨hm.kept, Nat.le_of_eq hm.scene.size.symm, hm.scene.transition _, fun _ => hfair,
    fun hp hf => ?_, fun hp hf hc => .inl (hcalm hp hf hc)⟩, fun _ hf => ?_⟩, hcalm⟩, hm⟩
  · refine ((hstill hp hf).idle ?_).2
    rw [hw.outside]
    exact List.not_mem_nil
  · obtain ⟨_, ⟨rfl, hm'⟩, -⟩ := hgoes true (hw.holds fun _ => (hfair hf).loose)
    exact hm'.value rfl

variable {host : Host U X} {depth : Nat} (hhost : host.Minds V.shared) (hx : ¬V.shared V.cell)
include hhost hx

theorem Upright.program (hw : Upright w) (busy : CellId → Prop)
    (hbusy : V.Present w → ¬busy V.tracker) {act : SceneM U X α}
    {Q : Bool → SceneTale U X → α → Prop}
      (hruns : (minding V.shared busy V.cell).Obeys (host.told depth) → ∀ own,
        (minding V.shared busy V.cell).holds own w → (minding V.shared busy V.cell).Runs
          (host.told depth) own w act Q)
    {a : α} (h : act.tell (host.told depth) w = .ok a w') :
    Upright w' ∧ V.Passes w w' ∧ Minded V.shared busy V.cell false w w' := by
  refine hw.run busy hbusy (Q := Q) (fun own hown => ?_) (a := a) ?_
  · rw [← h]
    exact hruns (minding_obeys (toldTo_minding hhost hx depth)) own hown
  · rw [← h]
    exact Act.tell_begins (Act.toldTo_flows (Code.meaning host) depth) act w hw.sane

theorem Upright.code (hw : Upright w) {code : Code U α} (hcode : code.Minds) {a : α}
    (h : (host.told depth).code code w = .ok a w') :
    Upright w' ∧ V.Passes w w' ∧ Minded V.shared (fun _ => False) V.cell false w w' := by
  refine hw.run (fun _ => False) (fun _ => not_false) (Q := fun _ _ _ => True) (fun own hown => ?_)
    (a := a) ?_
  · rw [← h]
    exact (toldTo_minding hhost hx depth).code hown hcode
  · cases depth with
    | zero => cases h
    | succ depth =>
      rw [← h]
      exact Act.tell_begins (Act.toldTo_flows (Code.meaning host) depth) _ w hw.sane

/-! ## Notifications -/

omit hhost hx in
theorem flagged_of_retarget (hlt : V.transition < w.host.1.transitions.size)
    (h : (host.told depth).code (.retarget V.transition) w = .ok () w') : V.Flagged w' := by
  cases depth with
  | zero => cases h
  | succ depth =>
    have htell : (Act.toldTo (Code.meaning host) (depth + 1)).code (.retarget V.transition) w =
        .ok () (w.beat.beat.withHost
          (w.host.1.retargeted V.transition)) := rfl
    rw [htell] at h
    cases h
    show ((w.host.1.retargeted V.transition).transition V.transition).bindingChanged = true ∧
      ((w.host.1.retargeted V.transition).transition V.transition).queued = true
    rw [Scene.transition_retargeted, if_pos ⟨rfl, hlt⟩]
    exact ⟨rfl, rfl⟩

theorem Upright.fire (hw : Upright w) (observers : List ObserverId)
    (h : Run.fire (host.told depth) observers w = .ok () w') :
    Upright w' ∧ V.Passes w w' ∧ Minded V.shared (fun _ => False) V.cell false w w' ∧
      ∀ o ∈ observers, ∀ x, w.store.observers[o]? = some x → x.code = .retarget V.transition →
        x.stopped = false → V.transition < w.host.1.transitions.size → V.Flagged w' := by
  induction observers generalizing w with
  | nil =>
    cases h
    exact ⟨hw, .refl _, .refl _, nofun⟩
  | cons o rest ih =>
    rw [Run.fire_cons] at h
    have hskip : Run.fire (host.told depth) rest w = .ok () w' →
        (∀ x, w.store.observers[o]? = some x → x.stopped = true) →
        Upright w' ∧ V.Passes w w' ∧ Minded V.shared (fun _ => False) V.cell false w w' ∧
          ∀ o' ∈ o :: rest, ∀ x, w.store.observers[o']? = some x →
            x.code = .retarget V.transition → x.stopped = false →
            V.transition < w.host.1.transitions.size → V.Flagged w' := by
      intro h hstopped
      obtain ⟨hw', hp, hm, hflag⟩ := ih hw h
      refine ⟨hw', hp, hm, List.forall_mem_cons.mpr ⟨fun x hxo _ hs => ?_, hflag⟩⟩
      rw [hstopped x hxo] at hs
      cases hs
    cases ho : w.store.observers[o]? with
    | none =>
      rw [ho] at h
      exact hskip h fun x hxo => by rw [ho] at hxo; cases hxo
    | some x =>
      rw [ho] at h
      dsimp only [Option.elim] at h
      cases hst : x.stopped with
      | true =>
        rw [if_pos hst] at h
        exact hskip h fun y hy => by rw [ho] at hy; cases hy; exact hst
      | false =>
        rw [if_neg (by simp [hst])] at h
        unfold EStateM.bind at h
        cases hrun : (host.told depth).code x.code w with
        | error stop u =>
          rw [hrun] at h
          cases h
        | ok r u =>
          rw [hrun] at h
          obtain ⟨hu, hpu, hmu⟩ := hw.code hhost hx (hw.tended.observer o x ho) hrun
          obtain ⟨hw', hp, hm, hflag⟩ := ih hu h
          refine ⟨hw', hpu.trans hp, hmu.trans hm, List.forall_mem_cons.mpr
            ⟨fun y hy hcode _ hlt => ?_, fun o' ho' y hy hcode hst' hlt => ?_⟩⟩
          · rw [ho] at hy
            cases hy
            rw [hcode] at hrun
            exact (flagged_of_retarget hlt hrun).carried hp.toCarries
          · exact hflag o' ho' y (hmu.observers ▸ hy) hcode hst' (hmu.scene.size ▸ hlt)

theorem Upright.notify (hw : Upright w) (cells : List CellId)
    (h : Run.notify (host.told depth) cells w = .ok () w') :
    Upright w' ∧ V.Passes w w' ∧ Minded V.shared (fun _ => False) V.cell false w w' ∧
      (V.tracker ∈ cells → V.Present w → V.Fair w' → V.Flagged w') := by
  induction cells generalizing w with
  | nil =>
    cases h
    exact ⟨hw, .refl _, .refl _, nofun⟩
  | cons c rest ih =>
    have h : (if (w.store.cell c).dropped = true then (do
        pure ()
        Run.notify (host.told depth) rest)
      else EStateM.bind (Run.fire (host.told depth) (w.store.cell c).observers)
        fun _ => Run.notify (host.told depth) rest :
          Told (Scene U X) (Code U) Unit) w = .ok () w' := h
    split at h
    · rename_i hd
      obtain ⟨hw', hp, hm, hflag⟩ := ih hw h
      refine ⟨hw', hp, hm, fun hmem hpresent hf => ?_⟩
      rcases List.mem_cons.mp hmem with hc | hmem
      · rw [← hc, (hp.fair hpresent hf).live] at hd
        cases hd
      · exact hflag hmem hpresent hf
    · unfold EStateM.bind at h
      cases hrun : Run.fire (host.told depth) (w.store.cell c).observers w with
      | error stop u =>
        rw [hrun] at h
        cases h
      | ok r u =>
        rw [hrun] at h
        obtain ⟨hu, hpu, hmu, hflagu⟩ := hw.fire hhost hx _ hrun
        obtain ⟨hw', hp, hm, hflag⟩ := ih hu h
        refine ⟨hw', hpu.trans hp, hmu.trans hm, fun hmem hpresent hf => ?_⟩
        rcases List.mem_cons.mp hmem with hc | hmem
        · obtain ⟨o, ho, x, hxo, hcode, hst⟩ := ((hpu.trans hp).fair hpresent hf).alerts
          rw [hc] at ho
          exact (hflagu o ho x hxo hcode hst hpresent.lt).carried hp.toCarries
        · exact hflag hmem (hpresent.carried hpu.toCarries) hf

/-- A change of the store that was announced, after which some cells may be told. What is done to
the tracker's state without telling it is nothing. -/
theorem Upright.announced {u : SceneTale U X} (hu : Upright u)
    (hh : u.host.1 = w.host.1) (hk : Kept w.store u.store)
    (hobservers : u.store.observers = w.store.observers)
    (hobserved : ∀ c, (u.store.cell c).observers = (w.store.cell c).observers)
    (hdropped : ∀ c, (u.store.cell c).dropped = (w.store.cell c).dropped)
    (hpast : ⟨.control, w.store⟩ :: w.past <:+ u.past)
    (hreads : u.past.reads V.tracker = w.past.reads V.tracker) {told : Option (List CellId)}
    (hstate : V.Present w → (w.store.cell V.tracker).state = .clean →
      (w.store.cell V.tracker).dropped = false → (u.store.cell V.tracker).state = .clean ∨
        ∃ cells, told = some cells ∧ V.tracker ∈ cells)
    (h : (match told with
      | none => EStateM.Result.ok () u
      | some cells => Run.notify (host.told depth) cells u) = .ok () w') :
    Upright w' ∧ V.Carries w w' ∧ V.Passes u w' ∧
      Minded V.shared (fun _ => False) V.cell false u w' := by
  have hpresent : V.Present w → V.Present u := fun hp => hp.nudged (.inl (by rw [hh]))
  have hfair : V.Fair u → V.Fair w := fun hf =>
    { live := (hdropped _).symm.trans hf.live
      shown := (hdropped _).symm.trans hf.shown
      loose := (hf.past _ (hpast.subset List.mem_cons_self)).loose
      alerts := hf.alerts.same hobservers (hobserved _)
      alone := hh ▸ hf.alone
      past := fun m hmem => hf.past m (hpast.subset (List.mem_cons_of_mem _ hmem)) }
  have hall : Upright w' ∧ V.Passes u w' ∧ Minded V.shared (fun _ => False) V.cell false u w' ∧
      ∀ cells, told = some cells → V.tracker ∈ cells → V.Present u → V.Fair w' → V.Flagged w' := by
    cases told with
    | none =>
      cases h
      exact ⟨hu, .refl _, .refl _, nofun⟩
    | some cells =>
      obtain ⟨hw', hp, hm, hflag⟩ := hu.notify hhost hx cells h
      exact ⟨hw', hp, hm, fun _ heq => by cases heq; exact hflag⟩
  obtain ⟨hw', hp, hm, hflag⟩ := hall
  refine ⟨hw', ⟨hk.trans hp.kept, by rw [← hh]; exact hp.size, by rw [← hh]; exact hp.nudge,
    fun hpw hf => hfair (hp.fair (hpresent hpw) hf),
    fun hpw hf => (hp.reads (hpresent hpw) hf).trans hreads, fun hpw hf hc => ?_⟩, hp, hm⟩
  have hf' := hp.fair (hpresent hpw) hf
  rcases hstate hpw hc (hfair hf').live with hc | ⟨cells, hcells, hmem⟩
  · exact hp.state (hpresent hpw) hf hc
  · exact .inr (hflag cells hcells hmem (hpresent hpw) hf)

end

end ReactiveTree
