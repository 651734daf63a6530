import ReactiveTree.Proofs.Cell.Completes
import ReactiveTree.Proofs.Scene.Lifetimes

/-!
# Transitions and lifetimes

A transition is started only while its cell lives, and it gives up a tracker only after the
tracker was dropped. So a dropped cell has a transition that keeps still, and none of the
trackers that a transition had before outlives it.
-/

namespace ReactiveTree

open Store

variable {U X : Type}
variable {s : Scene U X} {f : Transition U → Transition U} {a : TransitionId}

/-! ## Changes of the scene -/

section

variable {falling : ComponentId → Prop} {giving : RepeaterId → Prop}
  {store : Store (Code U)} {s : Scene U X}

theorem Living.aside (h : Living falling giving store s) (ticking : Bool)
    (vectors : Array VectorModel) (peers : Array (UserPeer U)) (user : X) :
      Living falling giving store
        { s with clock := { s.clock with ticking }, vectors, peers, user } :=
  ⟨{ h.tree with }, { h.counts with }, { h.motion with }, { h.fallen with }⟩

theorem Scene.stays_aside (s : Scene U X) (clock : Clock) (signals : Array (Signal U))
    (vectors : Array VectorModel) (peers : Array (UserPeer U)) (windows : Array Window) (user : X) :
    s.Stays { s with clock, signals, vectors, peers, windows, user } :=
  { Scene.Stays.refl s with }

theorem Living.setRunning (h : Living falling giving store s) {running : List TransitionId}
    (hr : ∀ a ∈ running, a < s.transitions.size) :
    Living falling giving store { s with clock := { s.clock with running } } :=
  ⟨{ h.tree with }, { h.counts with }, { h.motion with running := hr }, { h.fallen with }⟩

theorem Living.modifyTransition (h : Living falling giving store s)
    (hcell : (f (s.transition a)).cell = (s.transition a).cell)
    (htracker : ∀ t, (f (s.transition a)).tracker = some t → store.IsTracker t)
    (hstill : a < s.transitions.size → (store.cell (s.transition a).cell).dropped = true →
      (f (s.transition a)).running = false ∧ (f (s.transition a)).tracker = none)
    (hold : ∀ t, (s.transition a).tracker = some t →
      (f (s.transition a)).tracker = some t ∨ (store.cell t).dropped = true) :
    Living falling giving store (s.modifyTransition a f) := by
  have hget := fun b => s.transition_modify a b f
  have hsize : (s.modifyTransition a f).transitions.size = s.transitions.size := Array.size_modify
  have hcells (b : TransitionId) : ((s.modifyTransition a f).transition b).cell =
      (s.transition b).cell := by
    rw [hget]
    split
    · rename_i hb
      rw [hb.1]
      exact hcell
    · rfl
  refine ⟨{ h.tree with }, { h.counts with }, ?_, { h.fallen with }⟩
  exact { h.motion with
    entry := fun {c node i b} hb => by
      rw [hsize, hcells]
      exact h.motion.entry hb
    registered := fun hb => h.motion.registered (hsize ▸ hb)
    moved := fun {c x b} hb => by
      rw [hsize, hcells]
      exact h.motion.moved hb
    tracker := fun {b t} hb => by
      rw [hget] at hb
      split at hb
      · rename_i heq
        exact htracker t (heq.1 ▸ hb)
      · exact h.motion.tracker hb
    still := fun {b} hb hd => by
      rw [hcells] at hd
      rw [hsize] at hb
      rw [hget]
      split
      · rename_i heq
        obtain ⟨rfl, -⟩ := heq
        exact hstill hb hd
      · exact h.motion.still hb hd
    retarget := fun {o x b} hx hcode => by
      obtain ⟨hlt, hor⟩ := h.motion.retarget hx hcode
      rw [hsize, hget]
      refine ⟨hlt, ?_⟩
      split
      · rename_i heq
        obtain ⟨rfl, -⟩ := heq
        rcases hor with htr | hd
        · exact hold _ htr
        · exact .inr hd
      · exact hor
    running := hsize ▸ h.motion.running }

theorem Scene.stays_modifyTransition (s : Scene U X)
    (hcell : (f (s.transition a)).cell = (s.transition a).cell) :
    s.Stays (s.modifyTransition a f) := by
  refine { Scene.Stays.refl s with
    transitions := Nat.le_of_eq Array.size_modify.symm, transition := fun b _ => ?_ }
  rw [Scene.transition_modify]
  split
  · rename_i hb
    rw [hb.1]
    exact hcell
  · rfl

theorem Living.observe (h : Living falling giving store s) {c : CellId} {a : TransitionId}
    (ha : a < s.transitions.size) (hc : (s.transition a).tracker = some c) :
    Living falling giving (store.observe c (.retarget a)).2 s := by
  have hcontent := store.content_observe c (.retarget a)
  have hdropped d := congrArg Content.dropped (hcontent d)
  have hplacid : Placid store
      { (store.observe c (.retarget a)).2 with observers := store.observers } :=
    .of_dropped (.of_size (size_modify ..) fun d => congrArg Content.tracker (hcontent d))
      (fun d _ => hdropped d) rfl
  have hs := h.placid hplacid
  refine ⟨hs.tree, hs.counts, { hs.motion with retarget := fun {o x b} hx hcode => ?_ },
    { hs.fallen with }⟩
  have hpush : (store.observers.push ⟨c, .retarget a, false⟩)[o]? = some x := hx
  rw [Array.getElem?_push] at hpush
  split at hpush
  · cases hpush
    cases hcode
    exact ⟨ha, .inl hc⟩
  · obtain ⟨hlt, htr | hd⟩ := h.motion.retarget hpush hcode
    · exact ⟨hlt, .inl htr⟩
    · exact ⟨hlt, .inr ((hdropped _).trans hd)⟩

def Scene.Still (s : Scene U X) (a : TransitionId) : Prop :=
  (s.transition a).running = false ∧ (s.transition a).tracker = none

theorem dropped_drop {x y : CellId} (hx : x < store.cells.size) :
    ((store.drop x).cell y).dropped = if y = x then true else (store.cell y).dropped := by
  have h := congrArg Content.dropped (content_drop hx y)
  split at h
  · rw [if_pos ‹_›]
    exact h
  · rw [if_neg ‹_›]
    exact h

/-- From `s` to `t` only transitions changed, and those that were still are so. -/
structure Scene.Calms (s t : Scene U X) : Prop where
  only : t = { s with transitions := t.transitions }
  size : t.transitions.size = s.transitions.size
  cell : ∀ a, (t.transition a).cell = (s.transition a).cell
  still : ∀ a, s.Still a → t.Still a

theorem Scene.calms_modify (s : Scene U X) (a : TransitionId)
    (hcell : ∀ x, (f x).cell = x.cell) (hstill : ∀ x, x.running = false → x.tracker = none →
      (f x).running = false ∧ (f x).tracker = none) : s.Calms (s.modifyTransition a f) := by
  refine ⟨rfl, Array.size_modify, fun b => ?_, fun b hb => ?_⟩
  · rw [transition_modify]
    split
    · exact hcell _
    · rfl
  · unfold Still
    rw [transition_modify]
    split
    · exact hstill _ hb.1 hb.2
    · exact hb

theorem Scene.Calms.stays {t : Scene U X} (h : s.Calms t) : s.Stays t := by
  rw [h.only]
  exact { Scene.Stays.refl s with
    transitions := Nat.le_of_eq h.size.symm, transition := fun a _ => h.cell a }

end

/-- A change of a transition that neither starts it nor touches its tracker. -/
structure Transition.Tame (t t' : Transition U) : Prop where
  cell : t'.cell = t.cell
  running : t'.running = true → t.running = true
  tracker : t'.tracker = t.tracker

theorem Living.tame {falling : ComponentId → Prop} {giving : RepeaterId → Prop}
    {store : Store (Code U)} (h : Living falling giving store s)
    (hf : (s.transition a).Tame (f (s.transition a))) :
    Living falling giving store (s.modifyTransition a f) := by
  refine h.modifyTransition hf.cell (fun t ht => h.motion.tracker (hf.tracker ▸ ht))
    (fun ha hd => ?_) fun t ht => .inl (hf.tracker.trans ht)
  obtain ⟨hrunning, htracker⟩ := h.motion.still ha hd
  refine ⟨?_, hf.tracker.trans htracker⟩
  by_contra hrun
  rw [hf.running (by simpa using hrun)] at hrunning
  cases hrunning

/-! ## Programs -/

section

variable {α : Type} {falling : ComponentId → Prop} {giving : RepeaterId → Prop}
  {nested : SceneNested U X} {w : SceneTale U X} {a : TransitionId}
    {Q : Unit → SceneTale U X → α → Prop}

section

variable (hw : w.Sound)
include hw

theorem lasting_change {f : Scene U X → Scene U X}
    (hf : Sound w.store (f w.host.1)) (hk : w.host.1.Stays (f w.host.1)) :
    lasting.Keeps nested () w (Act.change f) :=
  .change hw fun _ => ⟨hf, Stays.change _ hk⟩

theorem lasting_change_then {f : Scene U X → Scene U X} {k : Unit → SceneM U X α}
    (hf : Sound w.store (f w.host.1)) (hk : w.host.1.Stays (f w.host.1))
      (h : ∀ w' : SceneTale U X, w'.store = w.store → w'.host.1 = f w.host.1 → w'.Sound →
        Stays w.store w.host.1 w'.store w'.host.1 → lasting.Runs nested () w' (k ()) Q) :
    lasting.Runs nested () w (Act.change f >>= k) Q :=
  .change_then hw (fun _ => ⟨hf, Stays.change _ hk⟩) fun hs =>
    h _ rfl rfl hs ⟨.refl _, fun _ h => h, hk⟩

theorem lasting_tame_then {k : Unit → SceneM U X α}
    (hf : (w.host.1.transition a).Tame (f (w.host.1.transition a)))
      (h : ∀ w' : SceneTale U X, w'.Sound → Stays w.store w.host.1 w'.store w'.host.1 →
        lasting.Runs nested () w' (k ()) Q) :
    lasting.Runs nested () w (Transition.modify a f >>= k) Q :=
  lasting_change_then hw (hw.tame hf) (w.host.1.stays_modifyTransition hf.cell)
    fun w' _ _ hw' hle => h w' hw' hle

theorem lasting_schedule (ha : a < w.host.1.transitions.size) :
    lasting.Keeps nested () w (Transition.schedule a) := by
  refine .change hw fun hn => ?_
  split
  · exact ⟨hn, living_ok.refl () _⟩
  · have htame : (w.host.1.transition a).Tame { w.host.1.transition a with queued := true } :=
      ⟨rfl, fun h => h, rfl⟩
    have hs := (hw.tame (f := fun t => { t with queued := true }) htame).setRunning
      (Scene.running_queue hw.motion.running ha _)
    exact ⟨hs, Stays.change _ ((w.host.1.stays_modifyTransition htame.cell).trans
      (Scene.stays_aside ..))⟩

theorem lasting_retarget (ha : a < w.host.1.transitions.size) :
    lasting.Keeps nested () w (Transition.retarget a) :=
  lasting_tame_then hw ⟨rfl, fun h => h, rfl⟩ fun _ hw' hle =>
    lasting_schedule hw' (ha.trans_le hle.scene.transitions)

omit hw in
theorem clearBinding_completes (hw : w.Living falling giving) (a : TransitionId) :
    (Transition.clearBinding a).Completes nested w fun w' _ =>
      w'.Living falling giving ∧ Placid w.store w'.store ∧
      w.host.1.Calms w'.host.1 ∧ (w'.host.1.transition a).tracker = none := by
  set cleared : Transition U → Transition U := fun t =>
    { t with tracker := none, binding := none, bindingChanged := false } with hcleared
  have hnone : ((w.host.1.modifyTransition a cleared).transition a).tracker = none := by
    rw [Scene.transition_modify]
    split
    · rfl
    · rename_i hlt
      rw [Scene.transition, getD_of_size_le (not_lt.1 fun h => hlt ⟨rfl, h⟩)]
      rfl
  have hend : ∀ {w' : SceneTale U X}, w'.host.1 = w.host.1 →
      Placid w.store w'.store →
      (∀ t, (w.host.1.transition a).tracker = some t → (w'.store.cell t).dropped = true) →
      (Transition.modify a cleared).Completes nested w' fun w' _ =>
        w'.Living falling giving ∧ Placid w.store w'.store ∧
        w.host.1.Calms w'.host.1 ∧ (w'.host.1.transition a).tracker = none := by
    intro w' hhost hplacid hd
    refine Act.completes_change ?_
    rw [hhost]
    refine ⟨?_, hplacid, w.host.1.calms_modify a (fun _ => rfl) fun _ hr _ => ⟨hr, rfl⟩, hnone⟩
    exact (hw.placid hplacid).modifyTransition rfl nofun
      (fun ha hdr => ⟨((hw.placid hplacid).motion.still ha hdr).1, rfl⟩) fun t ht => .inr (hd t ht)
  refine Act.completes_ask ?_
  dsimp only
  cases htr : (w.host.1.transition a).tracker with
  | none => exact hend rfl (.refl _) fun t ht => by simp [htr] at ht
  | some tracker =>
    have hist := hw.motion.tracker htr
    refine .bind (Act.completes_drop (Q := fun w' _ => w'.host.1 = w.host.1 ∧
      w'.store = w.store.drop tracker) hist.1 ⟨rfl, rfl⟩) fun w' _ h => ?_
    obtain ⟨hhost, hstore⟩ := h
    refine hend hhost (by rw [hstore]; exact .drop hist) fun t ht => ?_
    rw [htr] at ht
    cases ht
    rw [hstore, dropped_drop hist.1, if_pos rfl]

theorem lasting_clearBinding (a : TransitionId) :
    lasting.Runs nested () w (Transition.clearBinding a) fun _ w' _ =>
      (w'.host.1.transition a).tracker = none :=
  (clearBinding_completes hw a).runs fun _ _ ⟨hw', hplacid, hcalms, hnone⟩ =>
    ⟨(), (Stays.placid hplacid _).and_then (Stays.change _ hcalms.stays), hw', hnone⟩

/-- The cell of a transition lives. -/
def Afoot (store : Store (Code U)) (s : Scene U X) (a : TransitionId) : Prop :=
  a < s.transitions.size ∧ (store.cell (s.transition a).cell).dropped = false

omit hw in
theorem Afoot.stays {store store' : Store (Code U)} {t : Scene U X} (h : Afoot store s a)
    (hw : Sound store s) (hle : Stays store s store' t) : Afoot store' t a := by
  refine ⟨h.1.trans_le hle.scene.transitions, ?_⟩
  rw [hle.scene.transition a h.1]
  exact hle.alive (hw.motion.cell h.1) h.2

theorem lasting_start {k : Unit → SceneM U X α} (ha : Afoot w.store w.host.1 a)
    (hcell : ∀ t, (f t).cell = t.cell) (htracker : ∀ t, (f t).tracker = t.tracker)
      (h : ∀ w' : SceneTale U X, w'.Sound → Stays w.store w.host.1 w'.store w'.host.1 →
        lasting.Runs nested () w' (k ()) Q) :
    lasting.Runs nested () w (Transition.modify a f >>= k) Q := by
  refine lasting_change_then hw (hw.modifyTransition (hcell _) (fun t ht => ?_) (fun _ hd => ?_)
    fun t ht => .inl ((htracker _).trans ht)) (w.host.1.stays_modifyTransition (hcell _))
    fun w' _ _ hw' hle => h w' hw' hle
  · exact hw.motion.tracker (htracker _ ▸ ht)
  · rw [ha.2] at hd
    cases hd

end

variable (hN : lasting.Obeys nested)
include hN

section

variable (hw : w.Sound)
include hw

theorem lasting_animateTo (ha : a < w.host.1.transitions.size)
    (v : Value) : lasting.Keeps nested () w (Transition.animateTo a v) := by
  refine .ask hw fun hn => .view_then hn fun hn => ?_
  split
  · exact .ret hn trivial
  rename_i hlive
  have hafoot : Afoot w.store w.host.1 a := ⟨ha, Bool.eq_false_iff.2 hlive⟩
  refine lasting_tame_then hn ⟨rfl, fun h => h, rfl⟩ fun w1 hw1 hle1 => ?_
  refine .seq (lasting_peek hN hw1 _) fun _ w2 current hle2 hw2 _ => ?_
  have hafoot2 : Afoot w2.store w2.host.1 a := (hafoot.stays hw hle1).stays hw1 hle2
  refine .ask hw2 fun hn => ?_
  dsimp only [id]
  generalize (if (w2.host.1.transition a).running = true
    then (w2.host.1.transition a).target.same v else current.same v) = there
  split
  · exact .ret hn trivial
  split
  · exact lasting_tame_then hn ⟨rfl, nofun, rfl⟩ fun w3 hw3 _ => lasting_set hN hw3 ..
  · refine lasting_tame_then hn ⟨rfl, fun h => h, rfl⟩ fun w3 hw3 hle3 => ?_
    have hafoot3 : Afoot w3.store w3.host.1 a := hafoot2.stays hw2 hle3
    refine .ask hw3 fun hn => ?_
    -- reading the clock runs no code that could drop the cell
    refine .seq (lasting_peek hN hn _) fun _ w4 started hle4 hw4 _ => ?_
    have hafoot4 : Afoot w4.store w4.host.1 a := hafoot3.stays hw3 hle4
    exact lasting_start hw4 hafoot4 (fun _ => rfl) (fun _ => rfl) fun w5 hw5 hle5 =>
      lasting_schedule hw5 (hafoot4.1.trans_le hle5.scene.transitions)

theorem lasting_setTransition (ha : a < w.host.1.transitions.size)
    (v : Value) : lasting.Keeps nested () w (Transition.set a v) := by
  refine .ask hw fun hn => ?_
  split
  · refine .seq (lasting_clearBinding hn a) fun _ w' _ hle hw' _ => ?_
    exact lasting_animateTo hN hw' (ha.trans_le hle.scene.transitions) v
  · exact lasting_animateTo hN hn ha v

theorem lasting_evaluateBinding (a : TransitionId) :
    lasting.Keeps nested () w (Transition.evaluateBinding a) := by
  refine .ask hw fun hn => ?_
  dsimp only [id]
  cases (w.host.1.transition a).binding with
  | none => exact .ret hn trivial
  | some code =>
    cases (w.host.1.transition a).tracker with
    | none => exact .ret hn trivial
    | some tracker =>
      refine .seq (.track hn (fun _ => trivial) trivial
        (fun w' _ hw' => .perform hN hw' fun _ => code.known _)
        fun _ _ _ _ _ _ h => h) fun _ w' r _ hw' _ => ?_
      cases r with
      | done v => exact .ret hw' trivial
      | skipped => exact .ret hw' trivial
      | failed e =>
        refine .view_then hw' fun hn' => ?_
        exact .seq_ret (.record _ hn')

theorem lasting_step (ha : a < w.host.1.transitions.size)
    (now : Int64) : lasting.Keeps nested () w (Transition.step a now) := by
  refine .ask hw fun hn => ?_
  extract_lets move
  have hmove : ∀ {w' : SceneTale U X}, w'.Sound →
      lasting.Keeps nested () w' (move ()) := by
    intro w' hw'
    refine .ask hw' fun hn => ?_
    dsimp only [id]
    split
    · exact .ret hn trivial
    · split
      · exact .ret hn trivial
      · split
        · refine lasting_tame_then hn ⟨rfl, nofun, rfl⟩ fun w1 hw1 _ => ?_
          exact .seq_ret (lasting_set hN hw1 ..)
        · exact .seq_ret (lasting_set hN hn ..)
  split
  · refine lasting_tame_then hn ⟨rfl, fun h => h, rfl⟩ fun w1 hw1 hle1 => ?_
    refine .seq (lasting_evaluateBinding hN hw1 a) fun _ w2 r hle2 hw2 _ => ?_
    cases r with
    | none => exact hmove hw2
    | some v =>
      have ha2 : a < w2.host.1.transitions.size :=
        ha.trans_le (hle1.scene.trans hle2.scene).transitions
      exact .seq (lasting_animateTo hN hw2 ha2 v) fun _ w3 _ _ hw3 _ =>
        hmove hw3
  · exact hmove hn

/-! ## The clock -/

omit hw in
theorem lasting_ticks : lasting.Ticks nested fun s a => a < s.transitions.size where
  sober := living_ok.toSober
  later hle ha := ha.trans_le hle.scene.transitions
  listed hw ha := hw.motion.running _ ha
  step now hw ha := lasting_step hN hw ha now
  dismiss _ hw := ⟨Living.tame hw ⟨rfl, fun h => h, rfl⟩,
    Stays.change _ (Scene.stays_modifyTransition _ rfl)⟩
  setList hw hr := ⟨Living.setRunning hw hr, Stays.change _ (Scene.stays_aside ..)⟩
  setTicking ticking hw := ⟨Living.aside hw ticking ..,
    Stays.change _ (Scene.stays_aside ..)⟩
  setTime _ hw := lasting_set hN hw ..
  peek c hw := lasting_peek hN hw c

/-! ## Bindings -/

/-- A transition whose cell lives follows a binding. Nothing runs between the new tracker and
its entry in the transition. -/
theorem lasting_setTransitionBinding (ha : Afoot w.store w.host.1 a)
    (code : Code U Value) : lasting.Keeps nested () w (Transition.setBinding a code) := by
  refine .seq (lasting_clearBinding hw a) fun _ w1 _ hle1 hw1 hnone => ?_
  have ha1 : Afoot w1.store w1.host.1 a := ha.stays hw hle1
  refine .ask hw1 fun hn => .view_then hn fun hn => ?_
  generalize s!"{Store.nameOf _ _}.animated-binding" = name
  set blank : Cell (Code U) := { name, tracker := true, state := .dirty } with hblank
  set tracker := w1.store.cells.size with htracker
  set bound : Transition U → Transition U := fun t =>
    { t with binding := some code, tracker := some tracker } with hbound
  have hstore : Placid w1.store (w1.store.add blank).2 := .add ..
  have hist : (w1.store.add blank).2.IsTracker tracker := by
    refine ⟨by simp [Store.add, htracker], ?_⟩
    rw [cell_add, if_pos htracker]
  -- the transition may as well get its tracker before the observer is there
  have hmodified : Sound (w1.store.add blank).2 (w1.host.1.modifyTransition a bound) := by
    refine (hw1.placid hstore).modifyTransition rfl (fun t ht => ?_) (fun _ hd => ?_) fun t ht => ?_
    · cases ht
      exact hist
    · rw [hstore.alive (hw1.motion.cell ha1.1) ha1.2] at hd
      cases hd
    · rw [hnone] at ht
      cases ht
  have hobserved : Sound ((w1.store.add blank).2.observe tracker (.retarget a)).2
      (w1.host.1.modifyTransition a bound) := by
    refine hmodified.observe ?_ ?_
    · show a < (w1.host.1.transitions.modify a bound).size
      rw [Array.size_modify]
      exact ha1.1
    · rw [Scene.transition_modify, if_pos ⟨rfl, ha1.1⟩]
  have hlater : Stays w1.store w1.host.1
      ((w1.store.add blank).2.observe tracker (.retarget a)).2
      (w1.host.1.modifyTransition a bound) := by
    have hcontent d := (w1.store.add blank).2.content_observe tracker (.retarget a) d
    refine ⟨hstore.kept.trans (.of_size (size_modify ..) fun d =>
      congrArg Content.tracker (hcontent d)), fun {d} hd hlive => ?_,
      w1.host.1.stays_modifyTransition rfl⟩
    exact (congrArg Content.dropped (hcontent d)).trans (hstore.alive hd hlive)
  set u := w1.beat.beat with hu
  obtain ⟨u2, htell, hu2⟩ : ∃ u2 : SceneTale U X,
      (Act.newTracker name (some (.retarget a)) : SceneM U X CellId).tell nested u =
        .ok tracker u2 ∧
      u2.store = ((w1.store.add blank).2.observe tracker (.retarget a)).2 ∧
      u2.host.1 = w1.host.1 := ⟨_, rfl, rfl, rfl⟩
  obtain ⟨u3, htell', hu3⟩ : ∃ u3 : SceneTale U X,
      (Transition.modify a bound).tell nested u2 = .ok () u3 ∧
      u3.store = u2.store ∧ u3.host.1 = u2.host.1.modifyTransition a bound := ⟨_, rfl, rfl, rfl⟩
  have hstore3 := hu3.1.trans hu2.1
  have hhost3 : u3.host.1 = w1.host.1.modifyTransition a bound := hu2.2 ▸ hu3.2
  rw [← hstore3, ← hhost3] at hlater hobserved
  have hle3 : lasting.le () u () u3 := hlater
  show lasting.Goes () u _ (Act.tell nested (_ >>= _) u)
  rw [Act.tell_bind_of_ok htell, Act.tell_bind_of_ok htell']
  refine living_ok.after hle3 ?_
  refine Regime.Runs.seq (lasting_evaluateBinding hN hobserved a)
    fun _ w4 r _ hw4 _ => ?_
  cases r with
  | none => exact .ret hw4 trivial
  | some v => exact lasting_tame_then hw4 ⟨rfl, by simp, rfl⟩ fun w5 hw5 _ => lasting_set hN hw5 ..

end

end

end ReactiveTree
