import ReactiveTree.Proofs.Cell.Tended
import ReactiveTree.Proofs.Scene.Composed
import ReactiveTree.Proofs.Scene.Objects

/-!
# The clock's list

That a transition needs ticks is written down three times: it is running, it is flagged as queued,
and it is in the clock's list. A tick takes the whole list away, steps the transitions in it, which
runs code of others, and puts back those that need more ticks.

`Enlisted` ties the flag to the transition and `Listed` ties the list to the flag, except for the
transitions that code of bindings and observers may start. One that has just ended stays ended
until its flag is taken away.
-/

namespace ReactiveTree

open Store

variable {U X : Type}
variable {s : Scene U X} {f : Transition U → Transition U} {a : TransitionId}

/-- Code that needs no instances: anything but the actions of a declared handler. -/
def Code.Plain : {α : Type} → Code U α → Prop
  | _, .handle (.actions _) _ => False
  | _, .coerced _ _ body => body.Plain
  | _, _ => True

/-- What can be done with cells and with the transitions in `free`, apart from ticks. -/
inductive Steering (free : TransitionId → Prop) : ⦃α : Type⦄ → SceneM U X α → Prop where
  | new (name : String) (v : Value) : Steering free (.new name v)
  | newBound (name : String) {code : Code U Value} (h : code.Plain) :
      Steering free (.newBound name code)
  | newTracker (name : String) (u : U) (self : Option ComponentId) :
      Steering free (.newTracker name (some (.effect u self)))
  | read (c : CellId) : Steering free (.get c)
  | tryRead (c : CellId) : Steering free (.tryGet c)
  | write (c : CellId) (v : Value) : Steering free (.set c v)
  | bind (c : CellId) {code : Code U Value} (h : code.Plain) : Steering free (.setBinding c code)
  | link (a b : CellId) : Steering free (.link a b)
  | drop (c : CellId) : Steering free (.drop c)
  | observe (c : CellId) (u : U) (self : Option ComponentId) :
      Steering free (.observe c (.effect u self))
  | unobserve (o : ObserverId) : Steering free (.unobserve o)
  | track (t : CellId) {α : Type} {code : Code U α} (h : code.Plain) :
      Steering free (.track t (.perform code))
  | invalidate (t : CellId) : Steering free (.invalidate t)
  | perform {α : Type} {code : Code U α} (h : code.Plain) : Steering free (.perform code)
  | animate (cell : CellId) (spec : Spec) (interpolate : Value → Value → Float → Value) :
      Steering free (Transition.create cell spec interpolate)
  | start {a : TransitionId} (h : free a) (v : Value) : Steering free (Transition.set a v)
  | follow {a : TransitionId} (h : free a) {code : Code U Value} (hcode : code.Plain) :
      Steering free (Transition.setBinding a code)
  | stop {a : TransitionId} (h : free a) : Steering free (Transition.stop a)
  /-- Changes what user code keeps in the scene. -/
  | aside {α : Type} (f : X → α × X) :
      Steering free (.host fun s => ((f s.user).1, { s with user := (f s.user).2 }))

/-! ## The invariant -/

namespace Scene

/-- A running transition that is not in `started` is queued as long as its cell lives, and it
is not stopped. -/
structure Enlisted (started : TransitionId → Prop) (store : Store (Code U)) (s : Scene U X) :
    Prop where
  queued : ∀ a, ¬started a → (s.transition a).running = true →
    (store.cell (s.transition a).cell).dropped = false → (s.transition a).queued = true
  going : ∀ a, ¬started a → (s.transition a).running = true → (s.transition a).stopped = false
  binding : ∀ a code, (s.transition a).binding = some code → code.Plain

/-- What is queued is in the clock's list. -/
def Listed (s : Scene U X) : Prop :=
  ∀ a, (s.transition a).queued = true → a ∈ s.clock.running

variable {started : TransitionId → Prop} {store store' : Store (Code U)} {s t : Scene U X}
  {a : TransitionId}

theorem Enlisted.aged (h : s.Enlisted started store) (hs : Aged store store') :
    s.Enlisted started store' := by
  refine ⟨fun a ha hrunning hlive => h.queued a ha hrunning ?_, h.going, h.binding⟩
  by_contra hd
  rw [hs.gone (by simpa using hd)] at hlive
  cases hlive

theorem Enlisted.modify (h : s.Enlisted started store)
    (hqueued : ¬started a → (f (s.transition a)).running = true →
      (store.cell (f (s.transition a)).cell).dropped = false → (f (s.transition a)).queued = true)
    (hgoing : ¬started a → (f (s.transition a)).running = true →
      (f (s.transition a)).stopped = false)
    (hbinding : ∀ code, (f (s.transition a)).binding = some code → code.Plain) :
    (s.modifyTransition a f).Enlisted started store := by
  have hget := fun b => s.transition_modify a b f
  constructor
  · intro b hb
    rw [hget]
    split
    · rename_i heq
      obtain ⟨rfl, -⟩ := heq
      exact hqueued hb
    · exact h.queued b hb
  · intro b hb
    rw [hget]
    split
    · rename_i heq
      obtain ⟨rfl, -⟩ := heq
      exact hgoing hb
    · exact h.going b hb
  · intro b
    rw [hget]
    split
    · rename_i heq
      obtain ⟨rfl, -⟩ := heq
      exact hbinding
    · exact h.binding b

/-- The second scene is a later one: the list has grown, what was queued since is in it, and
the transitions in `left` were left alone. -/
structure Queues (left : TransitionId → Prop) (s t : Scene U X) : Prop where
  running : ∀ a ∈ s.clock.running, a ∈ t.clock.running
  queued : ∀ a, (t.transition a).queued = true →
    (s.transition a).queued = true ∨ a ∈ t.clock.running
  size : s.transitions.size ≤ t.transitions.size
  cell : ∀ a < s.transitions.size, (t.transition a).cell = (s.transition a).cell
  left : ∀ a, left a → (t.transition a).running = (s.transition a).running ∧
    (t.transition a).stopped = (s.transition a).stopped

namespace Queues

variable {left left' : TransitionId → Prop} {u : Scene U X}

theorem refl (s : Scene U X) : s.Queues left s :=
  ⟨fun _ h => h, fun _ h => .inl h, Nat.le_refl _, fun _ _ => rfl, fun _ _ => ⟨rfl, rfl⟩⟩

theorem trans (h : s.Queues left t) (h' : t.Queues left u) : s.Queues left u where
  running a ha := h'.running a (h.running a ha)
  queued a ha := by
    rcases h'.queued a ha with hq | hl
    · rcases h.queued a hq with hq | hl
      · exact .inl hq
      · exact .inr (h'.running a hl)
    · exact .inr hl
  size := h.size.trans h'.size
  cell a ha := (h'.cell a (ha.trans_le h.size)).trans (h.cell a ha)
  left a ha := ⟨(h'.left a ha).1.trans (h.left a ha).1, (h'.left a ha).2.trans (h.left a ha).2⟩

theorem mono (h : s.Queues left t) (hl : ∀ a, left' a → left a) : s.Queues left' t :=
  { h with left := fun a ha => h.left a (hl a ha) }

theorem listed (h : s.Queues left t) (hs : s.Listed) : t.Listed := fun a ha => by
  rcases h.queued a ha with hq | hl
  · exact h.running a (hs a hq)
  · exact hl

end Queues

theorem queues_modify {left : TransitionId → Prop} (s : Scene U X)
    (hcell : (f (s.transition a)).cell = (s.transition a).cell)
    (hqueued : (f (s.transition a)).queued = true → (s.transition a).queued = true)
    (hleft : left a → (f (s.transition a)).running = (s.transition a).running ∧
      (f (s.transition a)).stopped = (s.transition a).stopped) :
    s.Queues left (s.modifyTransition a f) := by
  have hget := fun b => s.transition_modify a b f
  refine ⟨fun _ h => h, fun b => ?_, Nat.le_of_eq Array.size_modify.symm, fun b _ => ?_,
    fun b hb => ?_⟩
  all_goals rw [hget]
  all_goals split
  · rename_i heq
    obtain ⟨rfl, -⟩ := heq
    exact fun h => .inl (hqueued h)
  · exact .inl
  · rename_i heq
    obtain ⟨rfl, -⟩ := heq
    exact hcell
  · rfl
  · rename_i heq
    obtain ⟨rfl, -⟩ := heq
    exact hleft hb
  · exact ⟨rfl, rfl⟩

/-- Flags a transition and puts it into the clock's list, unless it is flagged. -/
def enlist (s : Scene U X) (a : TransitionId) : Scene U X :=
  if (s.transition a).queued then s
  else
    { s.modifyTransition a fun t => { t with queued := true } with
      clock := { s.clock with running := s.clock.running ++ [a] } }

theorem transition_enlist (s : Scene U X) (a b : TransitionId) :
    (s.enlist a).transition b = { s.transition b with
      queued := (s.transition b).queued || decide (b = a ∧ b < s.transitions.size) } := by
  have hor {t : Transition U} {p : Bool} (h : t.queued = true ∨ p = false) :
      t = { t with queued := t.queued || p } := by
    rcases h with h | h
    · rw [h, Bool.true_or, ← h]
    · rw [h, Bool.or_false]
  unfold enlist
  split
  · rename_i hq
    by_cases hb : b = a
    · exact hor (.inl (hb ▸ hq))
    · exact hor (.inr (by simp [hb]))
  · show (s.modifyTransition a _).transition b = _
    rw [transition_modify]
    split
    · rename_i hb
      obtain ⟨rfl, hlt⟩ := hb
      simp [hlt]
    · rename_i hb
      exact hor (.inr (by simpa using hb))

theorem queues_enlist {left : TransitionId → Prop} (s : Scene U X) (a : TransitionId) :
    s.Queues left (s.enlist a) := by
  have hget := s.transition_enlist a
  have hrunning : (s.enlist a).clock.running = s.clock.running ∧ (s.transition a).queued = true ∨
      (s.enlist a).clock.running = s.clock.running ++ [a] := by
    unfold enlist
    split
    · exact .inl ⟨rfl, ‹_›⟩
    · exact .inr rfl
  have hsize : (s.enlist a).transitions.size = s.transitions.size := by
    unfold enlist
    split
    · rfl
    · exact Array.size_modify
  refine ⟨fun b hb => ?_, fun b hb => ?_, Nat.le_of_eq hsize.symm, fun b _ => by rw [hget],
    fun b _ => by rw [hget]; exact ⟨rfl, rfl⟩⟩
  · rcases hrunning with ⟨h, -⟩ | h
    · rwa [h]
    · rw [h]
      exact List.mem_append_left _ hb
  · rw [hget] at hb
    by_cases hab : b = a
    · subst hab
      rcases hrunning with ⟨-, hq⟩ | h
      · exact .inl hq
      · rw [h]
        exact .inr (by simp)
    · simp only [hab, false_and, decide_false, Bool.or_false] at hb
      exact .inl hb

/-- Putting a transition into the list mends the flag of this one. -/
theorem Enlisted.enlist (h : s.Enlisted (fun b => started b ∨ b = a) store)
    (hgoing : ¬started a → (s.transition a).running = true → (s.transition a).stopped = false) :
    (s.enlist a).Enlisted started store := by
  have hget := s.transition_enlist a
  have hlt : (s.transition a).running = true → a < s.transitions.size := by
    intro hr
    by_contra hge
    rw [transition, getD_of_size_le (not_lt.1 hge)] at hr
    cases hr
  constructor
  · intro b hb hr hd
    rw [hget] at hr hd ⊢
    by_cases hab : b = a
    · subst hab
      simp [hlt hr]
    · simp [h.queued b (by simp [hb, hab]) hr hd]
  · intro b hb hr
    rw [hget] at hr ⊢
    by_cases hab : b = a
    · subst hab
      exact hgoing hb hr
    · exact h.going b (by simp [hb, hab]) hr
  · intro b code hc
    rw [hget] at hc
    exact h.binding b code hc

end Scene

/-! ## The regime -/

/-- Runs that keep the invariant and leave some transitions alone. -/
def queuing (started left : TransitionId → Prop) : Regime (Scene U X) (Code U) Unit where
  holds _ w := w.host.1.Enlisted started w.store ∧ Tended Code.Plain w.store
  le _ w _ w' := Aged w.store w'.store ∧ w.host.1.Queues left w'.host.1
  admits _ _ code := code.Plain
  returns _ _ _ _ := True
  fits _ _ _ _ := True
  stops _ := True

section

variable {α β : Type} {started left : TransitionId → Prop}
  {nested : SceneNested U X} {w : SceneTale U X}
  {a : TransitionId} {Q : Unit → SceneTale U X → α → Prop}

section

variable (hw : (queuing started left).holds () w)
include hw

theorem queuing_store {s : Store (Code U)}
    (hs : Aged w.store s) (ht : Tended Code.Plain s) : (queuing started left).Lets () w s :=
  ⟨⟨hw.1.aged hs, ht⟩, hs, .refl _⟩

theorem queuing_scene
    (hs : s.Enlisted started w.store) (hq : w.host.1.Queues left s) :
    (queuing started left).holds () (w.withHost s) ∧ (queuing started left).le () w ()
      (w.withHost s) :=
  ⟨⟨hs, hw.2⟩, .refl _, hq⟩

omit hw in
instance queuing_ok : (queuing (U := U) (X := X) started left).Lawful where
  refl _ _ := ⟨.refl _, .refl _⟩
  trans h h' := ⟨h.1.trans h'.1, h.2.trans h'.2⟩
  kept h := h.1.kept
  note _ _ hw := ⟨hw, .refl _, .refl _⟩
  akin hw hs := queuing_store hw (.akin hs) (hw.2.akin hs)
  amend hw hs _ _ := queuing_store hw (.amended hs) (hw.2.amended hs)
  code hw hb := ⟨hw.2.binding _ _ hb, fun _ _ => trivial⟩
  observer hw ho := hw.2.observer _ _ ho

/-- Code that leaves alone what is not in `started`. -/
abbrev queuingCode (started : TransitionId → Prop) : Regime (Scene U X) (Code U) Unit :=
  queuing started fun a => ¬started a

omit hw in
theorem queuing_of_code (hl : ∀ a, left a → ¬started a) {r : EStateM.Result Stop _ α}
    (h : (queuingCode started).Goes () w Q r) :
    (queuing started left).Goes () w
      (fun g w' x => Q g w' x ∧ (queuingCode started).le () w () w') r := by
  cases r with
  | ok x w' =>
    obtain ⟨g, hle, hw', hq⟩ := h
    exact ⟨g, ⟨hle.1, hle.2.mono hl⟩, hw', hq, hle⟩
  | error stop w' =>
    obtain ⟨g, hle, hw'⟩ := h.2 trivial
    exact ⟨h.1, fun _ => ⟨g, ⟨hle.1, hle.2.mono hl⟩, hw'⟩⟩

omit hw in
theorem queuing_obeys (hl : ∀ a, left a → ¬started a)
    (hN : (queuingCode started).Obeys nested) :
    (queuing started left).Obeys nested where
  code hw hc := (queuing_of_code hl (hN.code hw hc)).mono fun _ _ _ _ _ h => h.1
  get hw hc := (queuing_of_code hl (hN.get hw hc)).mono fun _ _ _ _ _ h => h.1

/-! ## Transitions -/

/-- A change of a transition that does not start it. If `kept` holds it does not stop it
either. -/
structure Transition.Eases (kept : Prop) (f : Transition U → Transition U) : Prop where
  cell : ∀ t, (f t).cell = t.cell
  queued : ∀ t, (f t).queued = t.queued
  running : ∀ t, (f t).running = true → t.running = true
  stopped : ∀ t, (f t).running = true → t.stopped = false → (f t).stopped = false
  binding : ∀ t code, (f t).binding = some code → t.binding = some code ∨ code.Plain
  kept : kept → ∀ t, (f t).running = t.running ∧ (f t).stopped = t.stopped

theorem queuing_ease (hf : Transition.Eases (left a) f) :
    (queuing started left).holds () (w.withHost (w.host.1.modifyTransition a f)) ∧
      (queuing started left).le () w () (w.withHost (w.host.1.modifyTransition a f)) := by
  refine queuing_scene hw (hw.1.modify (fun ha hr hd => ?_) (fun ha hr => ?_) fun code hc => ?_)
    (w.host.1.queues_modify (hf.cell _) (fun h => (hf.queued _).symm.trans h) fun ha =>
      hf.kept ha _)
  · rw [hf.queued]
    exact hw.1.queued a ha (hf.running _ hr) (hf.cell (w.host.1.transition a) ▸ hd)
  · exact hf.stopped _ hr (hw.1.going a ha (hf.running _ hr))
  · exact (hf.binding _ code hc).elim (hw.1.binding a code) id

theorem queuing_modify (hf : Transition.Eases (left a) f) :
    (queuing started left).Keeps nested () w (Transition.modify a f) :=
  .change hw fun hn => queuing_ease hn hf

theorem queuing_modify_then {k : Unit → SceneM U X α} (hf : Transition.Eases (left a) f)
    (h : ∀ w' : SceneTale U X, w'.store = w.store →
      w'.host.1 = w.host.1.modifyTransition a f → (queuing started left).holds () w' →
      (queuing started left).Runs nested () w' (k ()) Q) :
    (queuing started left).Runs nested () w (Transition.modify a f >>= k) Q :=
  .change_then hw (fun hn => queuing_ease hn hf) fun hs => h _ rfl rfl hs

theorem queuing_schedule (a : TransitionId) :
    (queuing started left).Keeps nested () w (Transition.schedule a) := by
  have hweak : w.host.1.Enlisted (fun b => started b ∨ b = a) w.store :=
    ⟨fun b hb => hw.1.queued b fun h => hb (.inl h), fun b hb => hw.1.going b fun h => hb (.inl h),
      hw.1.binding⟩
  exact .change hw fun hn =>
    queuing_scene hn (hweak.enlist (hw.1.going a)) (w.host.1.queues_enlist a)

theorem queuing_retarget (a : TransitionId) :
    (queuing started left).Keeps nested () w (Transition.retarget a) :=
  queuing_modify_then hw ⟨fun _ => rfl, fun _ => rfl, fun _ h => h, fun _ _ h => h,
    fun _ _ h => .inl h, fun _ _ => ⟨rfl, rfl⟩⟩ fun _ _ _ hw' => queuing_schedule hw' a

theorem queuing_start (ha : ¬left a)
    (hgoing : ¬started a → (w.host.1.transition a).stopped = false)
    (hf : ∀ t, ∃ time, f t = { t with started := time, running := true }) :
    (queuing started left).Keeps nested () w
      (Transition.modify a f >>= fun _ => Transition.schedule a) := by
  obtain ⟨time, htime⟩ := hf (w.host.1.transition a)
  have hmodified :
      (w.host.1.modifyTransition a f).Enlisted (fun b => started b ∨ b = a) w.store := by
    have hweak : w.host.1.Enlisted (fun b => started b ∨ b = a) w.store :=
      ⟨fun b hb => hw.1.queued b fun h => hb (.inl h),
        fun b hb => hw.1.going b fun h => hb (.inl h), hw.1.binding⟩
    refine hweak.modify (fun hb => absurd (.inr rfl) hb) (fun hb => absurd (.inr rfl) hb)
      fun code hc => ?_
    rw [htime] at hc
    exact hw.1.binding a code hc
  have hstopped : ¬started a → ((w.host.1.modifyTransition a f).transition a).running = true →
      ((w.host.1.modifyTransition a f).transition a).stopped = false := by
    intro hs _
    rw [Scene.transition_modify]
    split
    · rw [htime]
      exact hgoing hs
    · exact hgoing hs
  have hqueues : w.host.1.Queues left (w.host.1.modifyTransition a f) := by
    refine w.host.1.queues_modify ?_ ?_ fun h => absurd h ha
    · rw [htime]
    · rw [htime]
      exact fun h => h
  -- nothing can happen between the two changes
  exact ⟨(), ⟨.refl _, hqueues.trans (Scene.queues_enlist _ a)⟩,
    ⟨hmodified.enlist hstopped, hw.2⟩, trivial⟩

theorem queuing_drop (c : CellId) :
    (queuing started left).Keeps nested () w (.drop c) :=
  .drop hw (fun _ => trivial) fun hc hn => queuing_store hn (.drop hc) (hn.2.drop hc)

theorem queuing_clearBinding (a : TransitionId) :
    (queuing started left).Keeps nested () w (Transition.clearBinding a) := by
  have hclear : ∀ {w' : SceneTale U X}, (queuing started left).holds () w' →
      (queuing started left).Runs nested () w' (Transition.modify a fun t =>
        { t with tracker := none, binding := none, bindingChanged := false }) fun _ _ _ => True :=
    fun hw' => queuing_modify hw' ⟨fun _ => rfl, fun _ => rfl, fun _ h => h, fun _ _ h => h,
      fun _ _ h => by simp at h, fun _ _ => ⟨rfl, rfl⟩⟩
  refine .ask hw fun hn => ?_
  extract_lets finish
  dsimp only
  cases (w.host.1.transition a).tracker with
  | none => exact hclear hn
  | some t => exact .seq (queuing_drop hn t) fun _ _ _ _ hw' _ => hclear hw'

end

/-! ### With nested code -/

variable (hl : ∀ a, left a → ¬started a) (hN : (queuingCode started).Obeys nested)
include hl hN

section

variable (hw : (queuing started left).holds () w)
include hw

theorem queuing_peek (c : CellId) :
    (queuing started left).Runs nested () w (Act.peek c) fun _ w' _ =>
      (queuingCode started).le () w () w' := by
  have hcode : (queuingCode started).Keeps nested () w (Act.peek c) :=
    .untracked (R := queuingCode started) hw
      (fun _ _ hw' => .get hN hw' (.inr trivial)) Regime.stable_true
  exact (queuing_of_code hl hcode).mono fun _ _ _ _ _ h => h.2

theorem queuing_set (c : CellId) (v : Value) :
    (queuing started left).Runs nested () w (.set c v) fun _ w' _ =>
      (queuingCode started).le () w () w' :=
  (queuing_of_code hl (Regime.Runs.set hN hw (.inr trivial) trivial trivial)).mono
    fun _ _ _ _ _ h => h.2

theorem queuing_animateTo (ha : ¬left a) (v : Value) :
    (queuing started left).Keeps nested () w (Transition.animateTo a v) := by
  refine .ask hw fun hn => .view_then hn fun hn => ?_
  split
  · exact .ret hn trivial
  refine queuing_modify_then hn ⟨fun _ => rfl, fun _ => rfl, fun _ h => h, fun _ _ _ => rfl,
    fun _ _ h => .inl h, fun h => absurd h ha⟩ fun w1 _ hhost1 hw1 => ?_
  have hgoing1 : (w1.host.1.transition a).stopped = false := by
    rw [hhost1, Scene.transition_modify]
    split
    · rfl
    · rename_i hge
      exact congrArg Transition.stopped
        (getD_of_size_le (not_lt.1 fun h => hge ⟨rfl, h⟩) default)
  refine .seq (queuing_peek hl hN hw1 _) fun _ w2 current _ hw2 hle2 => ?_
  refine .ask hw2 fun hn => ?_
  dsimp only [id]
  generalize (if (w2.host.1.transition a).running = true
    then (w2.host.1.transition a).target.same v else current.same v) = there
  split
  · exact .ret hn trivial
  split
  · refine queuing_modify_then hn ⟨fun _ => rfl, fun _ => rfl, fun _ h => by simp at h,
      fun _ h => by simp at h, fun _ _ h => .inl h, fun h => absurd h ha⟩ fun w3 _ _ hw3 => ?_
    exact (queuing_set hl hN hw3 ..).keeps
  · refine queuing_modify_then hn ⟨fun _ => rfl, fun _ => rfl, fun _ h => h, fun _ _ h => h,
      fun _ _ h => .inl h, fun h => absurd h ha⟩ fun w3 _ hhost3 hw3 => ?_
    refine .ask hw3 fun hn => ?_
    refine .seq (queuing_peek hl hN hn _) fun _ w4 time _ hw4 hle4 => ?_
    refine queuing_start hw4 ha (fun hs => ?_) fun t => ⟨_, rfl⟩
    -- reading the cell and the clock has not stopped it
    have hstopped3 : (w3.host.1.transition a).stopped = (w2.host.1.transition a).stopped := by
      rw [hhost3, Scene.transition_modify]
      split
      · rfl
      · rfl
    rw [← hgoing1, ← (hle2.2.left a hs).2, ← hstopped3]
    exact (hle4.2.left a hs).2

theorem queuing_setTransition (ha : ¬left a) (v : Value) :
    (queuing started left).Keeps nested () w (Transition.set a v) := by
  refine .ask hw fun hn => ?_
  split
  · exact .seq (queuing_clearBinding hn a) fun _ _ _ _ hw' _ =>
      queuing_animateTo hl hN hw' ha v
  · exact queuing_animateTo hl hN hn ha v

theorem queuing_evaluateBinding (a : TransitionId) :
    (queuing started left).Keeps nested () w (Transition.evaluateBinding a) := by
  refine .ask hw fun hn => ?_
  dsimp only [id]
  cases hb : (w.host.1.transition a).binding with
  | none => exact .ret hn trivial
  | some code =>
    cases (w.host.1.transition a).tracker with
    | none => exact .ret hn trivial
    | some tracker =>
      refine .seq (.track hn (fun _ => trivial) trivial
        (fun w' _ hw' => .perform (queuing_obeys hl hN) hw' fun _ =>
          hw.1.binding a code hb) fun _ _ _ _ _ _ h => h) fun _ w' r _ hw' _ => ?_
      cases r with
      | done v => exact .ret hw' trivial
      | skipped => exact .ret hw' trivial
      | failed e =>
        refine .view_then hw' fun hn' => ?_
        exact .seq_ret (.record _ hn')

omit hl hN in
theorem queuing_newTracker (name : String)
    {code : Code U Unit} (hcode : code.Plain) :
    (queuing started left).Keeps nested () w (.newTracker name (some code)) := by
  refine .step rfl hw fun hn => ?_
  obtain ⟨hs, hle⟩ := queuing_store hn (.addTracker w.store name (some code))
    (hn.2.addTracker name fun _ h => Option.some.inj h ▸ hcode)
  exact ⟨(), hle, hs, trivial⟩

theorem queuing_follow (ha : ¬left a)
    {code : Code U Value} (hcode : code.Plain) :
    (queuing started left).Keeps nested () w (Transition.setBinding a code) := by
  refine .seq (queuing_clearBinding hw a) fun _ w1 _ _ hw1 _ => ?_
  refine .ask hw1 fun hn => .view_then hn fun hn => ?_
  refine .seq (queuing_newTracker hn _ trivial) fun _ w2 t _ hw2 _ => ?_
  refine queuing_modify_then hw2 ⟨fun _ => rfl, fun _ => rfl, fun _ h => h, fun _ _ h => h,
    fun _ _ h => .inr (Option.some.inj h ▸ hcode), fun h => absurd h ha⟩ fun w3 _ _ hw3 => ?_
  refine .seq (queuing_evaluateBinding hl hN hw3 a) fun _ w4 r _ hw4 _ => ?_
  cases r with
  | none => exact .ret hw4 trivial
  | some v =>
    refine queuing_modify_then hw4 ⟨fun _ => rfl, fun _ => rfl, fun _ h => by simp at h,
      fun _ h => by simp at h, fun _ _ h => .inl h, fun h => absurd h ha⟩ fun w5 _ _ hw5 => ?_
    exact (queuing_set hl hN hw5 ..).keeps

omit hl hN in
theorem queuing_stop (ha : ¬left a) :
    (queuing started left).Keeps nested () w (Transition.stop a) :=
  .seq (queuing_clearBinding hw a) fun _ _ _ _ hw' _ =>
    queuing_modify hw' ⟨fun _ => rfl, fun _ => rfl, fun _ h => by simp at h,
      fun _ h => by simp at h, fun _ _ h => .inl h, fun h => absurd h ha⟩

theorem queuing_create (cell : CellId) (spec : Spec)
    (interpolate : Value → Value → Float → Value) :
    (queuing started left).Keeps nested () w (Transition.create cell spec interpolate) := by
  refine .seq (queuing_peek hl hN hw cell) fun _ w1 target _ hw1 _ => ?_
  refine .host hw1 fun hn => ?_
  set s := w1.host.1
  set fresh : Transition U := { cell, spec, interpolate, target }
  have hget (b : TransitionId) :
      Scene.transition { s with transitions := s.transitions.push fresh } b =
        if b = s.transitions.size then fresh else s.transition b := getD_push ..
  have hnew : s.transition s.transitions.size = default := getD_of_size_le (Nat.le_refl _) _
  have henlisted : Scene.Enlisted started w1.store
      { s with transitions := s.transitions.push fresh } := by
    refine ⟨fun b hb => ?_, fun b hb => ?_, fun b => ?_⟩
    all_goals rw [hget]
    all_goals split
    · exact fun h => by simp [fresh] at h
    · exact hw1.1.queued b hb
    · exact fun h => by simp [fresh] at h
    · exact hw1.1.going b hb
    · exact fun _ h => by simp [fresh] at h
    · exact hw1.1.binding b
  have hqueues : s.Queues left { s with transitions := s.transitions.push fresh } := by
    refine ⟨fun _ h => h, fun b => ?_, by simp, fun b hb => ?_, fun b _ => ?_⟩
    all_goals rw [hget]
    all_goals split
    · exact fun h => by simp [fresh] at h
    · exact .inl
    · exact absurd ‹_› hb.ne
    · rfl
    · rename_i heq
      rw [heq, hnew]
      exact ⟨rfl, rfl⟩
    · exact ⟨rfl, rfl⟩
  obtain ⟨hs, hle⟩ := queuing_scene hn henlisted hqueues
  exact ⟨(), hle, hs, trivial⟩

/-! ## Ticks -/

theorem queuing_step (ha : ¬left a) (now : Int64) :
    (queuing started left).Runs nested () w (Transition.step a now) fun _ w' finished =>
      finished = true → ¬started a → (w'.host.1.transition a).running = false := by
  refine .ask hw fun hn => ?_
  extract_lets move
  have hmove : ∀ {w' : SceneTale U X}, (queuing started left).holds () w' →
      (queuing started left).Runs nested () w' (move ()) fun _ w'' finished =>
        finished = true → ¬started a → (w''.host.1.transition a).running = false := by
    intro w' hw'
    refine .ask hw' fun hn => ?_
    dsimp only [id]
    split
    · rename_i hidle
      have hidle : (w'.host.1.transition a).running = false := by simpa using hidle
      exact .ret hn fun _ _ => hidle
    split
    · exact .ret hn fun h => by simp at h
    split
    · refine queuing_modify_then hn ⟨fun _ => rfl, fun _ => rfl, fun _ h => by simp at h,
        fun _ h => by simp at h, fun _ _ h => .inl h, fun h => absurd h ha⟩
          fun w1 _ hhost1 hw1 => ?_
      refine .seq (queuing_set hl hN hw1 ..) fun _ w2 _ _ hw2 hle2 => ?_
      refine .ret hw2 fun _ hs => ?_
      -- the code that the last write runs has not started it again
      refine (hle2.2.left a hs).1.trans ?_
      rw [hhost1, Scene.transition_modify]
      split
      · rfl
      · rename_i hge
        exact congrArg Transition.running
          (getD_of_size_le (not_lt.1 fun h => hge ⟨rfl, h⟩) default)
    · exact .seq (queuing_set hl hN hn ..) fun _ _ _ _ hw2 _ =>
        .ret hw2 fun h => by simp at h
  split
  · refine queuing_modify_then hn ⟨fun _ => rfl, fun _ => rfl, fun _ h => h, fun _ _ h => h,
      fun _ _ h => .inl h, fun _ _ => ⟨rfl, rfl⟩⟩ fun w1 _ _ hw1 => ?_
    refine .seq (queuing_evaluateBinding hl hN hw1 a) fun _ w2 r _ hw2 _ => ?_
    cases r with
    | none => exact hmove hw2
    | some v =>
      exact .seq (queuing_animateTo hl hN hw2 ha v) fun _ _ _ _ hw3 _ =>
        hmove hw3
  · exact hmove hn

end

end

section

variable {started : TransitionId → Prop} {nested : SceneNested U X} {w w' : SceneTale U X}

/-- Programs of the outside, which leave nothing alone. -/
abbrev queuingAct (started : TransitionId → Prop) : Regime (Scene U X) (Code U) Unit :=
  queuing started fun _ => False

theorem Scene.Enlisted.dismiss {store : Store (Code U)}
    (h : s.Enlisted started store) (ha : ¬started a → (s.transition a).running = true →
      (store.cell (s.transition a).cell).dropped = true) :
    (s.modifyTransition a fun t => { t with queued := false }).Enlisted started store := by
  refine h.modify (fun hs hr hd => ?_) (fun hs hr => h.going a hs hr) (h.binding a)
  rw [ha hs hr] at hd
  cases hd

theorem Scene.queued_dismiss {b : TransitionId}
    (h : ((s.modifyTransition a fun t => { t with queued := false }).transition b).queued = true) :
    b ≠ a ∧ (s.transition b).queued = true := by
  rw [Scene.transition_modify] at h
  split at h
  · simp at h
  · rename_i hb
    refine ⟨fun hba => ?_, h⟩
    have hge : s.transitions.size ≤ b := not_lt.1 fun hlt => hb ⟨hba, hlt⟩
    rw [Scene.transition, getD_of_size_le hge] at h
    cases h

variable (hN : (queuingCode started).Obeys nested)
include hN

/-- What is queued after the transitions in `as` were stepped is among those kept, or was put into
the list meanwhile, or was queued before and not stepped. -/
theorem queuing_stepAll (now : Int64) (as : List TransitionId)
    (hw : (queuingAct started).holds () w) :
    (queuingAct started).Runs nested () w (Transition.stepAll now as) fun _ w' kept =>
      ∀ b, (w'.host.1.transition b).queued = true →
        b ∈ w'.host.1.clock.running ∨ b ∈ kept ∨ (w.host.1.transition b).queued = true ∧
          b ∉ as := by
  have hl : ∀ a, False → ¬started a := nofun
  induction as generalizing w with
  | nil => exact .ret hw fun b hb => .inr (.inr ⟨hb, by simp⟩)
  | cons a rest ih =>
    have hfinish : ∀ {w1 : SceneTale U X} (finished : Bool),
        w.host.1.Queues (fun _ => False) w1.host.1 → (queuingAct started).holds () w1 →
        (finished = true → ¬started a → (w1.host.1.transition a).running = true →
          (w1.store.cell (w1.host.1.transition a).cell).dropped = true) →
        (queuingAct started).Runs nested () w1 (if finished = true then do
            Transition.modify a fun t => { t with queued := false }
            Transition.stepAll now rest
          else do
            let kept ← Transition.stepAll now rest
            return a :: kept) fun _ w' kept =>
          ∀ b, (w'.host.1.transition b).queued = true → b ∈ w'.host.1.clock.running ∨ b ∈ kept ∨
            (w.host.1.transition b).queued = true ∧ b ∉ a :: rest := by
      intro w1 finished hle hw1 hended
      split
      · rename_i hf
        refine .change_then hw1 (fun hn => queuing_scene hn
          (hw1.1.dismiss (hended hf)) (w1.host.1.queues_modify rfl (fun h => by simp at h) nofun))
          fun hw2 => ?_
        refine (ih hw2).mono fun _ w' kept hle2 _ h b hb => ?_
        rcases h b hb with hl | hk | ⟨hq, hrest⟩
        · exact .inl hl
        · exact .inr (.inl hk)
        obtain ⟨hba, hq⟩ := Scene.queued_dismiss hq
        rcases hle.queued b hq with hq | hl
        · exact .inr (.inr ⟨hq, by simp [hba, hrest]⟩)
        · exact .inl (hle2.2.running b hl)
      · refine .seq (ih hw1) fun _ w2 kept hle2 hw2 h => ?_
        refine .ret hw2 fun b hb => ?_
        rcases h b hb with hl | hk | ⟨hq, hrest⟩
        · exact .inl hl
        · exact .inr (.inl (by simp [hk]))
        by_cases hba : b = a
        · exact .inr (.inl (by simp [hba]))
        rcases hle.queued b hq with hq | hl
        · exact .inr (.inr ⟨hq, by simp [hba, hrest]⟩)
        · exact .inl (hle2.2.running b hl)
    refine .seq (P := fun _ w1 alive => w1.host.1 = w.host.1 ∧
      w1.store = w.store ∧ (alive = false → (w.host.1.transition a).stopped = true ∨
        (w.store.cell (w.host.1.transition a).cell).dropped = true)) ?_
      fun _ w1 alive hle1 hw1 halive => ?_
    · refine .ask hw fun hn => ?_
      split
      · rename_i hstopped
        exact .ret hn ⟨rfl, rfl, fun _ => .inl hstopped⟩
      · refine .view_then hn fun hn => ?_
        refine .ret hn ⟨rfl, rfl, fun h => .inr ?_⟩
        have h : (!(w.store.cell (w.host.1.transition a).cell).dropped) = false := h
        simpa using h
    obtain ⟨hhost, hstore, hdead⟩ := halive
    split
    · refine .seq (queuing_step hl hN hw1 not_false now)
        fun _ w2 finished hle2 hw2 hidle => hfinish finished (hle1.2.trans hle2.2) hw2 ?_
      intro hf hs hr
      rw [hidle hf hs] at hr
      cases hr
    · rename_i halive
      refine .pure_then hw1 fun hn => hfinish true (by rw [← hhost]; exact .refl _) hn ?_
      intro _ hs hr
      show (w1.store.cell (w1.host.1.transition a).cell).dropped = true
      have hr : (w1.host.1.transition a).running = true := hr
      rw [hhost] at hr ⊢
      rw [hstore]
      refine (hdead (by simpa using halive)).resolve_left fun hstopped => ?_
      rw [hw.1.going a hs hr] at hstopped
      cases hstopped

theorem tick_listed {now : Int64} (hw : (queuingAct started).holds () w) (hlisted : w.host.1.Listed)
    (hr : (Clock.tick now).tell nested w = .ok () w') :
    (queuingAct started).holds () w' ∧ w'.host.1.Listed := by
  have hl : ∀ a, False → ¬started a := nofun
  obtain ⟨cell, w1, hask, hr⟩ := Act.of_tell_bind hr
  cases hask
  obtain ⟨_, w2, hset, hr⟩ := Act.of_tell_bind hr
  obtain ⟨_, hle2, hw2, -⟩ := (queuing_set hl hN (w := w.beat) hw ..).of_ok hset
  have hlisted2 := hle2.2.listed hlisted
  -- the list is taken away, so that what is queued is now in what was taken
  obtain ⟨running, w3, htake, hr⟩ := Act.of_tell_bind hr
  cases htake
  obtain ⟨kept, w4, hstep, hr⟩ := Act.of_tell_bind hr
  obtain ⟨_, hle4, hw4, hkept⟩ := (queuing_stepAll hN now _ (w := w2.beat.withHost
    { w2.host.1 with clock := { w2.host.1.clock with running := [] } })
    ⟨{ hw2.1 with }, hw2.2⟩).of_ok hstep
  cases hr
  refine ⟨⟨{ hw4.1 with }, hw4.2⟩, fun b hb => List.mem_append.2 ?_⟩
  rcases hkept b hb with hl | hk | ⟨hq, hnot⟩
  · exact .inr hl
  · exact .inl hk
  · exact absurd (hlisted2 b hq) hnot

omit hN in
theorem listed_of_runs {α : Type} {act : SceneM U X α} {x : α} {Q : Unit → SceneTale U X → α → Prop}
    (h : (queuingAct started).Runs nested () w act Q) (hlisted : w.host.1.Listed)
    (hr : act.tell nested w = .ok x w') : (queuingAct started).holds () w' ∧ w'.host.1.Listed := by
  obtain ⟨_, hle, hw', -⟩ := h.of_ok hr
  exact ⟨hw', hle.2.listed hlisted⟩

theorem queuing_time (hw : (queuingAct started).holds () w) :
    (queuingAct started).Keeps nested () w Clock.time :=
  .ask hw fun hn => .seq
    (queuing_peek (nofun : ∀ a, False → ¬started a) hN hn _) fun _ _ _ _ hw' _ =>
      .ret hw' trivial

theorem moveTo_listed {now : Int64} (hw : (queuingAct started).holds () w)
    (hlisted : w.host.1.Listed) (hr : (Clock.moveTo now).tell nested w = .ok () w') :
    (queuingAct started).holds () w' ∧ w'.host.1.Listed := by
  obtain ⟨ticking, w1, hask, hr⟩ := Act.of_tell_bind hr
  cases hask
  split at hr
  · exact listed_of_runs (.record _ (w := w.beat) hw) hlisted hr
  obtain ⟨current, w2, htime, hr⟩ := Act.of_tell_bind hr
  obtain ⟨hw2, hlisted2⟩ := listed_of_runs (queuing_time hN (w := w.beat) hw) hlisted htime
  have hmove : ∀ {u : SceneTale U X} {time : Int64}, (queuingAct started).holds () u →
      u.host.1.Listed → (do
        Act.change fun s => { s with clock := { s.clock with ticking := true } }
        .ensure (Clock.tick time) fun s =>
          { s with clock := { s.clock with ticking := false } } : SceneM U X Unit).tell nested u =
        .ok () w' → (queuingAct started).holds () w' ∧ w'.host.1.Listed := by
    intro u time hu hlist hr
    obtain ⟨_, w3, hchange, hr⟩ := Act.of_tell_bind hr
    cases hchange
    obtain ⟨u', htick, rfl⟩ := Act.of_tell_ensure hr
    obtain ⟨hu', hlist'⟩ := tick_listed hN
      (w := (World.withHost u.beat { u.host.1 with
        clock := { u.host.1.clock with ticking := true } }).noting .control)
      ⟨{ hu.1 with }, hu.2⟩ hlist htick
    exact ⟨⟨{ hu'.1 with }, hu'.2⟩, hlist'⟩
  split at hr
  · obtain ⟨time, w3, htime, hr⟩ := Act.of_tell_bind hr
    obtain ⟨hw3, hlisted3⟩ := listed_of_runs (queuing_time hN hw2) hlisted2 htime
    exact hmove hw3 hlisted3 hr
  · obtain ⟨time, w3, hpure, hr⟩ := Act.of_tell_bind hr
    cases hpure
    exact hmove (u := w2.beat) hw2 hlisted2 hr

end

end ReactiveTree
