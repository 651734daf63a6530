import ReactiveTree.Proofs.Cell.Slots

/-!
# The chronicle of a run

A store does not tell what an evaluation has read, or in which order evaluations began and
ended. This file runs programs once more and lets them keep a chronicle: a list of events,
the latest first, each with the store in which it happened. The chronicle stands beside
the state of the host and nothing depends on it. Forgetting it gives the plain run back
(`Act.untold_toldSession`), so that what is shown of every chronicle is shown of every run.
-/

namespace ReactiveTree

inductive Event where
  /-- Code of others has control. -/
  | control
  | began (c : CellId)
  /-- An evaluation has ended; it completed, or was cut short. -/
  | ended (c : CellId) (completed : Bool)
  /-- A read returned a value. -/
  | got (c : CellId) (v : Value)
  /-- A cell was asked for that is being evaluated. -/
  | refused (c : CellId)
  /-- A cell is about to be written, bound, linked or invalidated. -/
  | wrote (c : CellId)
  /-- A region begins whose reads do not count for the evaluation around it. -/
  | sheltered
  | bared

/-- An event, and the store in which it happened. -/
structure Moment (K : Type → Type) where
  event : Event
  store : Store K

/-- The moments of a run, the latest first. -/
abbrev Chronicle (K : Type → Type) := List (Moment K)

/-- A world with the chronicle of what happened in it. -/
abbrev Tale (S : Type) (K : Type → Type) := World (S × Chronicle K) K

/-- Runs that keep a chronicle. -/
abbrev Told (S : Type) (K : Type → Type) := Run (S × Chronicle K) K

namespace World

variable {S : Type} {K : Type → Type}

def noting (e : Event) (w : World (S × Chronicle K) K) : World (S × Chronicle K) K :=
  ⟨w.store, w.host.1, ⟨e, w.store⟩ :: w.host.2⟩

abbrev beat (w : World (S × Chronicle K) K) : World (S × Chronicle K) K := w.noting .control

def past (w : World (S × Chronicle K) K) : Chronicle K := w.host.2

def untold (w : World (S × Chronicle K) K) : World S K := ⟨w.store, w.host.1⟩

end World

namespace Told

variable {S : Type} {K : Type → Type} {α : Type}

def note (e : Event) : Told S K Unit := fun w => .ok () (w.noting e)

/-- `Run.evaluate` between two events. -/
def evaluate (c : CellId) (body : Told S K α) : Told S K (Except CycleError α) :=
  fun w =>
    match Run.evaluate c body (w.noting (.began c)) with
    | .ok (.ok a) w => .ok (.ok a) (w.noting (.ended c true))
    | .ok (.error e) w => .ok (.error e) (w.noting (.ended c false))
    | .error stop w => .error stop (w.noting (.ended c false))

/-- `Run.untracked` between two events. -/
def untracked (body : Told S K α) : Told S K α :=
  fun w =>
    match Run.untracked body (w.noting .sheltered) with
    | .ok a w => .ok a (w.noting .bared)
    | .error stop w => .error stop (w.noting .bared)

/-- The world in which an untracked region runs. -/
def sheltering (w : World (S × Chronicle K) K) : World (S × Chronicle K) K :=
  ⟨w.store.pushFrame none, (w.noting .sheltered).host⟩

/-- The world after an untracked region that ends in `w`. -/
def baring (w : World (S × Chronicle K) K) : World (S × Chronicle K) K :=
  World.noting .bared ⟨w.store.popFrame, w.host⟩

theorem untracked_eq (body : Told S K α) (w : World (S × Chronicle K) K) :
    untracked body w = match body (sheltering w) with
      | .ok a w' => .ok a (baring w')
      | .error stop w' => .error stop (baring w') := by
  unfold untracked Run.untracked sheltering
  simp only [World.noting]
  cases body ⟨w.store.pushFrame none, w.host.1, ⟨.sheltered, w.store⟩ :: w.host.2⟩ <;> rfl

variable (nested : Nested (S × Chronicle K) K)

def refresh (c : CellId) (b : Binding K) : Told S K (Except CycleError Unit) := do
  let bindings ← Run.view fun s => (s.cell c).bindings
  evaluate c do
    let v ← Run.compute nested b
    Run.update fun s => s.modify c fun cell =>
      if cell.bindings = bindings && !cell.dropped then { cell with value := v } else cell

def tryGet (c : CellId) : Told S K (Value × Option CycleError) := do
  let cell ← Run.view fun s => s.cell c
  if cell.dropped then
    note (.got c cell.value)
    return (cell.value, none)
  Run.update fun s => s.track c
  match cell.state with
  | .clean =>
    note (.got c cell.value)
    return (cell.value, none)
  | .evaluating =>
    note (.refused c)
    throw (.cycle (← Run.view fun s => s.cycleError c))
  | .dirty =>
    match cell.binding with
    | none =>
      Run.update fun s => s.modify c fun cell => { cell with state := .clean }
      note (.got c cell.value)
      return (cell.value, none)
    | some b =>
      let result ← refresh nested c b
      let v ← Run.view fun s => (s.cell c).value
      match result with
      | .ok () =>
        note (.got c v)
        return (v, none)
      | .error e => return (v, some e)

def get (c : CellId) : Told S K Value := do
  let (v, error) ← tryGet nested c
  match error with
  | none => return v
  | some e =>
    Run.reportError e
    return v

def trackWork (t : CellId) (body : Told S K α) : Told S K (Evaluation α) := do
  let cell ← Run.view fun s => s.cell t
  if cell.dropped then return .skipped
  if cell.state = .evaluating then
    note (.refused t)
    throw (.cycle (← Run.view fun s => s.cycleError t))
  match ← evaluate t body with
  | .ok a => return .done a
  | .error e => return .failed e

/-- A write, announced by an event. -/
def writing (c : CellId) (body : Told S K α) : Told S K α := fun w => body (w.noting (.wrote c))

/-- A step of code of others. -/
def control (body : Told S K α) : Told S K α := fun w => body w.beat

end Told

namespace Act

variable {S : Type} {K : Type → Type} {α : Type}

/-- Runs a program that keeps a chronicle, given the meaning of nested code. -/
def tell (nested : Nested (S × Chronicle K) K) {α : Type} : Act S K α → Told S K α
  | .pure a => Told.control fun w => .ok a w
  | .bind x f => fun w =>
    match x.tell nested w with
    | .ok a w => (f a).tell nested w
    | .error stop w => .error stop w
  | .host f => Told.control fun ⟨store, state, past⟩ =>
    let (a, state) := f state
    .ok a ⟨store, state, past⟩
  | .view f => Told.control (Run.view f)
  | .record e => Told.control (Run.update fun s => s.record e)
  | .panic text => Told.control (throw (.panic text))
  | .perform c => Told.control (nested.code c)
  | .untracked body => Told.control (Told.untracked (body.tell nested))
  | .ensure body after => Told.control (Run.ensure (body.tell nested) fun h => (after h.1, h.2))
  | .new name v => Told.control (Run.step fun s => s.add { name, value := v })
  | .newBound name c => Told.control (Run.step fun s =>
      s.add { name, binding := some (.code c), bindings := 1, state := .dirty })
  | .newTracker name onDirty => Told.control (Run.step fun s => addTracker s name onDirty)
  | .tryGet c => Told.control (Run.onProperty c (Told.tryGet nested c))
  | .get c => Told.control (Run.onProperty c (Told.get nested c))
  | .set c v => Told.control (Run.onProperty c (Told.writing c (Run.set nested c v)))
  | .setBinding c code =>
    Told.control (Run.onProperty c (Told.writing c (Run.bind nested c (.code code))))
  | .link a b =>
    Told.control (Run.onProperty a (Run.onProperty b (Told.writing a (Run.link nested a b))))
  | .drop c => Told.control (Run.onCell c (Run.update fun s => s.drop c))
  | .observe c code => Told.control (Run.onCell c (Run.step fun s => s.observe c code))
  | .unobserve o => Told.control (Run.update fun s => s.unobserve o)
  | .track t body => Told.control (Run.onTracker t (Told.trackWork t (body.tell nested)))
  | .invalidate t =>
    Told.control (Run.onTracker t (Told.writing t (Run.invalidateTracker nested t)))

variable (meaning : {α : Type} → K α → Act S K α)

/-- The meaning of code nested at most `depth` levels deep that keeps a chronicle. -/
def toldTo : (depth : Nat) → Nested (S × Chronicle K) K
  | 0 => { code := fun _ => throw .tooDeep, get := fun _ => throw .tooDeep }
  | depth + 1 =>
    { code := fun c => (meaning c).tell (toldTo depth)
      get := fun c => (Act.get c).tell (toldTo depth) }

/-- The world a run leaves behind, however it ended. -/
def outcome : EStateM.Result Stop (World S K) α → World S K
  | .ok _ w => w
  | .error _ w => w

/-- Runs programs one after another. One that stops does not keep the later ones from
running. -/
def session (depth : Nat) (acts : List (Act S K Unit)) (w : World S K) : World S K :=
  acts.foldl (fun w act => outcome (act.runTo meaning depth w)) w

def toldSession (depth : Nat) (acts : List (Act S K Unit)) (w : World (S × Chronicle K) K) :
    World (S × Chronicle K) K :=
  acts.foldl (fun w act => outcome (act.tell (toldTo meaning depth) w)) w

end Act

theorem Run.fire_cons {S : Type} {K : Type → Type} (nested : Nested S K) (o : ObserverId)
    (rest : List ObserverId) (w : World S K) :
    Run.fire nested (o :: rest) w = (w.store.observers[o]?).elim (Run.fire nested rest w) fun x =>
      if x.stopped = true then Run.fire nested rest w
      else EStateM.bind (nested.code x.code) (fun _ => Run.fire nested rest) w := by
  have hview (f : Option _ → Run S K Unit) :
      ((Run.view fun s => s.observers[o]?) >>= f) w = f w.store.observers[o]? w := rfl
  rw [Run.fire, hview]
  cases w.store.observers[o]? with
  | none => rfl
  | some x =>
    dsimp only [Option.elim]
    split <;> rfl

/-! ## Forgetting the chronicle -/

namespace Told

variable {S : Type} {K : Type → Type} {α β : Type} {x : Told S K α} {y : Run S K α}

def untoldResult : EStateM.Result Stop (World (S × Chronicle K) K) α →
    EStateM.Result Stop (World S K) α
  | .ok a w => .ok a w.untold
  | .error stop w => .error stop w.untold

/-- `x` does what `y` does and keeps a chronicle. -/
def Echoes (x : Told S K α) (y : Run S K α) : Prop := ∀ w, untoldResult (x w) = y w.untold

theorem echoes_pure (a : α) : Echoes (pure a : Told S K α) (pure a) := fun _ => rfl

theorem echoes_throw (stop : Stop) : Echoes (throw stop : Told S K α) (throw stop) :=
  fun _ => rfl

theorem echoes_view (f : Store K → α) : Echoes (Run.view f : Told S K α) (Run.view f) :=
    fun _ => rfl

theorem echoes_update (f : Store K → Store K) :
    Echoes (Run.update f : Told S K Unit) (Run.update f) := fun _ => rfl

theorem echoes_step (f : Store K → α × Store K) : Echoes (Run.step f : Told S K α) (Run.step f) :=
  fun _ => rfl

theorem Echoes.bind {f : α → Told S K β} {g : α → Run S K β}
    (h : Echoes x y) (hf : ∀ a, Echoes (f a) (g a)) : Echoes (x >>= f) (y >>= g) := by
  intro w
  have hw := h w
  show untoldResult (EStateM.bind x f w) = EStateM.bind y g w.untold
  unfold EStateM.bind
  rw [← hw]
  cases x w with
  | ok a w => exact hf a w
  | error stop w => rfl

theorem Echoes.noted (e : Event) (h : Echoes x y) :
    Echoes (note e >>= fun _ => x) y := fun w => h (w.noting e)

theorem Echoes.control (h : Echoes x y) :
    Echoes (control x) y := fun w => h w.beat

theorem Echoes.writing (c : CellId) (h : Echoes x y) :
    Echoes (writing c x) y := fun w => h (w.noting (.wrote c))

theorem Echoes.ite {x x' : Told S K α} {y y' : Run S K α} {p : Prop} [Decidable p]
    (h : Echoes x y) (h' : Echoes x' y') : Echoes (if p then x else x') (if p then y else y') := by
  split
  · exact h
  · exact h'

theorem Echoes.onCell (c : CellId) (h : Echoes x y) :
    Echoes (Run.onCell c x) (Run.onCell c y) :=
  (echoes_view _).bind fun _ => h.ite (echoes_throw _)

theorem Echoes.onProperty (c : CellId) (h : Echoes x y) :
    Echoes (Run.onProperty c x) (Run.onProperty c y) :=
  ((echoes_view _).bind fun _ => (echoes_throw _).ite h).onCell c

theorem Echoes.onTracker (t : CellId) (h : Echoes x y) :
    Echoes (Run.onTracker t x) (Run.onTracker t y) :=
  ((echoes_view _).bind fun _ => h.ite (echoes_throw _)).onCell t

theorem Echoes.untracked (h : Echoes x y) :
    Echoes (untracked x) (Run.untracked y) := by
  intro w
  have hw := h (sheltering w)
  rw [Told.untracked_eq]
  unfold Run.untracked
  simp only [World.untold, sheltering, World.noting] at hw ⊢
  rw [← hw]
  cases x ⟨w.store.pushFrame none, w.host.1, ⟨.sheltered, w.store⟩ :: w.host.2⟩ <;> rfl

theorem Echoes.ensure (h : Echoes x y) (after : S → S) :
    Echoes (Run.ensure x fun host => (after host.1, host.2)) (Run.ensure y after) := by
  intro w
  have hw := h w
  unfold Run.ensure
  rw [← hw]
  cases x w <;> rfl

theorem Echoes.evaluate (c : CellId) (h : Echoes x y) :
    Echoes (evaluate c x) (Run.evaluate c y) := by
  intro w
  have hw := h ⟨w.store.enter c, (w.noting (.began c)).host⟩
  unfold Told.evaluate Run.evaluate
  simp only [World.untold, World.noting] at hw ⊢
  rw [← hw]
  cases x ⟨w.store.enter c, w.host.1, ⟨.began c, w.store⟩ :: w.host.2⟩ with
  | ok a w => rfl
  | error stop w =>
    simp only [untoldResult, World.untold]
    cases stop with
    | cycle e => by_cases h0 : (w.store.leave c false).active = 0 <;> simp only [h0] <;> rfl
    | panic text => rfl
    | unknownCell d => rfl
    | tooDeep => rfl

/-- Nested code that keeps a chronicle does what the nested code without one does. -/
structure NestedEchoes (nested : Nested (S × Chronicle K) K) (plain : Nested S K) : Prop where
  code : ∀ {α : Type} (c : K α), Echoes (nested.code c) (plain.code c)
  get : ∀ c, Echoes (nested.get c) (plain.get c)

namespace NestedEchoes

variable {nested : Nested (S × Chronicle K) K} {plain : Nested S K}

section

variable (h : NestedEchoes nested plain)
include h

theorem compute (b : Binding K) :
    Echoes (Run.compute nested b) (Run.compute plain b) := by
  cases b with
  | follow root => exact h.get root
  | code c => exact h.code c

theorem refresh (c : CellId) (b : Binding K) :
    Echoes (refresh nested c b) (Run.refresh plain c b) :=
  (echoes_view _).bind fun _ => .evaluate c <| (h.compute b).bind fun _ => echoes_update _

theorem tryGet (c : CellId) :
    Echoes (tryGet nested c) (Run.tryGet plain c) := by
  refine (echoes_view _).bind fun cell => ?_
  refine .ite (.noted _ (echoes_pure _)) ?_
  refine (echoes_update _).bind fun _ => ?_
  cases cell.state with
  | clean => exact .noted _ (echoes_pure _)
  | evaluating => exact .noted _ ((echoes_view _).bind fun _ => echoes_throw _)
  | dirty =>
    cases cell.binding with
    | none => exact (echoes_update _).bind fun _ => .noted _ (echoes_pure _)
    | some b =>
      refine (h.refresh c b).bind fun result => (echoes_view _).bind fun v => ?_
      cases result with
      | ok u => exact .noted _ (echoes_pure _)
      | error e => exact echoes_pure _

theorem get' (c : CellId) :
    Echoes (Told.get nested c) (Run.get plain c) := by
  refine (h.tryGet c).bind fun result => ?_
  obtain ⟨v, error⟩ := result
  cases error with
  | none => exact echoes_pure _
  | some e => exact (echoes_update _).bind fun _ => echoes_pure _

theorem fire (observers : List ObserverId) :
    Echoes (Run.fire nested observers) (Run.fire plain observers) := by
  induction observers with
  | nil => exact echoes_pure _
  | cons o rest ih =>
    refine (echoes_view _).bind fun observer => ?_
    cases observer with
    | none => exact ih
    | some observer => exact .ite ih ((h.code _).bind fun _ => ih)

theorem notify (cells : List CellId) :
    Echoes (Run.notify nested cells) (Run.notify plain cells) := by
  induction cells with
  | nil => exact echoes_pure _
  | cons c rest ih =>
    exact (echoes_view _).bind fun _ => .ite ih ((h.fire _).bind fun _ => ih)

theorem invalidate (c : CellId) :
    Echoes (Run.invalidate nested c) (Run.invalidate plain c) :=
  (echoes_step _).bind fun _ => h.notify _

theorem disturb (c : CellId) :
    Echoes (Run.disturb nested c) (Run.disturb plain c) :=
  (echoes_step _).bind fun _ => .ite (h.invalidate c) (echoes_pure _)

theorem set (c : CellId) (v : Value) :
    Echoes (Run.set nested c v) (Run.set plain c v) := by
  refine (echoes_view _).bind fun _ => .ite (echoes_update _) ?_
  refine (echoes_view _).bind fun root => (echoes_view _).bind fun _ => ?_
  have hwrite : Echoes (do
      unless ← Run.view fun s => (s.cell root).value.same v do
        Run.update fun s => s.modify root fun cell => { cell with value := v }
        Run.invalidate nested root) (do
      unless ← Run.view fun s => (s.cell root).value.same v do
        Run.update fun s => s.modify root fun cell => { cell with value := v }
        Run.invalidate plain root) :=
    (echoes_view _).bind fun _ =>
      .ite (echoes_pure _) ((echoes_update _).bind fun _ => h.invalidate root)
  exact .ite ((echoes_update _).bind fun _ => hwrite) hwrite

theorem bind (c : CellId) (b : Binding K) :
    Echoes (Run.bind nested c b) (Run.bind plain c b) :=
  (echoes_view _).bind fun _ =>
    .ite (echoes_pure _) ((echoes_update _).bind fun _ => h.disturb c)

theorem link (a b : CellId) :
    Echoes (Run.link nested a b) (Run.link plain a b) :=
  (echoes_view _).bind fun _ => .ite (echoes_pure _) <|
    (h.bind a _).bind fun _ => (echoes_update _).bind fun _ => echoes_pure _

omit h in
theorem trackWork (t : CellId) (h : Echoes x y) :
    Echoes (trackWork t x) (Run.trackWork t y) := by
  refine (echoes_view _).bind fun cell => .ite (echoes_pure _) ?_
  refine .ite (.noted _ ((echoes_view _).bind fun _ => echoes_throw _)) ?_
  refine (h.evaluate t).bind fun result => ?_
  cases result <;> exact echoes_pure _

theorem invalidateTracker (t : CellId) :
    Echoes (Run.invalidateTracker nested t) (Run.invalidateTracker plain t) :=
  (echoes_view _).bind fun _ =>
    .ite (echoes_pure _) ((echoes_update _).bind fun _ => h.disturb t)

end

end NestedEchoes

end Told

namespace Act

variable {S : Type} {K : Type → Type} {α : Type}

open Told

theorem tell_echoes {nested : Nested (S × Chronicle K) K} {plain : Nested S K}
    (h : NestedEchoes nested plain) (act : Act S K α) :
    Echoes (act.tell nested) (act.interpret plain) := by
  induction act with
  | pure a => exact .control fun _ => rfl
  | bind x f ihx ihf =>
    intro w
    simp only [tell, interpret]
    rw [← ihx w]
    cases x.tell nested w with
    | ok a w => exact ihf a w
    | error stop w => rfl
  | host f => exact .control fun _ => rfl
  | view f => exact .control (echoes_view f)
  | record e => exact .control (echoes_update _)
  | panic text => exact .control (echoes_throw _)
  | perform c => exact .control (h.code c)
  | untracked body ih => exact .control ih.untracked
  | ensure body after ih => exact .control (ih.ensure after)
  | new name v => exact .control (echoes_step _)
  | newBound name c => exact .control (echoes_step _)
  | newTracker name onDirty => exact .control (echoes_step _)
  | tryGet c => exact .control ((h.tryGet c).onProperty c)
  | get c => exact .control ((h.get' c).onProperty c)
  | set c v => exact .control (((h.set c v).writing c).onProperty c)
  | setBinding c code => exact .control (((h.bind c _).writing c).onProperty c)
  | link a b => exact .control ((((h.link a b).writing a).onProperty b).onProperty a)
  | drop c => exact .control ((echoes_update _).onCell c)
  | observe c code => exact .control ((echoes_step _).onCell c)
  | unobserve o => exact .control (echoes_update _)
  | track t body ih => exact .control ((NestedEchoes.trackWork t ih).onTracker t)
  | invalidate t => exact .control (((h.invalidateTracker t).writing t).onTracker t)

variable (meaning : {α : Type} → K α → Act S K α)

theorem toldTo_echoes (depth : Nat) :
    NestedEchoes (toldTo meaning depth) (nestedTo meaning depth) := by
  induction depth with
  | zero => exact ⟨fun _ => echoes_throw _, fun _ => echoes_throw _⟩
  | succ depth ih => exact ⟨fun c => tell_echoes ih (meaning c), fun c => tell_echoes ih (.get c)⟩

theorem outcome_untold (r : EStateM.Result Stop (Tale S K) α) :
    (outcome r).untold = outcome (untoldResult r) := by
  cases r <;> rfl

theorem untold_toldSession (depth : Nat) (acts : List (Act S K Unit)) (w : Tale S K) :
    (toldSession meaning depth acts w).untold = session meaning depth acts w.untold := by
  induction acts generalizing w with
  | nil => rfl
  | cons act acts ih =>
    have hact := tell_echoes (toldTo_echoes meaning depth) act w
    show (toldSession meaning depth acts (outcome (act.tell (toldTo meaning depth) w))).untold =
      session meaning depth acts (outcome (act.runTo meaning depth w.untold))
    rw [ih, outcome_untold, hact]
    rfl

end Act
end ReactiveTree
