import ReactiveTree.Proofs.Animation.Queue
import ReactiveTree.Proofs.Scene.DeclaredKinds

/-!
# No transition is lost

A transition that is running and whose cell lives is in the clock's list, so that later ticks come
to it (`session_running_listed`). Two things can take it out of the list while it runs: its own
last step, if the code that this step runs starts it again, and a tick that does not return
(`restarted_at_the_end_lost`). So the statement is about the transitions that are not started by
code, and about sessions whose ticks return.
-/

namespace ReactiveTree

open Store

variable {U X : Type}
variable {w : SceneTale U X} {started : TransitionId → Prop}

/-- User code that does with cells what it likes, and starts, binds and stops only the
transitions in `started`. -/
structure Host.Steers (host : Host U X) (started : TransitionId → Prop) : Prop where
  value : ∀ u self args, Act.Composed (Steering started) (host.value u self args)
  model : ∀ u self, Act.Composed (Steering started) (host.model u self)
  peer : ∀ u change, Act.Composed (Steering started) (host.peer u change)

/-- The programs that move the clock. -/
inductive Tick : SceneM U X Unit → Prop where
  | moveTo (now : Int64) : Tick (Clock.moveTo now)
  | advance (dt : Int64) : Tick (Clock.advance dt)

/-- Every act of the session that `p` asks for returns. -/
def Act.Returning {S : Type} {K : Type → Type} (meaning : {α : Type} → K α → Act S K α)
    (depth : Nat) (p : Act S K Unit → Prop) : List (Act S K Unit) → World S K → Prop
  | [], _ => True
  | act :: acts, w => (p act → ∃ u, act.runTo meaning depth w = .ok () u) ∧
      Returning meaning depth p acts (outcome (act.runTo meaning depth w))

/-- Runs a session and says whether all of it returned. -/
def Act.allReturn {S : Type} {K : Type → Type} (meaning : {α : Type} → K α → Act S K α)
    (depth : Nat) : List (Act S K Unit) → World S K → Bool
  | [], _ => true
  | act :: acts, w =>
    match act.runTo meaning depth w with
    | .ok _ w => allReturn meaning depth acts w
    | .error _ _ => false

theorem Act.returning_of_allReturn {S : Type} {K : Type → Type}
    {meaning : {α : Type} → K α → Act S K α} {depth : Nat} {p : Act S K Unit → Prop}
    {acts : List (Act S K Unit)} {w : World S K} (h : allReturn meaning depth acts w = true) :
    Returning meaning depth p acts w := by
  induction acts generalizing w with
  | nil => trivial
  | cons act acts ih =>
    unfold allReturn at h
    cases hr : act.runTo meaning depth w with
    | ok x u =>
      rw [hr] at h
      exact ⟨fun _ => ⟨u, hr⟩, hr ▸ ih h⟩
    | error stop u =>
      rw [hr] at h
      cases h

section

variable {α : Type} {started left free : TransitionId → Prop}
  {nested : SceneNested U X} {w w' : SceneTale U X}
  (hl : ∀ a, left a → ¬started a) (hN : (queuingCode started).Obeys nested)
include hl hN

theorem queuing_steering {act : SceneM U X α} (h : Steering free act)
    (hfree : ∀ a, free a → ¬left a) (hw : (queuing started left).holds () w) :
    (queuing started left).Keeps nested () w act := by
  have hN' := queuing_obeys hl hN
  cases h with
  | new name v =>
    refine .step rfl hw fun hn => ?_
    obtain ⟨hs, hle⟩ := queuing_store hn (.add w.store { name, value := v }) (hn.2.add _ nofun)
    exact ⟨(), hle, hs, trivial⟩
  | @newBound name code hcode =>
    refine .step rfl hw fun hn => ?_
    obtain ⟨hs, hle⟩ := queuing_store hn (.add w.store
      { name, binding := some (.code code), bindings := 1, state := .dirty })
      (hn.2.add _ fun _ h => by cases h; exact hcode)
    exact ⟨(), hle, hs, trivial⟩
  | newTracker name u self => exact queuing_newTracker hw name trivial
  | read c =>
    exact (Regime.Runs.get hN' hw (.inr trivial)).keeps
  | tryRead c =>
    exact (Regime.Runs.tryGet hN' hw (.inr trivial)).keeps
  | write c v => exact .set hN' hw (.inr trivial) trivial trivial
  | bind c hcode =>
    refine .setBinding hN' hw (.inr trivial) trivial fun w' _ hw' hstore _ _ => ?_
    rw [← hstore]
    exact queuing_store hw' (.rebind ..) (hw'.2.rebind fun _ h => by cases h; exact hcode)
  | link a b =>
    refine .link hw (fun _ => trivial) trivial fun hn _ => queuing_ok.linkTo hN' hn
      (fun _ => trivial) (fun _ _ => queuing_store hn (.rebind ..) (hn.2.rebind nofun))
        fun _ _ w' _ hw' => ?_
    have hpair := queuing_store hw' (.pair _ a (w.store.linkRoot b)) (hw'.2.pair _)
    exact ⟨(), hpair.1, hpair.2, trivial⟩
  | drop c => exact queuing_drop hw c
  | observe c u self =>
    have hcode : (Code.effect u self).Plain := trivial
    exact (Regime.Runs.observe hw (fun _ => trivial) fun hn =>
      queuing_store hn (.observe ..) (hn.2.observe hcode)).keeps
  | unobserve o =>
    exact .unobserve hw fun hn =>
      queuing_store hn (.unobserve ..) (hn.2.unobserve o)
  | track t hcode =>
    exact (Regime.Runs.track hw (fun _ => trivial) trivial (fun _ _ hw' =>
      (Regime.Runs.perform hN' hw' fun _ => hcode).keeps)
      Regime.stable_true).keeps
  | invalidate t => exact .invalidate hN' hw (fun _ => trivial) trivial
  | perform hcode => exact .perform hN' hw fun _ => hcode
  | animate cell spec interpolate => exact queuing_create hl hN hw cell spec interpolate
  | start ha v => exact queuing_setTransition hl hN hw (hfree _ ha) v
  | follow ha hcode => exact queuing_follow hl hN hw (hfree _ ha) hcode
  | stop ha => exact queuing_stop hw (hfree _ ha)
  | aside f =>
    refine .host hw fun hn => ?_
    obtain ⟨hs, hle⟩ := queuing_scene (s := { w.host.1 with user := (f w.host.1.user).2 }) hn
      { hw.1 with } { Scene.Queues.refl w.host.1 with }
    exact ⟨(), hle, hs, trivial⟩

theorem queuing_composed {act : SceneM U X α} (h : Act.Composed (Steering free) act)
    (hfree : ∀ a, free a → ¬left a) (hw : (queuing started left).holds () w) :
    (queuing started left).Keeps nested () w act :=
  .composed (fun _ => trivial)
    (fun h hw => queuing_steering hl hN h hfree hw) h hw

end

/-- Code leaves the transitions alone that user code leaves alone. -/
theorem queuing_meaning {host : Host U X} (hhost : host.Steers started) {nested : SceneNested U X}
    (hN : (queuingCode started).Obeys nested) {α : Type} (code : Code U α)
    (hcode : code.Plain) (hw : (queuingCode started).holds () w) :
    (queuingCode started).Keeps nested () w (code.meaning host) := by
  have hcomposed : ∀ {α : Type} {act : SceneM U X α}, Act.Composed (Steering started) act →
      (queuingCode started).Keeps nested () w act :=
    fun h => queuing_composed (fun _ h => h) hN h (fun _ ha hn => hn ha) hw
  refine (Regime.Runs.meaning hhost.value hhost.model hhost.peer hcomposed
    (fun c => hcomposed (.prim (.read c))) (fun a _ => queuing_retarget hw a)
    (fun r _ => hcomposed (.asks fun repeater => .ite (.pure _) (.prim (.write ..)))) nofun
    (fun h => h) code hcode).keeps

/-! ## Sessions -/

theorem toldTo_queuing {host : Host U X} (hhost : host.Steers started)
    (depth : Nat) : (queuingCode started).Obeys (host.told depth) :=
  queuing_ok.toldTo_obeys
    (fun hN _ code _ _ hw hcode => queuing_meaning hhost hN code hcode hw) depth

theorem tick_returned {nested : SceneNested U X}
    (hN : (queuingCode started).Obeys nested) {act : SceneM U X Unit}
    (hact : Tick act) {w' : SceneTale U X} (hw : (queuingAct started).holds () w)
    (hlisted : w.host.1.Listed) (hr : act.tell nested w = .ok () w') :
    (queuingAct started).holds () w' ∧ w'.host.1.Listed := by
  cases hact with
  | moveTo now => exact moveTo_listed hN hw hlisted hr
  | advance dt =>
    unfold Clock.advance at hr
    split at hr
    · cases hr
      exact ⟨hw, hlisted⟩
    · obtain ⟨time, w1, htime, hr⟩ := Act.of_tell_bind hr
      obtain ⟨hw1, hlisted1⟩ := listed_of_runs (queuing_time hN hw) hlisted htime
      exact moveTo_listed hN hw1 hlisted1 hr

/-- A session of programs without ticks and of ticks that return. -/
theorem toldSession_listed {host : Host U X}
    (hhost : host.Steers started) (depth : Nat) {acts : List (SceneM U X Unit)}
    (hacts : ∀ act ∈ acts, Tick act ∨ Act.Composed (Steering fun _ => True) act)
    (hw : (queuingAct started).holds () w) (hlisted : w.host.1.Listed)
    (hticks : Act.Returning (Code.meaning host) depth Tick acts w.untold) :
    (queuingAct started).holds () (Act.toldSession (Code.meaning host) depth acts w) ∧
      (Act.toldSession (Code.meaning host) depth acts w).host.1.Listed := by
  have hN := toldTo_queuing hhost depth
  induction acts generalizing w with
  | nil => exact ⟨hw, hlisted⟩
  | cons act acts ih =>
    obtain ⟨hact, hrest⟩ := List.forall_mem_cons.1 hacts
    obtain ⟨hreturns, hticks⟩ := hticks
    have hplain := Act.tell_echoes (Act.toldTo_echoes (Code.meaning host) depth) act w
    set r := act.tell (host.told depth) w with hr
    have hstep : (queuingAct started).holds () (Act.outcome r) ∧ (Act.outcome r).host.1.Listed := by
      rcases hact with htick | hact
      · obtain ⟨u, hu⟩ := hreturns htick
        have hok : Told.untoldResult r = .ok () u := hplain.trans hu
        cases hres : r with
        | ok x w' => exact tick_returned hN htick hw hlisted (hr.symm.trans hres)
        | error stop w' =>
          rw [hres] at hok
          cases hok
      · obtain ⟨_, hle, hw'⟩ := (queuing_composed (nofun : ∀ a, False → ¬started a) hN hact
          (fun _ _ => not_false) hw).later trivial
        exact ⟨hw', hle.2.listed hlisted⟩
    refine ih hrest hstep.1 hstep.2 ?_
    rw [Act.outcome_untold, hplain]
    exact hticks

theorem enlisted_start (started : TransitionId → Prop) (user : X) (reports : Bool) :
    (queuingAct (U := U) started).holds () (Tale.start user reports) ∧
      (Tale.start (U := U) user reports).host.1.Listed := by
  refine ⟨⟨⟨fun a _ h => ?_, fun a _ h => ?_, fun a code h => ?_⟩, fun c code h => ?_, nofun⟩,
    fun a h => ?_⟩
  · cases h
  · cases h
  · cases h
  · rcases c with _ | c
    · cases h
    · cases h
  · cases h

/-- In every session of programs over cells and transitions and of ticks that return, a running
transition whose cell lives is in the clock's list, unless code of bindings or observers may have
started it. -/
theorem session_running_listed (host : Host U X) (started : TransitionId → Prop)
    (hhost : host.Steers started) (depth : Nat) (user : X) (reports : Bool)
    (acts : List (SceneM U X Unit))
    (hacts : ∀ act ∈ acts, Tick act ∨ Act.Composed (Steering fun _ => True) act)
    (hticks : Act.Returning (Code.meaning host) depth Tick acts (World.start user reports)) :
    let w := Act.session (Code.meaning host) depth acts (World.start user reports)
    ∀ a, ¬started a → (w.host.transition a).running = true →
      (w.store.cell (w.host.transition a).cell).dropped = false → a ∈ w.host.clock.running := by
  intro w a ha hrunning hlive
  obtain ⟨hw, hlisted⟩ := enlisted_start started user reports
  obtain ⟨hend, hlist⟩ := toldSession_listed hhost depth hacts hw hlisted hticks
  have hw : (Act.toldSession (Code.meaning host) depth acts (Tale.start user reports)).untold = w :=
    Act.untold_toldSession ..
  rw [← hw] at hrunning hlive ⊢
  exact hlist a (hend.1.queued a ha hrunning hlive)

/-! ## A relay -/

/-- What the observer of the first cell does: it starts the second transition, starts the first
one again when it has arrived, or fails. -/
inductive Cue where
  | next
  | again
  | fail

namespace Cue

def effect : Cue → SceneM Unit Unit Value
  | .next => do
    Transition.set 1 (.int 7)
    return .void
  | .again => do
    let x ← Act.get 1
    if x.same (.int 10) then Transition.set 0 (.int 20)
    return .void
  | .fail => .panic "no more"

def host (cue : Cue) : Host Unit Unit := .ofValue fun _ => cue.effect

/-- Two cells with a transition each. The first one is observed, and its transition starts. -/
def acts : List (SceneM Unit Unit Unit) :=
  [discard (Act.new "x" (.int 0)),
    discard (Act.new "y" (.int 0)),
    discard (Transition.create 1 { duration := 100, delay := 50 } Lerp.value),
    discard (Transition.create 2 { duration := 100, delay := 50 } Lerp.value),
    discard (Act.observe 1 (.effect () none)),
    Transition.set 0 (.int 10),
    Clock.advance 20]

/-- The world after some more acts. -/
def after (cue : Cue) (more : List (SceneM Unit Unit Unit)) : World (Scene Unit Unit) (Code Unit) :=
  Act.session (Code.meaning cue.host) 5 (acts ++ more) (World.start () false)

end Cue

/-- The first transition waits in the list. When it ends, the second one is there. -/
theorem session_running_listed_relay :
    let w := Cue.next.after []
    (w.host.transition 0).running = true ∧ (w.store.cell 1).dropped = false ∧
      0 ∈ w.host.clock.running ∧ (Cue.next.after [Clock.advance 200]).host.clock.running = [1] := by
  have hhost : Cue.next.host.Steers (· = 1) :=
    ⟨fun _ _ _ => .bind (.prim (.start (by rfl) _)) fun _ => .pure _, fun _ _ => .pure _,
      fun _ _ => .pure _⟩
  have hacts : ∀ act ∈ Cue.acts ++ [], Tick act ∨
      Act.Composed (Steering (U := Unit) (X := Unit) fun _ => True) act := by
    simp only [Cue.acts, List.append_nil, List.forall_mem_cons, List.not_mem_nil, false_imp_iff,
      implies_true, and_true]
    exact ⟨.inr (.discard (.prim (.new ..))), .inr (.discard (.prim (.new ..))),
      .inr (.discard (.prim (.animate ..))), .inr (.discard (.prim (.animate ..))),
      .inr (.discard (.prim (.observe ..))), .inr (.prim (.start trivial _)), .inl (.advance _)⟩
  have hticks : Act.Returning (Code.meaning Cue.next.host) 5 Tick (Cue.acts ++ [])
      (World.start () false) := Act.returning_of_allReturn (by decide +kernel)
  have hrunning : ((Cue.next.after []).host.transition 0).running = true := by decide +kernel
  have hlive : ((Cue.next.after []).store.cell 1).dropped = false := by decide +kernel
  refine ⟨hrunning, hlive, ?_, by decide +kernel⟩
  refine session_running_listed Cue.next.host (· = 1) hhost 5 () false _ hacts hticks 0 (by decide)
    hrunning ?_
  have hcell : ((Cue.next.after []).host.transition 0).cell = 1 := by decide +kernel
  exact (congrArg (fun c => ((Cue.next.after []).store.cell c).dropped) hcell).trans hlive

/-- A transition that its own last step starts again runs and is in no list. After a tick that did
not return the same is true of one that had no part in it. -/
theorem restarted_at_the_end_lost :
    let again := Cue.again.after [Clock.advance 200]
    let fail := Cue.fail.after [Transition.set 1 (.int 7), Clock.advance 200]
    ((again.host.transition 0).running = true ∧
      (again.store.cell (again.host.transition 0).cell).dropped = false ∧
      0 ∉ again.host.clock.running) ∧
    (fail.host.transition 1).running = true ∧
      (fail.store.cell (fail.host.transition 1).cell).dropped = false ∧
      1 ∉ fail.host.clock.running := by
  decide +kernel

/-! ## Animated properties of an instance -/

namespace Dial

/-- The needle follows the scale, which follows the mark; a signal counts up. -/
def dial : Definition Unit :=
  ({ name := "Dial" } : Definition Unit).root 0 "root"
    |>.declare "count" .int (.int 0) |>.declare "mark" .float (.float 1)
    |>.declare "needle" .float (.float 0) |>.declare "scale" .float (.float 0)
    |>.animate "" "count" { duration := 100 } |>.animate "" "needle" { duration := 100 }
    |>.animate "" "scale" { duration := 100 }
    |>.bind "" "needle" (.fetch { prop := "scale" } none "")
    |>.bind "" "scale" (.fetch { prop := "mark" } none "")
    |>.declareCallback "up" [] |>.onCallback "" "up" (.actions [.increment { prop := "count" } ""])

def host : Host Unit Unit := .ofValue fun _ => pure .void

/-- The world after some acts on a dial. -/
def ended (acts : List (SceneM Unit Unit Unit)) : World (Scene Unit Unit) (Code Unit) :=
  Act.session (Code.meaning host) 9 (discard (Component.instantiate dial) :: acts)
    (World.start () false)

def shows (w : World (Scene Unit Unit) (Code Unit)) (name : String) (v : Value) : Bool :=
  match (Component.get 0 name).runTo (Code.meaning host) 9 w with
  | .ok (.ok x) _ => x.same v
  | _ => false

end Dial

/-- The needle was bound before the scale that it reads, and moves once the scale is bound. -/
theorem initial_value_moves :
    let w := Dial.ended []
    w.host.clock.running.length = 1 ∧ Dial.shows w "scale" (.float 1) = true ∧
      Dial.shows w "needle" (.float 0) = true := by
  decide +kernel

/-- The second increment reads what the first has not reached yet. -/
theorem increment_lost :
    let up := discard (Component.invoke 0 "up" [])
    let w := Dial.ended [up, up, Clock.moveTo 100, Clock.moveTo 200]
    w.host.clock.running = [] ∧ Dial.shows w "count" (.int 1) = true := by
  decide +kernel

end ReactiveTree
