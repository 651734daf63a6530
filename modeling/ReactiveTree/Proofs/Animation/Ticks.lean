import ReactiveTree.Animation.Easing
import ReactiveTree.Proofs.Cell.Upstream
import ReactiveTree.Proofs.Scene.Composed
import ReactiveTree.Proofs.Scene.Objects

/-!
# How time is cut into ticks

A tick writes to the cell of each running transition a value that depends on the start of the
transition and on the time of the tick, and on nothing else (`Transition.valueAt`). So it does not
matter how many ticks come before (`ticks_compose`): the clock, the transitions and the list of
those that run are the same in the end, and each cell holds the value for that time. It holds it up
to what a write takes for the same value: a zero may keep the sign it had.

Writes run observers, which could do anything. `Store.Hushed` says that a set of cells is not
observed and that whatever depends on a cell of the set belongs to it.
-/

namespace ReactiveTree

open Store

namespace Store

variable {S : Type} {K : Type → Type} {s t : Store K} {quiet : CellId → Prop} {c d : CellId}

/-! ## Writes that nobody hears of -/

structure Hushed (s : Store K) (quiet : CellId → Prop) : Prop where
  closed : ∀ x, quiet x → ∀ e ∈ (s.cell x).dependents, ∀ d, s.resolve e.consumer = some d → quiet d
  unobserved : ∀ x, quiet x → (s.cell x).observers = []

/-- A property that stores what is written to it. -/
structure Plain (s : Store K) (c : CellId) : Prop where
  property : s.IsProperty c
  live : (s.cell c).dropped = false
  unlinked : (s.cell c).partner = none

theorem Hushed.of_touched (h : s.Hushed quiet) (hc : quiet c) (hd : s.Touched c d) : quiet d := by
  induction hd with
  | refl => exact hc
  | tail _ hxy ih =>
    obtain ⟨⟨e, he, hed⟩, -⟩ := hxy
    exact h.closed _ ih e he _ (consumer?_eq_some.mp hed).1

theorem notify_unobserved (nested : Nested S K) {w : World S K} {cells : List CellId}
    (h : ∀ d ∈ cells, (w.store.cell d).observers = []) : Run.notify nested cells w = .ok () w := by
  induction cells with
  | nil => rfl
  | cons c cells ih =>
    have hrest := ih fun d hd => h d (List.mem_cons_of_mem _ hd)
    show (if (w.store.cell c).dropped = true then Run.notify nested cells
      else Run.fire nested (w.store.cell c).observers >>= fun _ => Run.notify nested cells) w = _
    rw [h c List.mem_cons_self]
    split
    · exact hrest
    · exact hrest

section

variable (hs : s.Sane) (hc : s.Plain c) (v : Value)
include hs hc

theorem Hushed.set (h : s.Hushed quiet) (hq : quiet c) (nested : Nested S K) (host : S) :
    Run.set nested c v ⟨s, host⟩ = .ok () ⟨s.written c v, host⟩ := by
  rw [Told.set_told nested v (w := ⟨s, host⟩) hc.live, linkRoot_of_partner hc.unlinked]
  cases htold : s.toldOfWrite c v with
  | none => rfl
  | some cells =>
    refine notify_unobserved nested fun d hd => ?_
    have hmem : d ∈ (s.toldOfWrite c v).getD [] := by rwa [htold]
    rw [show ((s.written c v).cell d).observers = _ from (amended_written s c v).1.observed d]
    exact h.unobserved d (h.of_touched hq ((mem_toldOfWrite hs.arena hc.property.1 v).mp hmem).2)

theorem Sane.of_written : (s.written c v).Sane := by
  have hstep := (@Step.write _ s [] c v hc.property hc.live).sane hs
  rwa [linkRoot_of_partner hc.unlinked] at hstep

theorem Hushed.written (h : s.Hushed quiet) : (s.written c v).Hushed quiet := by
  have hr := (ripple_written hs.arena hc.property.1 v).1
  refine ⟨fun x hx e he d hd => ?_, fun x hx => ?_⟩
  · rw [hr.around.resolve] at hd
    exact h.closed x hx e ((hr.fewer x).subset he) d hd
  · rw [(amended_written s c v).1.observed]
    exact h.unobserved x hx

theorem Plain.written (hd : s.Plain d) : (s.written c v).Plain d := by
  obtain ⟨hr, -, hpartner, -⟩ := ripple_written hs.arena hc.property.1 v
  have halike := hr.alike d
  refine ⟨⟨by rw [hr.around.size]; exact hd.property.1, halike.tracker.trans hd.property.2⟩,
    halike.dropped.trans hd.live, ?_⟩
  by_cases hdc : d = c
  · subst hdc
    exact hpartner.elim id fun h => h.trans hd.unlinked
  · rw [cell_written hs.arena hc.property.1 v hdc]
    split
    · exact (Cell.partner_spoil _).trans hd.unlinked
    · exact hd.unlinked

theorem value_written_ne (hdc : d ≠ c) : ((s.written c v).cell d).value = (s.cell d).value := by
  rw [cell_written hs.arena hc.property.1 v hdc]
  split
  · exact Cell.value_spoil _
  · rfl

end

/-! ### A cell that nobody can refer to -/

/-- A plain property without a binding that has never been evaluated. -/
structure Still (s : Store K) (c : CellId) : Prop extends s.Plain c where
  unbound : (s.cell c).binding = none
  apart : (s.cell c).hasSlot = false
  clean : (s.cell c).state = .clean

theorem Still.written (hs : s.Sane) (hc : s.Plain c) (v : Value) (hd : s.Still d) :
    (s.written c v).Still d := by
  obtain ⟨hr, hbinding, -, -⟩ := ripple_written hs.arena hc.property.1 v
  by_cases hdc : d = c
  · subst hdc
    refine ⟨Plain.written hs hc v hd.toPlain, hbinding, (hr.alike d).hasSlot.trans hd.apart, ?_⟩
    unfold Store.written
    simp only [hd.unbound, Option.isSome_none, Bool.false_eq_true, if_false]
    split
    · exact hd.clean
    · have hcell : (s.modify d fun cell => { cell with value := v }).cell d =
          { s.cell d with value := v } := cell_modify_self hc.property.1 _
      have ha : Arena (s.modify d fun cell => { cell with value := v }) :=
        hs.arena.modify fun _ => ⟨rfl, rfl⟩
      obtain ⟨found, -, hsp⟩ := invalidate_spec ha (by simpa using hc.property.1)
      have hnot : d ∉ found := fun hmem => by
        have hslot := (hsp.fresh d hmem).1
        rw [hcell, hd.apart] at hslot
        cases hslot
      rw [hsp.cells, hcell, if_neg hnot, if_pos (.inl List.mem_cons_self)]
      exact hd.clean
  · have hcell : (s.written c v).cell d = s.cell d := by
      rw [cell_written hs.arena hc.property.1 v hdc, if_neg]
      intro hmem
      cases ((mem_toldOfWrite hs.arena hc.property.1 v).mp hmem).2 with
      | refl => exact hdc rfl
      | tail _ hxd =>
        obtain ⟨⟨e, -, he⟩, -⟩ := hxd
        have hslot := (hs.arena.consumer?_eq_some.mp he).1
        rw [hd.apart] at hslot
        cases hslot
    refine ⟨Plain.written hs hc v hd.toPlain, ?_, ?_, ?_⟩
    all_goals rw [hcell]
    · exact hd.unbound
    · exact hd.apart
    · exact hd.clean

/-- It is read without a trace. -/
theorem Still.peek (hc : s.Still c) (nested : Nested S K) (host : S) :
    (Act.peek c).interpret nested ⟨s, host⟩ = .ok (s.cell c).value ⟨s, host⟩ := by
  have htry : Run.tryGet nested c ⟨s.pushFrame none, host⟩ =
      .ok ((s.cell c).value, none) ⟨s.pushFrame none, host⟩ := by
    unfold Run.tryGet
    show (if (s.cell c).dropped = true then _ else _ : Run S K _) _ = _
    rw [if_neg (by simp [hc.live])]
    simp only [show (s.pushFrame none).cell c = s.cell c from rfl, hc.clean]
    rfl
  have hget : Run.onProperty c (Run.get nested c) ⟨s.pushFrame none, host⟩ =
      .ok (s.cell c).value ⟨s.pushFrame none, host⟩ := by
    rw [Run.onProperty_eq, if_pos ⟨hc.property.1, hc.property.2⟩]
    show EStateM.bind (Run.tryGet nested c) _ _ = _
    unfold EStateM.bind
    rw [htry]
    rfl
  show Run.untracked (Run.onProperty c (Run.get nested c)) ⟨s, host⟩ = _
  unfold Run.untracked
  simp only [hget]
  rfl

/-- From `s` to `t` only plain cells of `quiet` were written. -/
structure Eased (quiet : CellId → Prop) (s t : Store K) : Prop where
  sane : t.Sane
  hushed : t.Hushed quiet
  plain : ∀ d, s.Plain d → t.Plain d
  still : ∀ d, s.Still d → t.Still d

theorem Eased.trans {u : Store K} (h : Eased quiet s t) (h' : Eased quiet t u) : Eased quiet s u :=
  ⟨h'.sane, h'.hushed, fun d hd => h'.plain d (h.plain d hd), fun d hd => h'.still d (h.still d hd)⟩

theorem Sane.eased (hs : s.Sane) (h : s.Hushed quiet) (hc : s.Plain c) (v : Value) :
    Eased quiet s (s.written c v) :=
  ⟨hs.of_written hc v, h.written hs hc v, fun _ hd => .written hs hc v hd,
    fun _ hd => .written hs hc v hd⟩

end Store

/-! ## What a tick does -/

/-- What a cell with the value `old` may hold when `v`, if anything, was written to it. -/
def Value.Takes (old new : Value) : Option Value → Prop
  | none => new = old
  | some v => new = v ∨ new = old ∧ old.same v = true

theorem Value.eq_duration {x : Value} {n : Int64} (h : x.same (.duration n) = true) :
    x = .duration n := by
  cases x with
  | duration m => simpa [Value.same] using h
  | _ => cases h

namespace Transition

variable {U : Type} {t : Transition U} {now later : Int64}

/-- The time since the end of the delay. -/
def elapsed (t : Transition U) (now : Int64) : Int64 := now - t.started - t.spec.delay

def isOver (t : Transition U) (now : Int64) : Bool := decide (t.spec.duration ≤ t.elapsed now)

/-- What a tick writes to the cell of a running transition. -/
def valueAt (t : Transition U) (now : Int64) : Option Value :=
  if t.elapsed now < 0 then none
  else if t.isOver now then some t.target
  else
    let progress := Number.ofInt64 (t.elapsed now) / Number.ofInt64 t.spec.duration
    some (t.interpolate t.source t.target (t.spec.easing progress))

def ended (t : Transition U) : Transition U := { t with running := false, queued := false }

/-- A transition that was started before `now` and follows no binding. -/
structure Fit (t : Transition U) (now : Int64) : Prop where
  running : t.running = true
  alive : t.stopped = false
  free : t.tracker = none
  duration : 0 ≤ t.spec.duration
  delay : 0 ≤ t.spec.delay
  since : 0 ≤ t.started
  started : t.started ≤ now

theorem Fit.mono (h : t.Fit now) (hle : now ≤ later) : t.Fit later :=
  { h with started := Int64.le_trans h.started hle }

theorem Fit.toInt_elapsed (h : t.Fit now) :
    (t.elapsed now).toInt = now.toInt - t.started.toInt - t.spec.delay.toInt := by
  have hsince := Int64.le_iff_toInt_le.mp h.since
  have hstarted := Int64.le_iff_toInt_le.mp h.started
  have hdelay := Int64.le_iff_toInt_le.mp h.delay
  have hnow := now.toInt_lt
  have hbound := t.spec.delay.toInt_lt
  simp only [Int64.toInt_zero] at hsince hdelay
  unfold elapsed
  rw [Int64.toInt_sub, Int64.toInt_sub, Int.bmod_eq_of_le (n := now.toInt - _) (by omega)
    (by omega), Int.bmod_eq_of_le (by omega) (by omega)]

theorem Fit.isOver_iff (h : t.Fit now) : t.isOver now = true ↔
    t.started.toInt + t.spec.delay.toInt + t.spec.duration.toInt ≤ now.toInt := by
  unfold isOver
  rw [decide_eq_true_iff, Int64.le_iff_toInt_le, h.toInt_elapsed]
  omega

theorem Fit.elapsed_le (h : t.Fit now) (hle : now ≤ later) : t.elapsed now ≤ t.elapsed later := by
  rw [Int64.le_iff_toInt_le, h.toInt_elapsed, (h.mono hle).toInt_elapsed]
  have := Int64.le_iff_toInt_le.mp hle
  omega

theorem Fit.isOver_later (h : t.Fit now) (hle : now ≤ later) (ho : t.isOver now = true) :
    t.isOver later = true := by
  unfold isOver at ho ⊢
  exact decide_eq_true (Int64.le_trans (of_decide_eq_true ho) (h.elapsed_le hle))

theorem Fit.not_isOver (h : t.Fit now) (hlt : t.elapsed now < 0) : t.isOver now = false :=
  decide_eq_false (Int64.not_le.mpr (Int64.lt_of_lt_of_le hlt h.duration))

theorem Fit.valueAt_isOver (h : t.Fit now) (ho : t.isOver now = true) :
    t.valueAt now = some t.target := by
  have hle : t.spec.duration ≤ t.elapsed now := of_decide_eq_true ho
  unfold valueAt
  rw [if_neg (Int64.not_lt.mpr (Int64.le_trans h.duration hle)), if_pos ho]

theorem Fit.valueAt_none (h : t.Fit now) (hle : now ≤ later) (hv : t.valueAt later = none) :
    t.valueAt now = none := by
  unfold valueAt at hv ⊢
  split at hv
  · rename_i hlt
    rw [if_pos (Int64.lt_of_le_of_lt (h.elapsed_le hle) hlt)]
  · split at hv <;> cases hv

end Transition

namespace Scene

variable {U X : Type} {s : Scene U X} {now later : Int64} {a b : TransitionId}

/-- The scene when those of the transitions `as` have ended whose time is over. -/
def settle (s : Scene U X) (now : Int64) (as : List TransitionId) : Scene U X :=
  { s with
    transitions := s.transitions.mapIdx fun a t => if a ∈ as ∧
      t.isOver now = true then t.ended else t }

theorem transition_of_lt (h : b < s.transitions.size) : s.transition b = s.transitions[b] := by
  simp [transition, h]

theorem transition_settle {as : List TransitionId} (hb : b < s.transitions.size) :
    (s.settle now as).transition b = if b ∈ as ∧ (s.transition b).isOver now = true then
      (s.transition b).ended else s.transition b := by
  have hb' : b < (s.settle now as).transitions.size := by simpa [settle] using hb
  rw [transition_of_lt hb', transition_of_lt hb]
  simp [settle]

theorem eq_of_parts {t : Scene U X}
    (h : { t with clock := s.clock, transitions := s.transitions } = s)
    (hclock : t.clock = s.clock) (hts : t.transitions = s.transitions) : t = s := by
  rwa [← hclock, ← hts] at h

theorem settle_nil : s.settle now [] = s :=
  eq_of_parts rfl rfl (Array.ext (by simp [settle]) fun b _ _ => by simp [settle])

/-- The scene when the transition was stepped and, if its time is over, has left the queue. -/
def finish (s : Scene U X) (now : Int64) (a : TransitionId) : Scene U X :=
  if (s.transition a).isOver now = true then
    (s.modifyTransition a fun t => { t with running := false }).modifyTransition a
      fun t => { t with queued := false }
  else s

theorem transition_finish (hab : b ≠ a) : (s.finish now a).transition b = s.transition b := by
  unfold finish
  split
  · rw [transition_modify, if_neg (fun h => hab h.1), transition_modify, if_neg (fun h => hab h.1)]
  · rfl

theorem settle_cons {as : List TransitionId} (ha : a ∉ as) :
    s.settle now (a :: as) = (s.finish now a).settle now as := by
  unfold finish
  split
  · refine eq_of_parts rfl rfl (Array.ext (by simp [settle, modifyTransition]) fun b hb _ => ?_)
    have hb : b < s.transitions.size := by simpa [settle] using hb
    simp only [settle, modifyTransition, Array.getElem_mapIdx, Array.getElem_modify, List.mem_cons]
    grind [Transition.ended, transition_of_lt]
  · refine eq_of_parts rfl rfl (Array.mapIdx_eq_mapIdx_iff.mpr fun b hb => ?_)
    grind [transition_of_lt hb]

/-- The scene after a tick. -/
def ticked (s : Scene U X) (now : Int64) : Scene U X :=
  { s.settle now s.clock.running with
    clock := { s.clock with running := s.clock.running.filter fun a =>
      !(s.transition a).isOver now } }

/-- It does not matter whether there was a tick before. -/
theorem ticked_ticked (hlt : ∀ a ∈ s.clock.running, a < s.transitions.size)
    (h : ∀ a ∈ s.clock.running,
      (s.transition a).isOver now = true → (s.transition a).isOver later = true) :
    (s.ticked now).ticked later = s.ticked later := by
  have hover : ∀ t : Transition U, t.ended.isOver later = t.isOver later := fun _ => rfl
  have hrunning : ((s.ticked now).ticked later).clock.running = (s.ticked later).clock.running := by
    show (s.clock.running.filter _).filter _ = s.clock.running.filter _
    rw [List.filter_filter]
    refine List.filter_congr fun a ha => ?_
    rw [show (s.ticked now).transition a = _ from transition_settle (hlt a ha)]
    grind
  have hclock : ((s.ticked now).ticked later).clock = (s.ticked later).clock :=
    congrArg (fun running => { s.clock with running }) hrunning
  refine eq_of_parts rfl hclock (Array.ext (by simp [ticked, settle]) fun b hb _ => ?_)
  have hb : b < s.transitions.size := by simpa [ticked, settle] using hb
  simp only [ticked, settle, Array.getElem_mapIdx, List.mem_filter]
  grind [Transition.ended, transition_of_lt]

end Scene

/-! ## Runs -/

section

variable {U X : Type} {quiet : CellId → Prop} {now later : Int64} {a : TransitionId}
  {as : List TransitionId} {w : World (Scene U X) (Code U)} {nested : Nested (Scene U X) (Code U)}

/-- The transitions `as` move cells of their own, which nobody hears of. -/
structure World.Playing (quiet : CellId → Prop) (now : Int64) (as : List TransitionId)
    (w : World (Scene U X) (Code U)) : Prop where
  sane : w.store.Sane
  hushed : w.store.Hushed quiet
  clock : w.store.Still w.host.clock.cell
  cells : (as.map fun a => (w.host.transition a).cell).Nodup
  known : ∀ a ∈ as, a < w.host.transitions.size
  fit : ∀ a ∈ as, (w.host.transition a).Fit now
  plain : ∀ a ∈ as, w.store.Plain (w.host.transition a).cell
  covered : ∀ a ∈ as, quiet (w.host.transition a).cell
  apart : ∀ a ∈ as, (w.host.transition a).cell ≠ w.host.clock.cell

/-- The store after a tick at the time `now` has come to the transition. -/
def Store.shown {K : Type → Type} (s : Store K) (t : Transition U) (now : Int64) : Store K :=
  match t.valueAt now with
  | none => s
  | some v => s.written t.cell v

theorem Act.interpret_bind {S : Type} {K : Type → Type} {α β : Type} {nested : Nested S K}
    {x : Act S K α} {f : α → Act S K β} {v : α} {w w' : World S K}
    (h : x.interpret nested w = .ok v w') :
    (x >>= f).interpret nested w = (f v).interpret nested w' := by
  show (Act.bind x f).interpret nested w = _
  simp only [Act.interpret, h]

theorem Act.interpret_set (nested : Nested (Scene U X) (Code U)) {s : Store (Code U)} {c : CellId}
    (hs : s.Sane) (h : s.Hushed quiet) (hc : s.Plain c) (hq : quiet c) (v : Value)
    (host : Scene U X) :
    (Act.set c v).interpret nested ⟨s, host⟩ = .ok () ⟨s.written c v, host⟩ := by
  show Run.onProperty c (Run.set nested c v) ⟨s, host⟩ = _
  rw [Run.onProperty_eq, if_pos hc.property]
  exact h.set hs hc v hq nested host

theorem Transition.interpret_modify (nested : Nested (Scene U X) (Code U)) (a : TransitionId)
    (f : Transition U → Transition U) (w : World (Scene U X) (Code U)) :
    (Transition.modify a f).interpret nested w = .ok () ⟨w.store, w.host.modifyTransition a f⟩ :=
      rfl

theorem World.Playing.step (h : w.Playing quiet now (a :: as)) :
    (Transition.step a now).interpret nested w = .ok ((w.host.transition a).isOver now)
      ⟨w.store.shown (w.host.transition a) now, if (w.host.transition a).isOver now then
        w.host.modifyTransition a fun t => { t with running := false } else w.host⟩ := by
  have hmem : a ∈ a :: as := List.mem_cons_self
  have hfit := h.fit a hmem
  have hset := Act.interpret_set nested h.sane h.hushed (h.plain a hmem) (h.covered a hmem)
  unfold Transition.step Store.shown Transition.valueAt
  show Act.interpret nested (if ((w.host.transition a).bindingChanged &&
    (w.host.transition a).tracker.isSome) = true then _ else _) w = _
  rw [if_neg (by simp [hfit.free])]
  show Act.interpret nested (if (!(w.host.transition a).running) = true then _ else _) w = _
  rw [if_neg (by simp [hfit.running])]
  show Act.interpret nested (if (w.host.transition a).elapsed now < 0 then _ else _) w = _
  by_cases hdelay : (w.host.transition a).elapsed now < 0
  · rw [if_pos hdelay, if_pos hdelay, hfit.not_isOver hdelay]
    rfl
  · rw [if_neg hdelay, if_neg hdelay]
    show Act.interpret nested (if (w.host.transition a).spec.duration ≤
      (w.host.transition a).elapsed now then _ else _) w = _
    cases hover : (w.host.transition a).isOver now with
    | true =>
      rw [if_pos (of_decide_eq_true hover)]
      exact (Act.interpret_bind rfl).trans (Act.interpret_bind (hset ..))
    | false =>
      rw [if_neg (of_decide_eq_false hover)]
      exact Act.interpret_bind (hset ..)

theorem World.Playing.isAlive (h : w.Playing quiet now (a :: as)) :
    (Transition.isAlive a).interpret nested w = .ok true w := by
  unfold Transition.isAlive
  show Act.interpret nested (if (w.host.transition a).stopped = true then _ else _) w = _
  rw [if_neg (by simp [(h.fit a List.mem_cons_self).alive])]
  show EStateM.Result.ok (!(w.store.cell (w.host.transition a).cell).dropped) w = _
  rw [(h.plain a List.mem_cons_self).live]
  rfl

/-- What ticks have done to cells: `ts` are the transitions that were stepped. -/
structure Store.Moved {K : Type → Type} (quiet : CellId → Prop) (now : Int64)
    (ts : List (Transition U)) (s t : Store K) : Prop where
  eased : Eased quiet s t
  others : ∀ d, (∀ m ∈ ts, m.cell ≠ d) → (t.cell d).value = (s.cell d).value
  takes : ∀ m ∈ ts, Value.Takes (s.cell m.cell).value (t.cell m.cell).value (m.valueAt now)

theorem Store.moved_shown {K : Type → Type} {s : Store K} {m : Transition U} (hs : s.Sane)
    (hq : s.Hushed quiet) (hc : s.Plain m.cell) : Moved quiet now [m] s (s.shown m now) := by
  unfold Store.shown
  cases hv : m.valueAt now with
  | none => exact ⟨⟨hs, hq, fun _ h => h, fun _ h => h⟩, fun _ _ => rfl, by simp [hv, Value.Takes]⟩
  | some v =>
    refine ⟨hs.eased hq hc v, fun d hd => value_written_ne hs hc v
      (hd m List.mem_cons_self).symm, ?_⟩
    rw [List.forall_mem_singleton, hv]
    exact (amended_written s m.cell v).2 hc.property.1

theorem Store.Moved.cons {K : Type → Type} {s u t : Store K} {m : Transition U}
    {ts : List (Transition U)} (h : Moved quiet now [m] s u) (hnew : ∀ n ∈ ts, n.cell ≠ m.cell)
    (h' : Moved quiet now ts u t) : Moved quiet now (m :: ts) s t := by
  refine ⟨h.eased.trans h'.eased, fun d hd => ?_, List.forall_mem_cons.mpr ⟨?_, fun n hn => ?_⟩⟩
  · obtain ⟨hm, hts⟩ := List.forall_mem_cons.mp hd
    exact (h'.others d hts).trans (h.others d (List.forall_mem_singleton.mpr hm))
  · rw [h'.others m.cell hnew]
    exact h.takes m List.mem_cons_self
  · rw [← h.others n.cell (List.forall_mem_singleton.mpr (hnew n hn).symm)]
    exact h'.takes n hn

/-- Some of the transitions, later, when they are as they were. -/
theorem World.Playing.after {as' : List TransitionId} (h : w.Playing quiet now as)
    (hsub : as'.Sublist as) (hle : now ≤ later) {s : Store (Code U)} (host : Scene U X)
    (he : Eased quiet w.store s) (hclock : host.clock.cell = w.host.clock.cell)
    (hsize : host.transitions.size = w.host.transitions.size)
    (hsame : ∀ b ∈ as', host.transition b = w.host.transition b) :
    World.Playing quiet later as' ⟨s, host⟩ := by
  have hmap :
      as'.map (fun b => (host.transition b).cell) = as'.map fun b => (w.host.transition b).cell :=
    List.map_congr_left fun b hb => by rw [hsame b hb]
  refine ⟨he.sane, he.hushed, ?_, ?_, fun b hb => ?_, fun b hb => ?_, fun b hb => ?_,
    fun b hb => ?_, fun b hb => ?_⟩
  · rw [hclock]
    exact he.still _ h.clock
  · rw [hmap]
    exact h.cells.sublist (hsub.map _)
  · rw [hsize]
    exact h.known b (hsub.subset hb)
  all_goals rw [hsame b hb]
  · exact (h.fit b (hsub.subset hb)).mono hle
  · exact he.plain _ (h.plain b (hsub.subset hb))
  · exact h.covered b (hsub.subset hb)
  · rw [hclock]
    exact h.apart b (hsub.subset hb)

variable (nested) in
theorem World.Playing.stepAll (h : w.Playing quiet now as) :
    ∃ t, (Transition.stepAll now as).interpret nested w =
        .ok (as.filter fun a => !(w.host.transition a).isOver now) ⟨t, w.host.settle now as⟩ ∧
      Moved quiet now (as.map w.host.transition) w.store t := by
  induction as generalizing w with
  | nil =>
    refine ⟨w.store, ?_, ⟨h.sane, h.hushed, fun _ h => h, fun _ h => h⟩, fun _ _ => rfl,
      List.forall_mem_nil _⟩
    rw [Scene.settle_nil]
    rfl
  | cons a as ih =>
    have hapart : ∀ b ∈ as, (w.host.transition b).cell ≠ (w.host.transition a).cell :=
      fun b hb heq => (List.nodup_cons.mp h.cells).1 (List.mem_map.mpr ⟨b, hb, heq⟩)
    have hsame : ∀ b ∈ as, (w.host.finish now a).transition b = w.host.transition b :=
      fun b hb => Scene.transition_finish fun heq => hapart b hb (by rw [heq])
    have hfirst : Moved quiet now [w.host.transition a] w.store
        (w.store.shown (w.host.transition a) now) :=
      moved_shown h.sane h.hushed (h.plain a List.mem_cons_self)
    have hfilter : as.filter (fun b => !((w.host.finish now a).transition b).isOver now) =
        as.filter fun b => !(w.host.transition b).isOver now :=
      List.filter_congr fun b hb => by rw [hsame b hb]
    have hafter := ih (h.after (List.sublist_cons_self ..) (Int64.le_refl _)
      (w.host.finish now a) hfirst.eased (by rw [Scene.finish]; split <;> rfl)
      (by rw [Scene.finish]; split <;> simp [Scene.modifyTransition]) hsame)
    dsimp only at hafter
    rw [List.map_congr_left hsame, hfilter, ← Scene.settle_cons fun hmem => hapart a hmem rfl]
      at hafter
    obtain ⟨t, hrun, hmoved⟩ := hafter
    have hall : ∀ n ∈ as.map w.host.transition, n.cell ≠ (w.host.transition a).cell :=
      List.forall_mem_map.mpr hapart
    refine ⟨t, ?_, hfirst.cons hall hmoved⟩
    have hstep : (Transition.step a now).interpret nested w = _ := h.step
    unfold Transition.stepAll
    rw [Act.interpret_bind h.isAlive]
    simp only [if_true]
    rw [Act.interpret_bind hstep]
    rw [Scene.finish] at hrun
    cases hover : (w.host.transition a).isOver now with
    | false =>
      rw [hover] at hrun
      rw [List.filter_cons_of_pos (by simp [hover])]
      exact Act.interpret_bind hrun
    | true =>
      rw [hover] at hrun
      rw [List.filter_cons_of_neg (by simp [hover])]
      exact (Act.interpret_bind (Transition.interpret_modify ..)).trans hrun

/-- Nothing but transitions that were started by writes is running. -/
structure World.Ready (quiet : CellId → Prop) (now : Int64) (w : World (Scene U X) (Code U)) : Prop
    extends w.Playing quiet now w.host.clock.running where
  idle : w.host.clock.ticking = false
  heard : quiet w.host.clock.cell
  time : (w.store.cell w.host.clock.cell).value = .duration now
  since : 0 ≤ now

theorem World.Ready.interpret_time (h : w.Ready quiet now) :
    Clock.time.interpret nested w = .ok now w := by
  unfold Clock.time
  rw [Act.interpret_bind rfl, Act.interpret_bind (h.clock.peek nested w.host), h.time]
  rfl

theorem World.Playing.tick (h : w.Playing quiet now w.host.clock.running)
    (hq : quiet w.host.clock.cell) (hle : now ≤ later) :
    ∃ t, (Clock.tick later).interpret nested w = .ok () ⟨t, w.host.ticked later⟩ ∧
      Moved quiet later (w.host.clock.running.map w.host.transition)
        (w.store.written w.host.clock.cell (.duration later)) t := by
  have hset := Act.interpret_set nested h.sane h.hushed h.clock.toPlain hq (.duration later) w.host
  have heased := h.sane.eased h.hushed h.clock.toPlain (.duration later)
  -- the list is empty while the transitions are stepped
  let cleared : Scene U X := { w.host with clock := { w.host.clock with running := [] } }
  have hplaying := h.after (List.Sublist.refl _) hle cleared heased rfl rfl fun _ _ => rfl
  obtain ⟨t, hrun, hmoved⟩ := hplaying.stepAll nested
  refine ⟨t, ?_, hmoved⟩
  unfold Clock.tick
  rw [Act.interpret_bind rfl]
  refine (Act.interpret_bind hset).trans ((Act.interpret_bind rfl).trans
    ((Act.interpret_bind hrun).trans ?_))
  show EStateM.Result.ok () (⟨t, { w.host.settle later w.host.clock.running with
    clock := { w.host.clock with running := _ ++ [] } }⟩ : World (Scene U X) (Code U)) = _
  rw [List.append_nil]
  rfl

theorem Int64.toInt_add_of_fits {m n : Int64} (hm : 0 ≤ m) (hn : 0 ≤ n)
    (h : m.toInt + n.toInt ≤ Int64.maxValue.toInt) : (m + n).toInt = m.toInt + n.toInt := by
  have hmax : Int64.maxValue.toInt = 9223372036854775807 := by decide
  have hm := Int64.le_iff_toInt_le.mp hm
  have hn := Int64.le_iff_toInt_le.mp hn
  simp only [Int64.toInt_zero] at hm hn
  rw [Int64.toInt_add, Int.bmod_eq_of_le (by omega) (by omega)]

variable (nested) in
theorem World.Ready.advance (h : w.Ready quiet now) {d : Int64} (hd : 0 ≤ d)
    (hfits : now.toInt + d.toInt ≤ Int64.maxValue.toInt) :
    ∃ u, (Clock.advance d).interpret nested w = .ok () u ∧ u.Ready quiet (now + d) ∧
      u.host = w.host.ticked (now + d) ∧
      (∀ c, c ≠ w.host.clock.cell → (∀ a ∈ w.host.clock.running, (w.host.transition a).cell ≠ c) →
        (u.store.cell c).value = (w.store.cell c).value) ∧
      ∀ a ∈ w.host.clock.running, Value.Takes (w.store.cell (w.host.transition a).cell).value
        (u.store.cell (w.host.transition a).cell).value
          ((w.host.transition a).valueAt (now + d)) := by
  have hsum := Int64.toInt_add_of_fits h.since hd hfits
  have hnonneg := Int64.le_iff_toInt_le.mp hd
  rw [Int64.toInt_zero] at hnonneg
  have hle : now ≤ now + d := Int64.le_iff_toInt_le.mpr (by omega)
  have hsince : 0 ≤ now + d := Int64.le_trans h.since hle
  -- during the tick the clock says so
  let busy : World (Scene U X) (Code U) :=
    ⟨w.store, { w.host with clock := { w.host.clock with ticking := true } }⟩
  have hbusy : busy.Playing quiet now busy.host.clock.running := { h.toPlaying with }
  obtain ⟨t, htick, hmoved⟩ : ∃ t, (Clock.tick (now + d)).interpret nested busy = _ ∧ _ :=
    hbusy.tick h.heard hle
  have hmoved : Moved quiet (now + d) (w.host.clock.running.map w.host.transition)
      (w.store.written w.host.clock.cell (.duration (now + d))) t := hmoved
  have hvalues : ∀ c, c ≠ w.host.clock.cell →
      ((w.store.written w.host.clock.cell (.duration (now + d))).cell c).value =
        (w.store.cell c).value :=
    fun c hc => value_written_ne h.sane h.clock.toPlain _ hc
  refine ⟨⟨t, w.host.ticked (now + d)⟩, ?_, ?_, rfl, fun c hc hothers => ?_, fun a ha => ?_⟩
  · unfold Clock.advance
    show Act.interpret nested (if d < 0 then _ else _) w = _
    rw [if_neg (Int64.not_lt.mpr hd), Act.interpret_bind h.interpret_time]
    unfold Clock.moveTo
    show Act.interpret nested (if w.host.clock.ticking = true then _ else _) w = _
    rw [if_neg (by simp [h.idle]), Act.interpret_bind h.interpret_time,
      if_neg (Int64.not_lt.mpr hle)]
    refine (Act.interpret_bind rfl).trans ((Act.interpret_bind rfl).trans ?_)
    show Run.ensure ((Clock.tick (now + d)).interpret nested) _ busy = _
    unfold Run.ensure
    rw [htick]
    have hticking : (w.host.ticked (now + d)).clock.ticking = false := h.idle
    show EStateM.Result.ok () (⟨t, { w.host.ticked (now + d) with
      clock := { (w.host.ticked (now + d)).clock with ticking := false } }⟩ :
        World (Scene U X) (Code U)) = _
    rw [← hticking]
  · have heased := (h.sane.eased h.hushed h.clock.toPlain (.duration (now + d))).trans hmoved.eased
    refine ⟨h.toPlaying.after List.filter_sublist hle _ heased rfl
      (by simp [Scene.ticked, Scene.settle]) fun a ha => ?_, h.idle, h.heard, ?_, hsince⟩
    · obtain ⟨ha, hover⟩ := List.mem_filter.mp ha
      exact (Scene.transition_settle (h.known a ha)).trans
        (if_neg fun hin => by simp [hin.2] at hover)
    · refine (hmoved.others _ (List.forall_mem_map.mpr h.apart)).trans ?_
      rcases (amended_written w.store w.host.clock.cell
        (.duration (now + d))).2 h.clock.property.1 with
        heq | ⟨heq, hsame⟩
      · exact heq
      · exact heq.trans (Value.eq_duration hsame)
  · exact (hmoved.others c (List.forall_mem_map.mpr hothers)).trans (hvalues c hc)
  · have htakes := hmoved.takes _ (List.mem_map_of_mem ha)
    rwa [hvalues _ (h.apart a ha)] at htakes

/-! ## Two ticks and one -/

/-- A cell that had the value `old` holds `v`, or what a write of `v` takes for the same. If there
is nothing to write, it holds what it held. -/
def Value.Shows (old new : Value) : Option Value → Prop
  | none => new = old
  | some v => new = v ∨ new.same v = true

theorem Value.Takes.shows {old new : Value} {v : Option Value} (h : Value.Takes old new v) :
    Value.Shows old new v := by
  cases v with
  | none => exact h
  | some v =>
    rcases h with h | ⟨h, hsame⟩
    · exact .inl h
    · exact .inr (h ▸ hsame)

/-- Two ticks leave what one tick leaves that comes at the time of the second. -/
theorem ticks_compose (host : Host U X) (depth : Nat) (h : w.Ready quiet now) {d e : Int64}
    (hd : 0 ≤ d) (he : 0 ≤ e) (hfits : now.toInt + d.toInt + e.toInt ≤ Int64.maxValue.toInt) :
    ∃ u v, (do Clock.advance d; Clock.advance e).runTo (Code.meaning host) depth w = .ok () u ∧
      (Clock.advance (d + e)).runTo (Code.meaning host) depth w = .ok () v ∧
      u.Ready quiet (now + d + e) ∧ v.Ready quiet (now + d + e) ∧ u.host = v.host ∧
      (∀ c, c ≠ w.host.clock.cell → (∀ a ∈ w.host.clock.running, (w.host.transition a).cell ≠ c) →
        (u.store.cell c).value = (w.store.cell c).value ∧
          (v.store.cell c).value = (w.store.cell c).value) ∧
      ∀ a ∈ w.host.clock.running, let t := w.host.transition a
        let old := (w.store.cell t.cell).value
        old.Shows (u.store.cell t.cell).value (t.valueAt (now + d + e)) ∧
          old.Shows (v.store.cell t.cell).value (t.valueAt (now + d + e)) ∧
          (t.started.toInt + t.spec.delay.toInt + t.spec.duration.toInt ≤ (now + d + e).toInt →
            t.valueAt (now + d + e) = some t.target ∧ a ∉ u.host.clock.running ∧
              (u.host.transition a).running = false ∧ (u.host.transition a).queued = false) := by
  have hd' := Int64.le_iff_toInt_le.mp hd
  have he' := Int64.le_iff_toInt_le.mp he
  have hnow' := Int64.le_iff_toInt_le.mp h.since
  rw [Int64.toInt_zero] at hd' he' hnow'
  have hnow := Int64.toInt_add_of_fits h.since hd (by omega)
  have hsum := Int64.toInt_add_of_fits hd he (by omega)
  have hde : 0 ≤ d + e := Int64.le_iff_toInt_le.mpr (by rw [Int64.toInt_zero]; omega)
  obtain ⟨m, hrun1, hm, hmhost, hmothers, hmtakes⟩ :=
    h.advance (Act.nestedTo (Code.meaning host) depth) hd (by omega)
  obtain ⟨u, hrun2, hu, huhost, huothers, hutakes⟩ :=
    hm.advance (Act.nestedTo (Code.meaning host) depth) he (by omega)
  obtain ⟨v, hrun, hv, hvhost, hvothers, hvtakes⟩ :=
    h.advance (Act.nestedTo (Code.meaning host) depth) hde (by omega)
  rw [← Int64.add_assoc] at hv hvhost hvtakes
  have hle1 : now ≤ now + d := Int64.le_iff_toInt_le.mpr (by omega)
  have hnow2 := Int64.toInt_add_of_fits hm.since he (by omega)
  have hle2 : now + d ≤ now + d + e := Int64.le_iff_toInt_le.mpr (by omega)
  have hover : ∀ a ∈ w.host.clock.running, (w.host.transition a).isOver (now + d) = true →
      (w.host.transition a).isOver (now + d + e) = true := fun a ha =>
    ((h.fit a ha).mono hle1).isOver_later hle2
  have hhost : u.host = v.host := by
    rw [huhost, hmhost, hvhost, Scene.ticked_ticked h.known hover]
  -- a transition that goes on after the first tick is as it was
  have hgoing : ∀ a, a ∈ m.host.clock.running ↔
      a ∈ w.host.clock.running ∧ (w.host.transition a).isOver (now + d) = false := fun a => by
    rw [hmhost]
    simp [Scene.ticked]
  have hsame : ∀ a ∈ m.host.clock.running, m.host.transition a = w.host.transition a :=
    fun a ha => by
    obtain ⟨ha, hnot⟩ := (hgoing a).mp ha
    rw [hmhost]
    exact (Scene.transition_settle (h.known a ha)).trans (if_neg (by simp [hnot]))
  have hclock : m.host.clock.cell = w.host.clock.cell := by rw [hmhost]; rfl
  have hrest :
      ∀ c, c ≠ w.host.clock.cell → (∀ a ∈ m.host.clock.running, (w.host.transition a).cell ≠ c) →
        (u.store.cell c).value = (m.store.cell c).value := fun c hc hne =>
    huothers c (hclock ▸ hc) fun a ha => by rw [hsame a ha]; exact hne a ha
  refine ⟨u, v, (Act.interpret_bind hrun1).trans hrun2, hrun, hu, hv, hhost, fun c hc hne => ?_,
    fun a ha => ⟨?_, (hvtakes a ha).shows, fun hend => ?_⟩⟩
  · exact ⟨(hrest c hc fun a ha => hne a ((hgoing a).mp ha).1).trans (hmothers c hc hne),
      hvothers c hc hne⟩
  · have hfit := (h.fit a ha).mono hle1
    cases hended : (w.host.transition a).isOver (now + d) with
    | true =>
      -- the second tick does not come to the cell
      have hkept := hrest _ (h.apart a ha) fun b hb heq => by
        obtain ⟨hb, hnot⟩ := (hgoing b).mp hb
        rw [List.inj_on_of_nodup_map h.cells hb ha heq, hended] at hnot
        cases hnot
      have hshows := (hmtakes a ha).shows
      rw [hfit.valueAt_isOver hended] at hshows
      rw [hkept, (hfit.mono hle2).valueAt_isOver (hover a ha hended)]
      exact hshows
    | false =>
      have hmem := (hgoing a).mpr ⟨ha, hended⟩
      have htakes := hutakes a hmem
      rw [hsame a hmem] at htakes
      cases hvalue : (w.host.transition a).valueAt (now + d + e) with
      | none =>
        have hfirst := hmtakes a ha
        rw [hfit.valueAt_none hle2 hvalue] at hfirst
        rw [hvalue] at htakes
        exact Eq.trans htakes hfirst
      | some x =>
        rw [hvalue] at htakes
        exact htakes.shows
  · have hfit := ((h.fit a ha).mono hle1).mono hle2
    have hended := hfit.isOver_iff.mpr hend
    have htransition := (Scene.transition_settle (h.known a ha)).trans (if_pos ⟨ha, hended⟩)
    rw [hhost, hvhost]
    refine ⟨hfit.valueAt_isOver hended, fun hin => ?_, ?_, ?_⟩
    · have hnot := (List.mem_filter.mp hin).2
      simp [hended] at hnot
    · exact congrArg Transition.running htransition
    · exact congrArg Transition.queued htransition

end

/-! ## Two fades -/

namespace Fade

def host : Host Unit Unit := .ofValue fun _ => pure .void

/-- Two cells with a transition each: one that takes its time, and one that only waits. -/
def acts : List (SceneM Unit Unit Unit) :=
  [discard (Act.new "x" (.int 0)), discard (Act.new "y" (.int 5)),
    discard (Transition.create 1 { duration := 100, delay := 20 } Lerp.value),
    discard (Transition.create 2 { delay := 30 } Lerp.value),
    Transition.set 0 (.int 10), Transition.set 1 (.int 7)]

def started : World (Scene Unit Unit) (Code Unit) :=
  Act.session (Code.meaning host) 5 acts (World.start () false)

theorem started_sane : started.store.Sane := by
  have hstart := Path.sane (path_start (U := Unit) () false) (sane_empty false)
  obtain ⟨hpath, -⟩ := Act.toldSession_path (Code.meaning host) 5 acts
    (w := Tale.start () false) hstart rfl
  have hplain := Act.untold_toldSession (Code.meaning host) 5 acts (Tale.start () false)
  have hsane := Path.sane hpath hstart
  exact (congrArg (Sane ∘ World.store) hplain).mp hsane

theorem started_ready : started.Ready (fun _ => True) 0 := by
  have hsize : started.store.cells.size = 3 := by decide +kernel
  have hunobserved : ∀ c < 3, (started.store.cell c).observers = [] := by decide +kernel
  have hhushed : started.store.Hushed fun _ => True := by
    refine ⟨fun _ _ _ _ _ _ => trivial, fun c _ => ?_⟩
    by_cases hc : c < 3
    · exact hunobserved c hc
    · rw [cell_of_size_le (hsize ▸ not_lt.1 hc)]
  have hrunning : started.host.clock.running = [0, 1] := by decide +kernel
  have hfit : ∀ a ∈ [0, 1], let t := started.host.transition a
      t.running = true ∧ t.stopped = false ∧ t.tracker = none ∧ 0 ≤ t.spec.duration ∧
        0 ≤ t.spec.delay ∧ 0 ≤ t.started ∧ t.started ≤ 0 := by decide +kernel
  have hplain : ∀ a ∈ [0, 1], let c := (started.host.transition a).cell
      started.store.IsProperty c ∧ (started.store.cell c).dropped = false ∧
        (started.store.cell c).partner = none := by decide +kernel
  refine ⟨⟨started_sane, hhushed, ?_, ?_, ?_, fun a ha => ?_, fun a ha => ?_,
    fun _ _ => trivial, ?_⟩, by decide +kernel, trivial,
      Value.eq_duration (by decide +kernel), by decide⟩
  · exact ⟨⟨by decide +kernel, by decide +kernel, by decide +kernel⟩,
      Option.isNone_iff_eq_none.mp (by decide +kernel), by decide +kernel, by decide +kernel⟩
  · rw [hrunning]
    decide +kernel
  · rw [hrunning]
    decide +kernel
  · obtain ⟨h1, h2, h3, h4, h5, h6, h7⟩ := hfit a (hrunning ▸ ha)
    exact ⟨h1, h2, h3, h4, h5, h6, h7⟩
  · obtain ⟨h1, h2, h3⟩ := hplain a (hrunning ▸ ha)
    exact ⟨h1, h2, h3⟩
  · rw [hrunning]
    decide +kernel

end Fade

/-- After 25 and another 40 the second fade has ended, as after 65. -/
theorem ticks_compose_fades :
    let t := Fade.started.host.transition 1
    ∃ u v : World (Scene Unit Unit) (Code Unit),
      (do Clock.advance 25; Clock.advance 40).runTo (Code.meaning Fade.host) 5 Fade.started = .ok
        () u ∧ (Clock.advance (25 + 40)).runTo (Code.meaning Fade.host) 5 Fade.started = .ok () v ∧
        u.host = v.host ∧ 1 ∉ u.host.clock.running ∧
        Value.Shows (Fade.started.store.cell t.cell).value (u.store.cell t.cell).value
          (some t.target) := by
  intro t
  obtain ⟨u, v, hrun, hrun', -, -, hhost, -, hvalues⟩ :=
    ticks_compose Fade.host 5 Fade.started_ready (d := 25) (e := 40) (by decide) (by decide)
      (by decide)
  obtain ⟨hshows, -, hend⟩ := hvalues 1 (by decide +kernel)
  obtain ⟨htarget, hout, -⟩ := hend (by decide +kernel)
  rw [htarget] at hshows
  exact ⟨u, v, hrun, hrun', hhost, hout, hshows⟩

/-- The bits of a float that fades from one to the negative zero in a second, after some ticks. -/
def Fade.bits (ticks : List Int64) : Option UInt64 :=
  let spec := { duration := 1000000000, easing := Easing.easeOut.apply }
  let w := Act.session (Code.meaning host) 5 (discard (Act.new "x" (.float 1)) ::
    discard (Transition.create 1 spec Lerp.value) :: Transition.set 0 (.float (-0)) ::
    ticks.map Clock.advance) (World.start () false)
  match (w.store.cell 1).value with
  | .float x => some x.toBits
  | _ => none

/-- The last tick does not write the other zero if there was a tick just before. -/
theorem zero_depends_on_ticks : Fade.bits [999999999, 1] = some (0 : Float).toBits ∧
    Fade.bits [1000000000] = some (-0 : Float).toBits ∧
    (0 : Float).toBits ≠ (-0 : Float).toBits := by
  decide +kernel

end ReactiveTree
