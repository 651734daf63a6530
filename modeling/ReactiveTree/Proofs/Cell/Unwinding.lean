import ReactiveTree.Proofs.Cell.CycleReport

/-!
# Calls that fail leave no trace

Whatever a call does and however it ends, the evaluation stack and the count of evaluations in
progress are afterwards what they were. A read from outside that writes nothing leaves each cell
it evaluated with its new value, if that evaluation completed, and else dirty and with the value
it had, and the error it may report tells of evaluations that asked for one another.
-/

namespace ReactiveTree

variable {S : Type} {K : Type → Type}

open Store Told

/-- What a call in the store `s` that wrote nothing leaves behind in `t`. -/
structure Unwound (s t : Store K) (past : Chronicle K) : Prop where
  finished : ∀ c, past.fate c ≠ .ongoing
  completed : ∀ c v, past.fate c = .completed v →
    (t.cell c).state = .clean ∧ (t.cell c).value = v
  cut : ∀ c, past.fate c = .cut →
    (t.cell c).state = .dirty ∧ (t.cell c).value = (s.cell c).value
  idle : ∀ c, c < s.cells.size → past.fate c = .idle → (t.cell c).value = (s.cell c).value

theorem Account.unwound {s : Store K} {k : Stage K} (h : Account s k)
    (hcons : k.store.consumers = []) : Unwound s k.store k.past := by
  refine ⟨fun c hc => ?_, h.completed, fun c hc => ?_, fun c hlt hc => h.idle c hc (.inl hlt)⟩
  · have hmem := (h.ongoing c).mp hc
    rw [hcons] at hmem
    cases hmem
  · exact ⟨(h.cut c hc).1, h.held c (.inr (.inl hc))⟩

/-! ## Reads from outside -/

/-- The outermost evaluation, up to its end. -/
structure Outermost (c : CellId) (w w' : Tale S K) (stop : Option Stop) : Prop where
  computed : (w.store.cell c).Computed
  begun : Step ⟨w.store, w.past, none⟩ ⟨(entering c w).store, (entering c w).past, none⟩
  path : PathOver (entering c w).store.stack
    ⟨(entering c w).store, (entering c w).past, none⟩ ⟨w'.store, w'.past, stop⟩
  reader : w'.store.reader = some c

/-- How a read of `c` from outside ends. -/
inductive ReadOutside (c : CellId) (w : Tale S K) :
    EStateM.Result Stop (Tale S K) (Value × Option CycleError) → Prop where
  /-- There is nothing to evaluate. -/
  | settled {t : Store K} {v : Value} (hv : v = (t.cell c).value)
      (step : Step ⟨w.store, w.past, none⟩ ⟨t, ⟨.got c v, t⟩ :: w.past, none⟩)
      (hsame : t.evaluations = w.store.evaluations)
      (hset : (t.cell c).state = .clean ∨ (t.cell c).dropped = true) :
      ReadOutside c w (.ok (v, none) (World.noting (.got c v) ⟨t, w.host⟩))
  | completed {w' out : Tale S K} {bindings : Nat} {v : Value}
      (h : Outermost c w w' none) (ht : (w'.store.cell c).tracker = false)
      (hout : out = leaving c true ⟨w'.store.keep c bindings v, w'.host⟩) :
      ReadOutside c w
        (.ok ((out.store.cell c).value, none) (out.noting (.got c (out.store.cell c).value)))
  /-- The outermost evaluation turns a cycle into an error. -/
  | failed {w' : Tale S K} {stop : Stop}
      {r : EStateM.Result Stop (Tale S K) (Value × Option CycleError)}
      (h : Outermost c w w' (some stop))
      (heq : (∃ v e, stop = .cycle e ∧ r = .ok (v, some e) (leaving c false w')) ∨
        (∀ e, stop ≠ .cycle e) ∧ r = .error stop (leaving c false w')) : ReadOutside c w r

theorem Store.track_of_rest {s : Store K} (h : s.consumers = []) (c : CellId) : s.track c = s := by
  have ht := s.tracked c
  generalize s.track c = t at ht ⊢
  cases ht with
  | idle => rfl
  | edge hf hc => simp [consumers, stack, hf, hc] at h

section

variable {nested : Nested (S × Chronicle K) K} {s : Store K} {w : Tale S K} {c : CellId}
  {r : EStateM.Result Stop (Tale S K) (Value × Option CycleError)}

theorem tryGet_outside (hn : NestedFlows nested) (hs : w.store.Sane)
    (hrest : w.store.consumers = []) (hc : w.store.IsProperty c) :
    ReadOutside c w (tryGet nested c w) := by
  have htrack := track_of_rest hrest c
  cases hd : (w.store.cell c).dropped with
  | true =>
    rw [tryGet_of_dropped hd]
    exact .settled rfl (.readDropped hc hd) rfl (.inr hd)
  | false =>
    cases hst : (w.store.cell c).state with
    | clean =>
      have hstep : Step ⟨w.store, w.past, none⟩ _ := .readClean hc hd hst
      rw [htrack] at hstep
      rw [tryGet_of_clean hd hst, htrack]
      exact .settled rfl hstep rfl (.inl hst)
    | evaluating =>
      have hmem := hs.evaluating c hst
      rw [hrest] at hmem
      cases hmem
    | dirty =>
      cases hb : (w.store.cell c).binding with
      | none =>
        have hcell : (w.store.modify c fun cell => { cell with state := .clean }).cell c = _ :=
          cell_modify_self hc.1 _
        rw [tryGet_of_unbound hd hst hb, htrack]
        exact .settled (congrArg Cell.value hcell).symm
          (.readUnbound hc hd hst hb (by rw [htrack])) rfl (.inl (congrArg Cell.state hcell))
      | some b =>
        have hsome : (w.store.cell c).binding.isSome := by simp [hb]
        have hbegun : Step ⟨w.store, w.past, none⟩ _ := .beginRead hc hd hst hsome
        have hok := fun v w' (h : Run.compute nested b _ = .ok v w') => tryGet_of_ok hd hst hb h rfl
        have herror := fun stop w' (h : Run.compute nested b _ = .error stop w') =>
          tryGet_of_error hd hst hb h
        rw [htrack] at hbegun hok herror
        have hsu := hbegun.sane hs
        have hr := hn.compute b (entering c w) hsu trivial
        cases hx : Run.compute nested b (entering c w) with
        | ok v w' =>
          rw [hx] at hr
          rw [hok v w' hx]
          exact .completed ⟨.inl hsome, hbegun, hr.1, (Level.leave hr.2 true).1⟩
            ((hc.kept (hbegun.kept hs)).kept (Path.kept hr.1.path hsu)).2 rfl
        | error stop w' =>
          rw [hx] at hr
          refine .failed ⟨.inl hsome, hbegun, hr.1, (Level.leave hr.2 false).1⟩ ?_
          rcases herror stop w' hx with ⟨e, he, -, heq⟩ | ⟨hact, heq⟩
          · exact .inl ⟨_, e, he, heq⟩
          · exact .inr ⟨fun e he => hact e he ((Level.leave hr.2 false).2.active.trans
              (hs.active.trans (congrArg List.length hrest))), heq⟩

theorem Outermost.account {w' : Tale S K} {stop : Option Stop} (h : Outermost c w w' stop)
    (hs : w.store.Sane) (hacc : Account s ⟨w.store, w.past, none⟩) (hquiet : w'.past.Writeless) :
    Account s ⟨w'.store, w'.past, stop⟩ := by
  have hstack : (entering c w).store.stack = some c :: w.store.stack := by simp [entering]
  have hquiet' := hquiet.of_suffix (Path.past_suffix h.path.path)
  exact h.path.account (p := c) (by simp [hstack]) (h.begun.sane hs)
    (h.begun.account hs hacc hquiet' (.inl rfl)) hquiet

theorem Outermost.sane {w' : Tale S K} {stop : Option Stop} (h : Outermost c w w' stop)
    (hs : w.store.Sane) : w'.store.Sane := Path.sane h.path.path (h.begun.sane hs)

theorem ReadOutside.unwound (h : ReadOutside c w r) (hs : w.store.Sane)
    (hacc : Account s ⟨w.store, w.past, none⟩) (hrest : (Act.outcome r).store.consumers = [])
    (hquiet : (Act.outcome r).past.Writeless) :
    Unwound s (Act.outcome r).store (Act.outcome r).past := by
  cases h with
  | settled hv step => exact (step.account hs hacc hquiet (.inl rfl)).unwound hrest
  | @completed w' out bindings v h ht hout =>
    subst hout
    have hacc' := h.account hs hacc
      (hquiet.of_suffix ((List.suffix_cons ..).trans (List.suffix_cons ..)))
    exact ((Step.finishRead bindings v h.reader ht rfl).account (h.sane hs) hacc' hquiet
      (.inl rfl)).unwound hrest
  | @failed w' stop r h heq =>
    have hout : Act.outcome r = leaving c false w' := by
      rcases heq with ⟨v, e, -, rfl⟩ | ⟨-, rfl⟩ <;> rfl
    rw [hout] at hrest hquiet ⊢
    exact ((h.account hs hacc (hquiet.of_suffix (List.suffix_cons ..))).leave
      (h.sane hs) h.reader false nofun).unwound hrest

/-- An error that a read from outside returns was met on the way, and no other read meets it. -/
theorem ReadOutside.reports (h : ReadOutside c w r) (hs : w.store.Sane)
    (hrest : w.store.consumers = []) :
    (∀ v e w', r = .ok (v, some e) w' → e.Reports w'.past) ∧ ∀ e w', r ≠ .error (.cycle e) w' := by
  cases h with
  | settled | completed => exact ⟨by rintro _ _ _ ⟨⟩, by rintro _ _ ⟨⟩⟩
  | @failed w' stop r h heq =>
    have hask : Stage.Asked ⟨w.store, w.past, none⟩ := by simp [Stage.Asked, hrest]
    have hblame := (Path.blamed (.head h.begun h.path.path) hs hask nofun).2
    rcases heq with ⟨v, e, rfl, rfl⟩ | ⟨hstop, rfl⟩
    · refine ⟨?_, by rintro _ _ ⟨⟩⟩
      rintro _ _ _ ⟨⟩
      exact (hblame e rfl).of_suffix (List.suffix_cons ..)
    · refine ⟨by rintro _ _ _ ⟨⟩, ?_⟩
      rintro e _ ⟨⟩
      exact hstop e rfl

end

/-! ## Sessions -/

namespace Told

variable {α : Type}

/-- A plain read from a read that returns its error: the error is reported. -/
def reporting : EStateM.Result Stop (World S K) (Value × Option CycleError) →
    EStateM.Result Stop (World S K) Value
  | .ok (v, none) w => .ok v w
  | .ok (v, some e) w => (do Run.reportError e; return v : Run S K Value) w
  | .error stop w => .error stop w

theorem get_eq (nested : Nested (S × Chronicle K) K) (c : CellId) (w : Tale S K) :
    Told.get nested c w = reporting (tryGet nested c w) := by
  show EStateM.bind (tryGet nested c) _ w = _
  unfold EStateM.bind
  rcases tryGet nested c w with ⟨⟨v, _ | e⟩, w'⟩ | ⟨stop, w'⟩ <;> rfl

theorem cell_reportError (e : CycleError) (v : Value) (w : World S K) (c : CellId) :
    (Act.outcome ((do Run.reportError e; return v : Run S K Value) w)).store.cell c =
      w.store.cell c := by
  show (if w.store.reports = true then w.store.record (.report e) else w.store.log _ : Store
    K).cell c = _
  split <;> rfl

end Told

/-- A read from outside in the store `s` that ended as `r`, and returned its error. -/
structure Harmless (s : Store K)
    (r : EStateM.Result Stop (World (S × Chronicle K) K) (Value × Option CycleError)) : Prop where
  unwound : (Act.outcome r).past.Writeless →
    Unwound s (Act.outcome r).store (Act.outcome r).past
  /-- An error is returned for a ring of evaluations only. -/
  reported : ∀ v e w, r = .ok (v, some e) w → e.Reports w.past ∧
    2 ≤ e.path.length ∧ e.path.head? = some e.property ∧ e.path.getLast? = some e.property
  /-- No cycle goes further than to the outermost evaluation. -/
  caught : ∀ e w, r ≠ .error (.cycle e) w

/-- What calls that are made in the store `s` leave behind. -/
structure Store.Unwinds (meaning : {α : Type} → K α → Act S K α) (s : Store K) : Prop where
  /-- The evaluation stack and the count of evaluations in progress are as before. -/
  balanced : ∀ {α : Type} (act : Act S K α) (depth : Nat) (host : S),
    Level s (Act.outcome (act.runTo meaning depth ⟨s, host⟩)).store
  tryGet : s.active = 0 → ∀ (p : CellId) (depth : Nat) (host : S),
    let r := (Act.tryGet p).tell (Act.toldTo meaning depth) ⟨s, host, []⟩
    untoldResult r = (Act.tryGet p).runTo meaning depth ⟨s, host⟩ ∧ Harmless s r
  get : s.active = 0 → ∀ (p : CellId) (depth : Nat) (host : S),
    let r := (Act.get p).tell (Act.toldTo meaning depth) ⟨s, host, []⟩
    untoldResult r = (Act.get p).runTo meaning depth ⟨s, host⟩ ∧
      r = reporting ((Act.tryGet p).tell (Act.toldTo meaning depth) ⟨s, host, []⟩) ∧
      ((Act.outcome r).past.Writeless → Unwound s (Act.outcome r).store (Act.outcome r).past)

section

variable (meaning : {α : Type} → K α → Act S K α)

theorem level_runTo {s : Store K} (hs : s.Sane) {α : Type} (act : Act S K α) (depth : Nat)
    (host : S) : Level s (Act.outcome (act.runTo meaning depth ⟨s, host⟩)).store := by
  have hflow := Act.tell_flows (Act.toldTo_flows meaning depth) act ⟨s, host, []⟩ hs trivial
  have hecho : untoldResult (act.tell (Act.toldTo meaning depth) ⟨s, host, []⟩) =
      act.runTo meaning depth ⟨s, host⟩ :=
    Act.tell_echoes (Act.toldTo_echoes meaning depth) act ⟨s, host, []⟩
  rw [← hecho, ← Act.outcome_untold]
  cases hr : act.tell (Act.toldTo meaning depth) ⟨s, host, []⟩ <;> rw [hr] at hflow <;>
    exact hflow.2

/-- The program of one read, in a store in which nothing is being evaluated. -/
theorem harmless_tryGet {s : Store K} (hs : s.Sane) (hrest : s.consumers = []) (p : CellId)
    (depth : Nat) (host : S) :
    Harmless s ((Act.tryGet p).tell (Act.toldTo meaning depth) ⟨s, host, []⟩) := by
  set w : Tale S K := World.beat ⟨s, host, []⟩ with hw
  have hacc : Account s ⟨w.store, w.past, none⟩ := (Account.start hrest).note fun _ => rfl
  have htell : (Act.tryGet p).tell (Act.toldTo meaning depth) ⟨s, host, []⟩ =
      if w.store.IsProperty p then tryGet (Act.toldTo meaning depth) p w
      else .error (.unknownCell p) w := Run.onProperty_eq ..
  have hn := Act.toldTo_flows meaning depth
  rw [htell]
  by_cases hp : w.store.IsProperty p
  · rw [if_pos hp]
    have hread := tryGet_outside hn hs hrest hp
    obtain ⟨hrep, hcaught⟩ := hread.reports hs hrest
    have hlevel : (Act.outcome (tryGet (Act.toldTo meaning depth) p w)).store.consumers = [] := by
      have hreach := hn.tryGet p w hs hp
      rw [consumers, ← hrest, consumers]
      cases hx : tryGet (Act.toldTo meaning depth) p w <;> rw [hx] at hreach <;>
        exact congrArg _ hreach.2.stack
    exact ⟨hread.unwound hs hacc hlevel,
      fun v e w' heq => ⟨hrep v e w' heq, (hrep v e w' heq).ends⟩, hcaught⟩
  · rw [if_neg hp]
    refine ⟨fun _ => hacc.unwound hrest, ?_, ?_⟩
    · rintro _ _ _ ⟨⟩
    · rintro _ _ ⟨⟩

theorem tell_get (p : CellId) (depth : Nat) (w : Tale S K) :
    (Act.get p).tell (Act.toldTo meaning depth) w =
      reporting ((Act.tryGet p).tell (Act.toldTo meaning depth) w) := by
  have hget : (Act.get p).tell (Act.toldTo meaning depth) w =
      if w.store.IsProperty p then Told.get (Act.toldTo meaning depth) p w.beat
      else .error (.unknownCell p) w.beat := Run.onProperty_eq ..
  have htry : (Act.tryGet p).tell (Act.toldTo meaning depth) w =
      if w.store.IsProperty p then tryGet (Act.toldTo meaning depth) p w.beat
      else .error (.unknownCell p) w.beat := Run.onProperty_eq ..
  rw [hget, htry]
  split
  · exact get_eq ..
  · rfl

theorem unwound_reporting {s : Store K}
    {r : EStateM.Result Stop (Tale S K) (Value × Option CycleError)}
    (h : (Act.outcome r).past.Writeless → Unwound s (Act.outcome r).store (Act.outcome r).past) :
      (Act.outcome (reporting r)).past.Writeless → Unwound s (Act.outcome (reporting r)).store
        (Act.outcome (reporting r)).past := by
  rcases r with ⟨⟨v, _ | e⟩, w⟩ | ⟨stop, w⟩
  · exact h
  · intro hquiet
    obtain ⟨hfinished, hcompleted, hcut, hidle⟩ := h hquiet
    have hcell := cell_reportError e v w
    exact ⟨hfinished, fun c v' hc => by rw [reporting, hcell c]; exact hcompleted c v' hc,
      fun c hc => by rw [reporting, hcell c]; exact hcut c hc,
      fun c hlt hc => by rw [reporting, hcell c]; exact hidle c hlt hc⟩
  · exact h

theorem Store.Sane.unwinds {s : Store K} (hs : s.Sane) : s.Unwinds meaning := by
  have hrest : s.active = 0 → s.consumers = [] := fun ha =>
    List.length_eq_zero_iff.mp (hs.active.symm.trans ha)
  refine ⟨level_runTo meaning hs, fun ha p depth host => ⟨?_, ?_⟩,
    fun ha p depth host => ⟨?_, tell_get .., ?_⟩⟩
  · exact Act.tell_echoes (Act.toldTo_echoes meaning depth) (Act.tryGet p) ⟨s, host, []⟩
  · exact harmless_tryGet meaning hs (hrest ha) p depth host
  · exact Act.tell_echoes (Act.toldTo_echoes meaning depth) (Act.get p) ⟨s, host, []⟩
  · rw [tell_get]
    exact unwound_reporting (harmless_tryGet meaning hs (hrest ha) p depth host).unwound

end

theorem toldSession_sane (meaning : {α : Type} → K α → Act S K α) (depth : Nat) (reports : Bool)
    (host : S) (acts : List (Act S K Unit)) :
    let told := Act.toldSession meaning depth acts ⟨{ reports }, host, []⟩
    told.store.Sane ∧ ∀ m ∈ told.past, m.event = .control → m.store.Sane := by
  obtain ⟨hpath, -⟩ := Act.toldSession_path meaning depth acts
    (w := ⟨{ reports }, host, []⟩) (sane_empty reports) rfl
  refine ⟨Path.sane hpath (sane_empty reports), fun m hm hctl => ?_⟩
  obtain ⟨_, past, hpast⟩ := List.append_of_mem hm
  rcases hpath.moment ⟨_, hpast.symm⟩ hctl with hnone | hpath
  · cases List.suffix_nil.mp hnone
  · exact Path.sane hpath (sane_empty reports)

/-- In every session of every program, calls leave the evaluation stack as it was, and reads that
fail do no harm, whenever code of others has control and when the session is over. -/
theorem session_unwinds (meaning : {α : Type} → K α → Act S K α) (depth : Nat) (reports : Bool)
    (host : S) (acts : List (Act S K Unit)) :
    let told := Act.toldSession meaning depth acts ⟨{ reports }, host, []⟩
    told.untold = Act.session meaning depth acts ⟨{ reports }, host⟩ ∧
      told.store.Unwinds meaning ∧
      ∀ m ∈ told.past, m.event = .control → m.store.Unwinds meaning := by
  obtain ⟨hs, hms⟩ := toldSession_sane meaning depth reports host acts
  exact ⟨Act.untold_toldSession .., hs.unwinds meaning,
    fun m hm hctl => (hms m hm hctl).unwinds meaning⟩

/-! ## A cell that completes inside a ring of two others -/

/-- The code of the bindings of three cells. -/
inductive Knot : Type → Type where
  | steady : Knot Value
  | left : Knot Value
  | right : Knot Value

namespace Knot

def meaning {α : Type} : Knot α → Act Unit Knot α
  | .steady => .pure (.int 7)
  | .left => .bind (.get 0) fun _ => .get 2
  | .right => .get 1

def acts : List (Act Unit Knot Unit) :=
  [.bind (.newBound "steady" .steady) fun _ => .pure (),
    .bind (.newBound "left" .left) fun _ => .pure (),
    .bind (.newBound "right" .right) fun _ => .pure ()]

def store : Store Knot := (Act.session meaning 5 acts ⟨{}, ()⟩).store

/-- The path that a read of cell 1 reports, and the states of the three cells afterwards. -/
def read : Option (List String) × List CellState :=
  match (Act.tryGet 1).runTo meaning 3 ⟨store, ()⟩ with
  | .ok (_, e) w => (e.map CycleError.path, w.store.cells.toList.map Cell.state)
  | .error _ w => (none, w.store.cells.toList.map Cell.state)

end Knot

theorem session_unwinds_knot :
    Knot.store.active = 0 ∧ Knot.store.Unwinds Knot.meaning ∧
      Knot.read = (some ["left", "right", "left"], [.clean, .dirty, .dirty]) := by
  have h := session_unwinds Knot.meaning 5 false () Knot.acts
  refine ⟨by decide +kernel, ?_, by decide +kernel⟩
  rw [Knot.store, ← h.1]
  exact h.2.1

end ReactiveTree
