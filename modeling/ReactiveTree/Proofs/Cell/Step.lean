import Mathlib.Logic.Relation
import ReactiveTree.Proofs.Cell.Chronicle
import ReactiveTree.Proofs.Cell.Frames

/-!
# Steps of a run

A run nests: a read runs a binding, which reads, writes and notifies. `Step` says once what
can happen next, whatever the nesting: one constructor for each thing that the store is
asked for between two points where code of others has control. A stop is a mode of its own,
in which evaluations in progress are left one after another until one catches it or the
program ends.
-/

namespace ReactiveTree

variable {K : Type → Type}

namespace Store

/-- A cell that holds a value. -/
def IsProperty (s : Store K) (c : CellId) : Prop := c < s.cells.size ∧ (s.cell c).tracker = false

instance (s : Store K) (c : CellId) : Decidable (s.IsProperty c) :=
  inferInstanceAs (Decidable (_ ∧ _))

def IsTracker (s : Store K) (t : CellId) : Prop := t < s.cells.size ∧ (s.cell t).tracker = true

instance (s : Store K) (t : CellId) : Decidable (s.IsTracker t) :=
  inferInstanceAs (Decidable (_ ∧ _))

/-- Stores the result of a binding, if it is still the binding number `bindings`. -/
def keep (s : Store K) (c : CellId) (bindings : Nat) (v : Value) : Store K :=
  s.modify c fun cell =>
    if cell.bindings = bindings && !cell.dropped then { cell with value := v } else cell

/-- Sends the writes to `c` to `root`. -/
abbrev pair (s : Store K) (c root : CellId) : Store K :=
  s.modify c fun cell => { cell with partner := some root }

end Store

/-- A cell as it is when it is made. -/
inductive Cell.Blank : Cell K → Prop where
  | value (name : String) (v : Value) : Blank { name, value := v }
  | bound (name : String) (code : K Value) :
      Blank { name, binding := some (.code code), bindings := 1, state := .dirty }
  | tracker (name : String) : Blank { name, tracker := true, state := .dirty }

/-- A store, what has happened so far, and why the run is being unwound, if it is. -/
structure Stage (K : Type → Type) where
  store : Store K
  past : Chronicle K
  stop : Option Stop

inductive Step : Stage K → Stage K → Prop where
  | control {s : Store K} {past} : Step ⟨s, past, none⟩ ⟨s, ⟨.control, s⟩ :: past, none⟩
  | wrote {s : Store K} {past} (c : CellId) :
      Step ⟨s, past, none⟩ ⟨s, ⟨.wrote c, s⟩ :: past, none⟩
  | record {s : Store K} {past} (e : Entry) : Step ⟨s, past, none⟩ ⟨s.record e, past, none⟩
  | observe {s : Store K} {past} (c : CellId) (code : K Unit) :
      Step ⟨s, past, none⟩ ⟨(s.observe c code).2, past, none⟩
  | unobserve {s : Store K} {past} (o : ObserverId) :
      Step ⟨s, past, none⟩ ⟨s.unobserve o, past, none⟩
  | add {s : Store K} {past} {cell : Cell K} (h : cell.Blank) :
      Step ⟨s, past, none⟩ ⟨(s.add cell).2, past, none⟩
  /-- An untracked region begins. -/
  | shelter {s : Store K} {past} :
      Step ⟨s, past, none⟩ ⟨s.pushFrame none, ⟨.sheltered, s⟩ :: past, none⟩
  /-- An untracked region ends, in either mode. -/
  | unshelter {s : Store K} {past stop} {seen : List CellId} {rest : List Frame}
      (h : s.frames = ⟨none, seen⟩ :: rest) :
      Step ⟨s, past, stop⟩ ⟨s.popFrame, ⟨.bared, s.popFrame⟩ :: past, stop⟩
  /-- A dropped cell is read. -/
  | readDropped {s : Store K} {past} {c : CellId} (h : s.IsProperty c)
      (hd : (s.cell c).dropped = true) :
      Step ⟨s, past, none⟩ ⟨s, ⟨.got c (s.cell c).value, s⟩ :: past, none⟩
  | readClean {s : Store K} {past} {c : CellId} (h : s.IsProperty c)
      (hd : (s.cell c).dropped = false) (hs : (s.cell c).state = .clean) :
      Step ⟨s, past, none⟩
        ⟨s.track c, ⟨.got c (s.cell c).value, s.track c⟩ :: past, none⟩
  /-- A dirty cell without a binding is read. -/
  | readUnbound {s t : Store K} {past} {c : CellId} (h : s.IsProperty c)
      (hd : (s.cell c).dropped = false) (hs : (s.cell c).state = .dirty)
      (hb : (s.cell c).binding = none)
      (ht : t = (s.track c).modify c fun cell => { cell with state := .clean }) :
      Step ⟨s, past, none⟩ ⟨t, ⟨.got c (s.cell c).value, t⟩ :: past, none⟩
  /-- A dirty cell with a binding is read. -/
  | beginRead {s : Store K} {past} {c : CellId} (h : s.IsProperty c)
      (hd : (s.cell c).dropped = false) (hs : (s.cell c).state = .dirty)
      (hb : (s.cell c).binding.isSome) :
      Step ⟨s, past, none⟩ ⟨(s.track c).enter c, ⟨.began c, s.track c⟩ :: past, none⟩
  | beginWork {s : Store K} {past} {t : CellId} (h : s.IsTracker t)
      (hd : (s.cell t).dropped = false) (hs : (s.cell t).state ≠ .evaluating) :
      Step ⟨s, past, none⟩ ⟨s.enter t, ⟨.began t, s⟩ :: past, none⟩
  /-- A cell that is being evaluated is read. -/
  | refuseRead {s : Store K} {past} {c : CellId} (h : s.IsProperty c)
      (hd : (s.cell c).dropped = false) (hs : (s.cell c).state = .evaluating) :
      Step ⟨s, past, none⟩ ⟨s.track c, ⟨.refused c, s.track c⟩ :: past,
        some (.cycle ((s.track c).cycleError c))⟩
  /-- Work is begun under a tracker whose work is in progress. -/
  | refuseWork {s : Store K} {past} {t : CellId} (h : s.IsTracker t)
      (hd : (s.cell t).dropped = false) (hs : (s.cell t).state = .evaluating) :
      Step ⟨s, past, none⟩ ⟨s, ⟨.refused t, s⟩ :: past, some (.cycle (s.cycleError t))⟩
  | fail {s : Store K} {past} {stop : Stop} (h : ∀ e, stop ≠ .cycle e) :
      Step ⟨s, past, none⟩ ⟨s, past, some stop⟩
  /-- The innermost evaluation completes. Its result is stored if its binding is still the
  binding number `bindings`. -/
  | finishRead {s t : Store K} {past} {c : CellId} (bindings : Nat) (v : Value)
      (hr : s.reader = some c) (ht : (s.cell c).tracker = false)
      (h : t = (s.keep c bindings v).leave c true) :
      Step ⟨s, past, none⟩
        ⟨t, ⟨.got c (t.cell c).value, t⟩ :: ⟨.ended c true, t⟩ :: past, none⟩
  | finishWork {s : Store K} {past} {t : CellId} (hr : s.reader = some t)
      (ht : (s.cell t).tracker = true) :
      Step ⟨s, past, none⟩ ⟨s.leave t true, ⟨.ended t true, s.leave t true⟩ :: past, none⟩
  /-- The innermost evaluation is cut short. -/
  | abort {s : Store K} {past stop} {c : CellId} (hr : s.reader = some c) :
      Step ⟨s, past, some stop⟩
        ⟨s.leave c false, ⟨.ended c false, s.leave c false⟩ :: past, some stop⟩
  /-- The outermost evaluation is cut short and turns a cycle into an error. -/
  | caught {s : Store K} {past} {e : CycleError} {c : CellId} (hr : s.reader = some c)
      (ha : (s.leave c false).active = 0) :
      Step ⟨s, past, some (.cycle e)⟩
        ⟨s.leave c false, ⟨.ended c false, s.leave c false⟩ :: past, none⟩
  /-- The next program of a session begins. -/
  | resume {s : Store K} {past stop} (h : s.frames = []) :
      Step ⟨s, past, some stop⟩ ⟨s, past, none⟩
  /-- A cell is written. Like every change of what cells are computed from, this is announced
  by an event. -/
  | write {s : Store K} {past} {c : CellId} (v : Value) (h : s.IsProperty c)
      (hd : (s.cell c).dropped = false) :
      Step ⟨s, ⟨.wrote c, s⟩ :: past, none⟩
        ⟨s.written (s.linkRoot c) v, ⟨.wrote c, s⟩ :: past, none⟩
  | rebind {s : Store K} {past} {c : CellId} {b : Binding K} (h : s.IsProperty c)
      (hd : (s.cell c).dropped = false) (hb : ∀ root, b = .follow root → s.IsProperty root) :
      Step ⟨s, ⟨.wrote c, s⟩ :: past, none⟩ ⟨(s.rebind c b).upset c, ⟨.wrote c, s⟩ :: past, none⟩
  /-- A link sends the writes to `c` to `root`. -/
  | pair {s : Store K} {past} {c root : CellId} (hr : s.IsProperty root) :
      Step ⟨s, past, none⟩ ⟨s.modify c fun cell => { cell with partner := some root }, past, none⟩
  | drop {s : Store K} {past} {c : CellId} (h : c < s.cells.size) :
      Step ⟨s, past, none⟩ ⟨s.drop c, past, none⟩
  /-- A tracker is invalidated. -/
  | forget {s : Store K} {past} {t : CellId} (h : s.IsTracker t)
      (hd : (s.cell t).dropped = false) :
      Step ⟨s, ⟨.wrote t, s⟩ :: past, none⟩ ⟨s.forget t, ⟨.wrote t, s⟩ :: past, none⟩

abbrev Path : Stage K → Stage K → Prop := Relation.ReflTransGen Step

/-- A step that leaves the lower part `base` of the stack alone. -/
def Step.Over (base : List (Option CellId)) (k k' : Stage K) : Prop :=
  Step k k' ∧ base <:+ k'.store.stack

abbrev PathOver (base : List (Option CellId)) : Stage K → Stage K → Prop :=
  Relation.ReflTransGen (Step.Over base)

/-- Whenever code of others had control, the run stood at a stage with that past. -/
theorem Path.moment {k k' : Stage K} (path : Path k k') {m : Moment K} {past : Chronicle K}
    (h : m :: past <:+ k'.past) (hctl : m.event = .control) :
    m :: past <:+ k.past ∨ Path k ⟨m.store, past, none⟩ := by
  induction path with
  | refl => exact .inl h
  | tail path step ih =>
    have hnew : ∀ {e : Event} {s : Store K} {past' : Chronicle K}, m :: past <:+ ⟨e, s⟩ :: past' →
        e ≠ .control → m :: past <:+ past' := by
      intro e s past' h he
      rcases List.suffix_cons_iff.mp h with h | h
      · cases h
        exact absurd hctl he
      · exact h
    cases step with
    | control =>
      rcases List.suffix_cons_iff.mp h with h | h
      · cases h
        exact .inr path
      · exact ih h
    | finishRead => exact ih (hnew (hnew h nofun) nofun)
    | wrote | readDropped | readClean | readUnbound | beginRead | beginWork | refuseRead
      | refuseWork
    | finishWork | abort | caught | shelter | unshelter => exact ih (hnew h nofun)
    | record | observe | unobserve | add | fail | resume | write | rebind
    | pair | drop | forget => exact ih h

theorem PathOver.path {base : List (Option CellId)} {k k' : Stage K} (h : PathOver base k k') :
    Path k k' := Relation.ReflTransGen.mono (fun _ _ h => h.1) _ _ h

theorem PathOver.lower {base base' : List (Option CellId)} {k k' : Stage K} (h : PathOver base k k')
    (hb : base' <:+ base) : PathOver base' k k' :=
  Relation.ReflTransGen.mono (fun _ _ h => ⟨h.1, hb.trans h.2⟩) _ _ h

end ReactiveTree
