import ReactiveTree.Proofs.Animation.Queue
import ReactiveTree.Proofs.Cell.Upstream

/-!
# Code that minds its own business

The code of bindings and observers reads cells, writes some that are set aside for it, and looks
after its own state. Run at any depth, it changes transitions only by telling them that their
bindings have changed, leaves all observers where they are, and runs no work under a tracker. The
regime `minding` says so, and also what becomes of a cell `x` that such code does not write.
-/

namespace ReactiveTree

open Store

variable {U X : Type}

/-- Code that has to do with cells only: neither the actions of a declared handler nor a
repeater's. -/
def Code.Minds : {α : Type} → Code U α → Prop
  | _, .handle (.actions _) _ => False
  | _, .remodel _ => False
  | _, .coerced _ _ body => body.Minds
  | _, _ => True

theorem Code.Minds.plain {α : Type} {code : Code U α} (h : code.Minds) : code.Plain := by
  induction code with
  | coerced name kind body ih => exact ih h
  | handle handler args =>
    cases handler with
    | user u self => trivial
    | actions steps => exact h
  | _ => trivial

/-- What user code may do: read cells, write those in `shared`, and change what it keeps in the
scene. -/
inductive Minding (shared : CellId → Prop) : ⦃α : Type⦄ → SceneM U X α → Prop where
  | read (c : CellId) : Minding shared (.get c)
  | tryRead (c : CellId) : Minding shared (.tryGet c)
  | write {c : CellId} (h : shared c) (v : Value) : Minding shared (.set c v)
  | aside {α : Type} (f : X → α × X) :
      Minding shared (.host fun s => ((f s.user).1, { s with user := (f s.user).2 }))

structure Host.Minds (host : Host U X) (shared : CellId → Prop) : Prop where
  value : ∀ u self args, Act.Composed (Minding shared) (host.value u self args)
  model : ∀ u self, Act.Composed (Minding shared) (host.model u self)
  peer : ∀ u change, Act.Composed (Minding shared) (host.peer u change)

/-! ## What such code changes -/

/-- Told that its binding has changed, and put into the clock's list. -/
def Transition.flag (t : Transition U) :
    Transition U := { t with bindingChanged := true, queued := true }

/-- Some transitions may have been told that their bindings have changed. -/
structure Scene.Nudges (s t : Scene U X) : Prop where
  size : t.transitions.size = s.transitions.size
  transition : ∀ a, t.transition a = s.transition a ∨ t.transition a = (s.transition a).flag
  clock : t.clock.cell = s.clock.cell

namespace Scene.Nudges

variable {s t u : Scene U X}

theorem of_eq (h : t.transitions = s.transitions) (hc : t.clock.cell = s.clock.cell) : s.Nudges t :=
  ⟨by rw [h], fun a => .inl (by rw [Scene.transition, Scene.transition, h]), hc⟩

theorem refl (s : Scene U X) : s.Nudges s := of_eq rfl rfl

theorem trans (h : s.Nudges t) (h' : t.Nudges u) : s.Nudges u := by
  refine ⟨h'.size.trans h.size, fun a => ?_, h'.clock.trans h.clock⟩
  rcases h'.transition a with h' | h' <;> rw [h'] <;> rcases h.transition a with h | h <;> rw [h]
  · exact .inl rfl
  · exact .inr rfl
  · exact .inr rfl
  · exact .inr rfl

end Scene.Nudges

def Scene.retargeted (s : Scene U X) (a : TransitionId) : Scene U X :=
  (s.modifyTransition a fun t => { t with bindingChanged := true }).enlist a

theorem Scene.transition_retargeted (s : Scene U X) (a b : TransitionId) :
    (s.retargeted a).transition b =
      if b = a ∧ b < s.transitions.size then (s.transition b).flag else s.transition b := by
  unfold retargeted
  rw [transition_enlist, transition_modify]
  have hsize : (s.modifyTransition a fun t => { t with bindingChanged := true }).transitions.size =
      s.transitions.size := Array.size_modify
  rw [hsize]
  by_cases hb : b = a ∧ b < s.transitions.size
  · rw [if_pos hb, if_pos hb, decide_eq_true hb, Bool.or_true]
    obtain ⟨rfl, -⟩ := hb
    rfl
  · rw [if_neg hb, if_neg hb, decide_eq_false hb, Bool.or_false]

theorem Scene.nudges_retargeted (s : Scene U X) (a : TransitionId) : s.Nudges (s.retargeted a) := by
  refine ⟨?_, fun b => ?_, ?_⟩
  · unfold retargeted enlist
    split
    · exact Array.size_modify
    · exact Array.size_modify.trans Array.size_modify
  · rw [transition_retargeted]
    split
    · exact .inr rfl
    · exact .inl rfl
  · unfold retargeted enlist
    split
    · rfl
    · rfl

/-- A cell on its own: neither bound nor linked, and no other one is linked to it. -/
structure Store.Loose {K : Type → Type} (s : Store K) (x : CellId) : Prop where
  binding : (s.cell x).binding = none
  partner : (s.cell x).partner = none
  partners : ∀ c, (s.cell c).partner ≠ some x

/-- From `w` to `w'` nothing happened but what code does that minds its own business, and work
under the trackers in `busy`. If `own` holds, the cell `x` has kept its value. -/
structure Minded (shared busy : CellId → Prop) (x : CellId) (own : Bool)
    (w w' : Tale (Scene U X) (Code U)) : Prop where
  kept : Kept w.store w'.store
  observers : w'.store.observers = w.store.observers
  observed : ∀ c, (w'.store.cell c).observers = (w.store.cell c).observers
  dropped : ∀ c, (w'.store.cell c).dropped = (w.store.cell c).dropped
  partner :
      ∀ c, (w'.store.cell c).partner = none ∨ (w'.store.cell c).partner = (w.store.cell c).partner
  value : own = true → (w'.store.cell x).value = (w.store.cell x).value
  scene : w.host.1.Nudges w'.host.1
  past : ∃ new, w'.past = new ++ w.past ∧ ∀ m ∈ new, Kept w.store m.store ∧
    (∀ c, m.event = .wrote c → shared c) ∧
    ∀ c, m.event = .began c → busy c ∨ (m.store.cell c).tracker = false

namespace Minded

variable {shared busy : CellId → Prop} {x : CellId} {own : Bool} {w w1 w2 : SceneTale U X}

theorem of_store {s : Store (Code U)} (hk : Kept w.store s) (ho : s.observers = w.store.observers)
    (hl : ∀ c, (s.cell c).observers = (w.store.cell c).observers)
    (hd : ∀ c, (s.cell c).dropped = (w.store.cell c).dropped)
    (hp : ∀ c, (s.cell c).partner = none ∨ (s.cell c).partner = (w.store.cell c).partner)
    (hv : own = true → (s.cell x).value = (w.store.cell x).value) :
    Minded shared busy x own w (w.withStore s) :=
  ⟨hk, ho, hl, hd, hp, hv, .refl _, [], rfl, nofun⟩

theorem of_scene {s : Scene U X} (h : w.host.1.Nudges s) :
    Minded shared busy x own w (w.withHost s) :=
  ⟨.refl _, rfl, fun _ => rfl, fun _ => rfl, fun _ => .inr rfl, fun _ => rfl, h, [], rfl, nofun⟩

theorem refl (w : SceneTale U X) : Minded shared busy x own w w := of_scene (.refl _)

theorem trans (h : Minded shared busy x own w w1) (h' : Minded shared busy x own w1 w2) :
    Minded shared busy x own w w2 where
  kept := h.kept.trans h'.kept
  observers := h'.observers.trans h.observers
  observed c := (h'.observed c).trans (h.observed c)
  dropped c := (h'.dropped c).trans (h.dropped c)
  partner c := by
    rcases h'.partner c with hn | hs
    · exact .inl hn
    · exact (h.partner c).imp hs.trans hs.trans
  value ho := (h'.value ho).trans (h.value ho)
  scene := h.scene.trans h'.scene
  past := by
    obtain ⟨new, hnew, hm⟩ := h.past
    obtain ⟨new', hnew', hm'⟩ := h'.past
    refine ⟨new' ++ new, by rw [hnew', hnew, List.append_assoc], fun m hmem => ?_⟩
    rcases List.mem_append.mp hmem with hmem | hmem
    · exact ⟨h.kept.trans (hm' m hmem).1, (hm' m hmem).2⟩
    · exact hm m hmem

end Minded

/-- The regime of code that minds its own business, and of work under the trackers in `busy`. As
long as `own` holds, `x` is on its own. -/
def minding (shared busy : CellId → Prop) (x : CellId) : Regime (Scene U X) (Code U) Bool where
  holds own w := Tended Code.Minds w.store ∧
    (∀ c, (w.store.cell c).tracker = true → (w.store.cell c).binding = none) ∧
    (own = true → w.store.Loose x)
  le own w own' w' := own' = own ∧ Minded shared busy x own w w'
  admits _ _ code := code.Minds
  returns _ _ _ _ := True
  fits own w c v := own = true → c = x → v = (w.store.cell x).value
  stops _ := True
  writes := shared
  begins s c := busy c ∨ (s.cell c).tracker = false

section

variable {α : Type} {shared busy : CellId → Prop} {x : CellId} {own : Bool}
  {nested : SceneNested U X} {w : SceneTale U X}

theorem Store.Loose.amended {K : Type → Type} {s t : Store K} {c : CellId} (h : s.Loose x)
    (ha : Amended s t c) : t.Loose x := by
  refine ⟨?_, ?_, fun d => ?_⟩
  · rcases ha.detached_all x with ⟨hb, -⟩ | ⟨hb, -⟩
    · exact hb
    · exact hb.trans h.binding
  · rcases ha.detached_all x with ⟨-, hp⟩ | ⟨-, hp⟩
    · exact hp
    · exact hp.trans h.partner
  · rcases ha.detached_all d with ⟨-, hp⟩ | ⟨-, hp⟩
    · rw [hp]
      nofun
    · rw [hp]
      exact h.partners d

theorem Store.Loose.akin {K : Type → Type} {s t : Store K} (h : s.Loose x) (hs : Akin s t) :
    t.Loose x :=
  ⟨(hs.binding x).trans h.binding, (hs.partner x).trans h.partner,
    fun d => by rw [hs.partner]; exact h.partners d⟩

instance minding_ok : (minding (U := U) (X := X) shared busy x).Lawful where
  refl own w := ⟨rfl, .refl w⟩
  trans {own w own' w' own'' w''} h h' := by
    obtain ⟨rfl, h⟩ := h
    obtain ⟨rfl, h'⟩ := h'
    exact ⟨rfl, h.trans h'⟩
  kept h := h.2.kept
  note {own w} e he hw := by
    refine ⟨hw, rfl, .refl _, rfl, fun _ => rfl, fun _ => rfl, fun _ => .inr rfl, fun _ => rfl,
      .refl _, [⟨e, w.store⟩], rfl, fun m hm => ?_⟩
    rw [List.mem_singleton.mp hm]
    refine ⟨.refl _, fun c hc => ?_, fun c hc => ?_⟩
    · have hc : e = .wrote c := hc
      rw [hc] at he
      exact he
    · have hc : e = .began c := hc
      rw [hc] at he
      exact he
  akin {own w s} hw hs := by
    refine ⟨⟨hw.1.akin hs, fun c hc => ?_, fun ho => (hw.2.2 ho).akin hs⟩, rfl,
      .of_store hs.kept hs.observers hs.observed hs.dropped (fun c => .inr (hs.partner c))
        fun _ => hs.value x⟩
    exact (hs.binding c).trans (hw.2.1 c ((hs.tracker c).symm.trans hc))
  amend {own w s c} hw hs hfit _ := by
    refine ⟨⟨hw.1.amended hs, fun d hd => ?_, fun ho => (hw.2.2 ho).amended hs⟩, rfl,
      .of_store (.of_size hs.size hs.tracker_all) hs.observers hs.observed hs.dropped_all
        (fun c => (hs.detached_all c).imp And.right And.right) fun ho => ?_⟩
    · rcases hs.detached_all d with ⟨hb, -⟩ | ⟨hb, -⟩
      · exact hb
      · exact hb.trans (hw.2.1 d ((hs.tracker_all d).symm.trans hd))
    · by_cases hc : x = c
      · subst hc
        exact hfit.elim (fun h => h ho rfl) id
      · exact congrArg Content.value (hs.other x hc)
  code {own w c code} hw hb := by
    refine ⟨hw.1.binding c code hb, ?_⟩
    rintro own' w' v ⟨rfl, -⟩ - ho rfl
    rw [(hw.2.2 ho).binding] at hb
    cases hb
  follow {own w c r} hw hb := by
    refine ⟨.inr trivial, ?_⟩
    rintro own' w' v ⟨rfl, -⟩ - ho rfl
    rw [(hw.2.2 ho).binding] at hb
    cases hb
  partner {own w c p v} hw hp _ ho hpx := by
    subst hpx
    exact absurd (partner?_eq_some hp).1 ((hw.2.2 ho).partners c)
  value _ _ _ hc := by rw [hc]
  observer hw ho := hw.1.observer _ _ ho
  fits_mono {own w own' w' c v} hle hfit := by
    obtain ⟨rfl, hle⟩ := hle
    exact fun ho hc => (hfit ho hc).trans (hle.value ho).symm
  shows_mono {own w own' w' c v} hle hfit := by
    obtain ⟨rfl, hle⟩ := hle
    exact fun ho hc => (hfit ho hc).trans (hle.value ho).symm
  bound {own w c b} hw hb := by
    refine .inr ?_
    by_contra ht
    rw [hw.2.1 c (by simpa using ht)] at hb
    cases hb

theorem minding_host {s : Scene U X} (hw : (minding shared busy x).holds own w)
    (h : w.host.1.Nudges s) :
    (minding shared busy x).holds own (w.withHost s) ∧ (minding shared busy x).le own w own
      (w.withHost s) :=
  ⟨hw, rfl, .of_scene h⟩

theorem minding_retarget (hw : (minding shared busy x).holds own w) (a : TransitionId) :
    (minding shared busy x).Keeps nested own w (Transition.retarget a) := by
  -- the two changes together; what lies between them is no nudge
  have htell : (Transition.retarget a).tell nested w = .ok ()
      (w.beat.beat.withHost (w.host.1.retargeted a)) := rfl
  unfold Regime.Keeps Regime.Runs
  rw [htell]
  refine minding_ok.beat hw fun hn => ?_
  refine minding_ok.beat hn fun hn' => ?_
  obtain ⟨hs, hle⟩ := minding_host hn' (w.host.1.nudges_retargeted a)
  exact ⟨own, hle, hs, trivial⟩

theorem minding_goes {Q : Bool → SceneTale U X → α → Prop} {r : EStateM.Result Stop _ α}
    (h : (minding shared (fun _ => False) x).Goes own w Q r) :
    (minding shared busy x).Goes own w Q r := by
  refine h.weaken (fun own' w' hle hw' => ⟨?_, hw'⟩) (fun _ _ => trivial) fun _ => trivial
  obtain ⟨rfl, h⟩ := hle
  obtain ⟨new, hnew, hm⟩ := h.past
  exact ⟨rfl, { h with past := ⟨new, hnew, fun m hmem =>
    ⟨(hm m hmem).1, (hm m hmem).2.1, fun c hc => .inr (((hm m hmem).2.2 c hc).resolve_left id)⟩⟩ }⟩

theorem minding_obeys (h : (minding shared (fun _ => False) x).Obeys nested) :
    (minding shared busy x).Obeys nested :=
  ⟨fun hw hc => minding_goes (h.code hw hc), fun hw hc => minding_goes (h.get hw hc)⟩

variable (hx : ¬shared x) (hN : (minding shared busy x).Obeys nested)
include hx hN

theorem minding_composed {act : SceneM U X α} (h : Act.Composed (Minding shared) act)
    (hw : (minding shared busy x).holds own w) :
    (minding shared busy x).Keeps nested own w act := by
  refine .composed (fun _ => trivial) (fun {α act own w} h hw => ?_) h hw
  cases h with
  | read c =>
    exact (Regime.Runs.get hN hw (.inr trivial)).keeps
  | tryRead c =>
    exact (Regime.Runs.tryGet hN hw (.inr trivial)).keeps
  | @write c hc v =>
    refine .set hN hw (.inr trivial) hc fun _ hcx => ?_
    exact absurd (hcx ▸ hc) hx
  | aside f =>
    refine .host hw fun hn => ?_
    obtain ⟨hs, hle⟩ := minding_host (s := { w.host.1 with user := (f w.host.1.user).2 }) hn
      (.of_eq rfl rfl)
    exact ⟨own, hle, hs, trivial⟩

end

theorem minding_meaning {host : Host U X} {shared : CellId → Prop} (hhost : host.Minds shared)
    {busy : CellId → Prop} {x : CellId} (hx : ¬shared x) {nested : SceneNested U X}
    (hN : (minding shared busy x).Obeys nested) {α : Type} (code : Code U α)
    (hcode : code.Minds) {own : Bool} {w : SceneTale U X}
    (hw : (minding shared busy x).holds own w) :
    (minding shared busy x).Keeps nested own w (code.meaning host) := by
  refine (Regime.Runs.meaning hhost.value hhost.model hhost.peer
    (fun h => minding_composed hx hN h hw) (fun c => minding_composed hx hN (.prim (.read c)) hw)
    (fun a _ => minding_retarget hw a) nofun nofun (fun h => h) code hcode).keeps

theorem toldTo_minding {host : Host U X} {shared : CellId → Prop} (hhost : host.Minds shared)
    {x : CellId} (hx : ¬shared x) (depth : Nat) :
    (minding shared (fun _ => False) x).Obeys (host.told depth) :=
  minding_ok.toldTo_obeys
    (fun hN _ code _ _ hw hcode => minding_meaning hhost hx hN code hcode hw) depth

end ReactiveTree
