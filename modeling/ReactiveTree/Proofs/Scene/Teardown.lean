import ReactiveTree.Proofs.Scene.Handles

/-!
# Teardown

A release runs no code of others, so it always returns (`Act.Completes`), and the invariant of
lifetimes may be broken in the meantime. An instance that lost its last handle falls: its items end
one by one, and each repeater of an item releases its rows first, whose instances have larger
numbers. `release_releases` says that the invariant holds again afterwards and that nothing else
has changed (`Ebbs`).
-/

namespace ReactiveTree

open Store

variable {U X : Type} {falling : ComponentId → Prop} {giving : RepeaterId → Prop}
variable {c e : ComponentId} {r : RepeaterId} {s t : Scene U X}

/-- The instance `e` is `c`, or was repeated somewhere below it. -/
def Scene.Within (s : Scene U X) (c e : ComponentId) : Prop :=
  Relation.ReflTransGen (fun e o => (s.component e).outer = some o) e c

theorem Scene.Within.le (hs : s.Tree) (h : s.Within c e) : c ≤ e := by
  induction h with
  | refl => exact Nat.le_refl _
  | tail _ ho ih => exact (Nat.le_of_lt (hs.outer ho)).trans ih

theorem Scene.Within.of_outer {d : ComponentId} (h : s.Within d e)
    (ho : (s.component d).outer = some c) : s.Within c e := .tail h ho

theorem Scene.Recounted.within (h : s.Recounted t) : t.Within c e ↔ s.Within c e := by
  simp only [Scene.Within, h.outer]

/-- From one world to the next some instances may have ended, and nothing else has changed. -/
structure Ebbs (gone : ComponentId → Prop) (store : Store (Code U)) (s : Scene U X)
    (store' : Store (Code U)) (t : Scene U X) : Prop where
  kept : Kept store store'
  dropped : ∀ {x}, (store.cell x).dropped = true → (store'.cell x).dropped = true
  recounted : s.Recounted t
  destroyed : ∀ {e}, (s.component e).destroyed = true → (t.component e).destroyed = true
  component : ∀ {e}, ¬gone e → t.component e = s.component e
  handles : t.handles.size = s.handles.size
  handle : ∀ k, (t.handle k).component = (s.handle k).component
  released : ∀ {k}, (s.handle k).released = true → (t.handle k).released = true
  held : ∀ {k}, ¬gone (s.handle k).component → t.handle k = s.handle k
  repeaters : t.repeaters.size = s.repeaters.size
  repeater : ∀ r, (s.repeater r).Stable (t.repeater r)
  rows : ∀ {r k}, k ∈ t.rows r → k ∈ s.rows r
  freed : ∀ {r}, (s.repeater r).released = true → (t.repeater r).released = true
  other : ∀ {r}, ¬gone (s.repeater r).host.component → t.repeater r = s.repeater r
  handlers : ∀ {i}, (s.signal i).handler = none → (t.signal i).handler = none

namespace Ebbs

variable {gone gone' : ComponentId → Prop} {store store' store'' : Store (Code U)}
  {s t u : Scene U X}

/-- A change of the store, and of what is neither an instance nor a repeater. -/
theorem of_same (hkept : Kept store store')
    (hdropped : ∀ {x}, (store.cell x).dropped = true → (store'.cell x).dropped = true)
    (hcomponents : t.components = s.components) (hhandles : t.handles = s.handles)
    (hrepeaters : t.repeaters = s.repeaters)
    (hsignals : ∀ {i}, (s.signal i).handler = none → (t.signal i).handler = none) :
    Ebbs gone store s store' t := by
  have hcomponent (e : ComponentId) : t.component e = s.component e := by
    rw [Scene.component, Scene.component, hcomponents]
  have hhandle (k : HandleId) : t.handle k = s.handle k := by
    rw [Scene.handle, Scene.handle, hhandles]
  have hrepeater (r : RepeaterId) : t.repeater r = s.repeater r := by
    rw [Scene.repeater, Scene.repeater, hrepeaters]
  constructor
  case kept => exact hkept
  case dropped => exact hdropped
  case recounted => exact ⟨by rw [hcomponents], fun e => by rw [hcomponent]⟩
  case destroyed => exact fun {e} hd => by rw [hcomponent]; exact hd
  case component => exact fun {e} _ => hcomponent e
  case handles => rw [hhandles]
  case handle => exact fun k => by rw [hhandle]
  case released => exact fun {k} hk => by rw [hhandle]; exact hk
  case held => exact fun {k} _ => hhandle k
  case repeaters => rw [hrepeaters]
  case repeater => exact fun r => by rw [hrepeater]; exact ⟨rfl, rfl, rfl, rfl⟩
  case rows => exact fun {r k} hk => by rwa [Scene.rows, hrepeater] at hk
  case freed => exact fun {r} hr => by rw [hrepeater]; exact hr
  case other => exact fun {r} _ => hrepeater r
  case handlers => exact hsignals

theorem refl (store : Store (Code U)) (s : Scene U X) : Ebbs gone store s store s :=
  of_same (.refl _) (fun h => h) rfl rfl rfl fun h => h

theorem trans (h : Ebbs gone store s store' t) (h' : Ebbs gone store' t store'' u) :
    Ebbs gone store s store'' u where
  kept := h.kept.trans h'.kept
  dropped hx := h'.dropped (h.dropped hx)
  recounted := by
    refine ⟨h'.recounted.size.trans h.recounted.size, fun e => ?_⟩
    rw [h'.recounted.component e, h.recounted.component e]
  destroyed hd := h'.destroyed (h.destroyed hd)
  component he := (h'.component he).trans (h.component he)
  handles := h'.handles.trans h.handles
  handle k := (h'.handle k).trans (h.handle k)
  released hk := h'.released (h.released hk)
  held {k} hk := (h'.held (by rw [h.handle]; exact hk)).trans (h.held hk)
  repeaters := h'.repeaters.trans h.repeaters
  repeater r := ⟨(h'.repeater r).host.trans (h.repeater r).host,
    (h'.repeater r).sub.trans (h.repeater r).sub, (h'.repeater r).flag.trans (h.repeater r).flag,
    (h'.repeater r).tracker.trans (h.repeater r).tracker⟩
  rows hk := h.rows (h'.rows hk)
  freed hr := h'.freed (h.freed hr)
  other {r} hr := (h'.other (by rw [(h.repeater r).host]; exact hr)).trans (h.other hr)
  handlers hi := h'.handlers (h.handlers hi)

theorem mono (h : Ebbs gone store s store' t) (hg : ∀ e, gone e → gone' e) :
    Ebbs gone' store s store' t :=
  { h with
    component := fun he => h.component fun hx => he (hg _ hx)
    held := fun hk => h.held fun hx => hk (hg _ hx)
    other := fun hr => h.other fun hx => hr (hg _ hx) }

theorem of_component (hc : gone c) {f : Component U → Component U}
    (hf : ∀ x, f x = { x with refs := (f x).refs, destroyed := (f x).destroyed })
    (hdestroyed : ∀ x, x.destroyed = true → (f x).destroyed = true) :
    Ebbs gone store s store (s.modifyComponent c f) :=
  { Ebbs.refl store s with
    recounted := .modify s c hf
    destroyed := fun {e} hd => by
      rw [Scene.component_modify]
      split
      · exact hdestroyed _ hd
      · exact hd
    component := fun {e} he => by
      rw [Scene.component_modify, if_neg]
      rintro ⟨rfl, -⟩
      exact he hc }

theorem of_freeHandle {k : HandleId} (hk : gone (s.handle k).component) :
    Ebbs gone store s store (s.freeHandle k) := by
  have h : Ebbs gone store s store _ := of_component hk
    (f := fun x => { x with refs := x.refs - 1 }) (fun _ => rfl) fun _ hd => hd
  exact { Ebbs.refl store s with
    recounted := s.recounted_freeHandle k
    destroyed := h.destroyed
    component := h.component
    handles := Array.size_modify
    handle := s.component_freeHandle k
    released := fun {l} hl => by
      rw [Scene.handle_freeHandle]
      split
      · rfl
      · exact hl
    held := fun {l} hl => by
      rw [Scene.handle_freeHandle, if_neg]
      rintro ⟨rfl, -⟩
      exact hl hk }

theorem of_repeater (hr : gone (s.repeater r).host.component)
    {f : Repeater U → Repeater U} (hf : ∀ x, Repeater.Stable x (f x))
    (hrows : ∀ k ∈ (f (s.repeater r)).instances.list.toList, k ∈ s.rows r)
    (hreleased : ∀ x, x.released = true → (f x).released = true) :
    Ebbs gone store s store (s.modifyRepeater r f) :=
  { Ebbs.refl store s with
    recounted := ⟨rfl, fun _ => rfl⟩
    repeaters := Array.size_modify
    repeater := s.repeater_stable hf
    rows := fun {q k} hk => by
      rw [Scene.rows_modify] at hk
      split at hk
      · rename_i heq
        obtain ⟨rfl, -⟩ := heq
        exact hrows k hk
      · exact hk
    freed := fun {q} hq => by
      rw [Scene.repeater_modify]
      split
      · exact hreleased _ hq
      · exact hq
    other := fun {q} hq => by
      rw [Scene.repeater_modify, if_neg]
      rintro ⟨rfl, -⟩
      exact hq hr }

end Ebbs

/-! ## Transitions and cells -/

section

variable {store : Store (Code U)} {s : Scene U X}

theorem dropped_of_drop {x y : CellId} (hx : x < store.cells.size)
    (hy : (store.cell y).dropped = true) : ((store.drop x).cell y).dropped = true := by
  rw [dropped_drop hx]
  split
  · rfl
  · exact hy

theorem Living.dropCell (h : Living falling giving store s) {x : CellId} (hx : x < store.cells.size)
    (hstill : ∀ a < s.transitions.size, (s.transition a).cell = x → s.Still a)
    (hdown : ∀ c node, x ∈ (s.table c node).cells → (s.component c).destroyed = true) :
    Living falling giving (store.drop x) s := by
  have hkept : Kept store (store.drop x) := kept_drop hx
  refine ⟨h.tree, h.counts, { h.motion with
    cells := fun hy => (h.motion.cells hy).kept hkept
    tracker := fun hk => (h.motion.tracker hk).kept hkept
    still := fun {a} ha hd => ?_
    retarget := fun hy hcode => ?_ }, { h.fallen with
    flag := fun hr => ⟨(h.fallen.flag hr).1.kept hkept, (h.fallen.flag hr).2⟩
    tracker := fun hr => (h.fallen.tracker hr).kept hkept
    ended := fun hr => ⟨(h.fallen.ended hr).1, dropped_of_drop hx (h.fallen.ended hr).2.1,
      dropped_of_drop hx (h.fallen.ended hr).2.2⟩
    cells := fun hd hf node y hy => dropped_of_drop hx (h.fallen.cells hd hf node y hy)
    upright := fun {c} hd node y hy => ?_ }⟩
  · rw [dropped_drop hx] at hd
    split at hd
    · exact hstill a ha ‹_›
    · exact h.motion.still ha hd
  · rw [observers_drop] at hy
    obtain ⟨hlt, htr | hd⟩ := h.motion.retarget hy hcode
    · exact ⟨hlt, .inl htr⟩
    · exact ⟨hlt, .inr (dropped_of_drop hx hd)⟩
  · rw [dropped_drop hx, if_neg]
    · exact h.fallen.upright hd node y hy
    · rintro rfl
      rw [hdown c node hy] at hd
      cases hd

theorem Scene.Calms.refl (s : Scene U X) : s.Calms s := ⟨rfl, rfl, fun _ => rfl, fun _ h => h⟩

theorem Scene.Calms.trans {u : Scene U X} (h : s.Calms t) (h' : t.Calms u) : s.Calms u where
  only := by
    rw [h'.only, h.only]
  size := h'.size.trans h.size
  cell a := (h'.cell a).trans (h.cell a)
  still a ha := h'.still a (h.still a ha)

end

section

variable {nested : SceneNested U X} {w : SceneTale U X}

theorem stop_completes (hw : w.Living falling giving) (a : TransitionId) :
    (Transition.stop a).Completes nested w fun w' _ =>
      w'.Living falling giving ∧ Placid w.store w'.store ∧
      w.host.1.Calms w'.host.1 ∧ w'.host.1.Still a := by
  refine .bind (clearBinding_completes hw a) fun w1 _ h => ?_
  obtain ⟨hw1, hplacid, hcalms, hnone⟩ := h
  refine Act.completes_change ?_
  set stopped : Transition U → Transition U := fun t => { t with running := false, stopped := true }
  show Living falling giving w1.store (w1.host.1.modifyTransition a stopped) ∧ Placid _ w1.store ∧
    w.host.1.Calms (w1.host.1.modifyTransition a stopped) ∧
    (w1.host.1.modifyTransition a stopped).Still a
  refine ⟨hw1.tame ⟨rfl, nofun, rfl⟩, hplacid,
    hcalms.trans (w1.host.1.calms_modify a (fun _ => rfl) fun _ _ ht => ⟨rfl, ht⟩), ?_⟩
  unfold Scene.Still
  rw [Scene.transition_modify]
  split
  · exact ⟨rfl, hnone⟩
  · rename_i hlt
    rw [Scene.transition, getD_of_size_le (not_lt.1 fun h => hlt ⟨rfl, h⟩)]
    exact ⟨rfl, rfl⟩

/-- From one world to the next cells were dropped and transitions stopped. -/
structure Settles (store : Store (Code U)) (s : Scene U X) (store' : Store (Code U))
    (t : Scene U X) : Prop where
  kept : Kept store store'
  dropped : ∀ {x}, (store.cell x).dropped = true → (store'.cell x).dropped = true
  scene : s.Calms t

theorem Settles.ebbs {store store' : Store (Code U)}
    (h : Settles store s store' t) (gone : ComponentId → Prop) : Ebbs gone store s store' t := by
  refine .of_same h.kept h.dropped ?_ ?_ ?_ fun {i} hi => ?_
  · rw [h.scene.only]
  · rw [h.scene.only]
  · rw [h.scene.only]
  · rw [h.scene.only]
    exact hi

theorem dropTable_completes (hw : w.Living falling giving)
    (hdown : (w.host.1.component c).destroyed = true) (node : Option Nat) :
    (Component.dropTable (w.host.1.table c node)).Completes nested w fun w' _ =>
      w'.Living falling giving ∧ Settles w.store w.host.1 w'.store w'.host.1 ∧
      ∀ x ∈ (w.host.1.table c node).cells, (w'.store.cell x).dropped = true := by
  set t := w.host.1.table c node with ht
  have htable {u : SceneTale U X} (h : w.host.1.Calms u.host.1) (d : ComponentId)
      (mode : Option Nat) : u.host.1.table d mode = w.host.1.table d mode := by
    rw [h.only]
    rfl
  -- first the transitions
  refine .bind
    (Act.completes_forM (I := fun done w1 => w1.Living falling giving ∧
      Settles w.store w.host.1 w1.store w1.host.1 ∧ ∀ i ∈ done, ∀ a, t.transition? i = some a →
      w1.host.1.Still a) ⟨hw, ⟨.refl _, fun h => h, .refl _⟩, nofun⟩
        (fun _ h => h) fun done i rest _ w1 h => ?_)
    fun w1 _ h => ?_
  · obtain ⟨hw1, hle1, hstill1⟩ := h
    cases hi : t.transition? i with
    | none =>
      refine Act.completes_pure ⟨hw1, hle1, fun j hj a ha => ?_⟩
      rcases List.mem_append.1 hj with hj | hj
      · exact hstill1 j hj a ha
      · rw [List.mem_singleton.1 hj, hi] at ha
        cases ha
    | some b =>
      refine (stop_completes hw1 b).mono fun w2 _ h => ?_
      obtain ⟨hw2, hplacid, hcalms, hstill⟩ := h
      refine ⟨hw2, ⟨hle1.kept.trans hplacid.kept, fun hx => hplacid.gone (hle1.dropped hx),
        hle1.scene.trans hcalms⟩, fun j hj a ha => ?_⟩
      rcases List.mem_append.1 hj with hj | hj
      · exact hcalms.still a (hstill1 j hj a ha)
      · rw [List.mem_singleton.1 hj, hi] at ha
        cases ha
        exact hstill
  -- then the cells, whose transitions are all entered in this table
  obtain ⟨hw1, hle1, hstill⟩ := h
  refine (Act.completes_forM (I := fun done w2 => w2.Living falling giving ∧
    Settles w.store w.host.1 w2.store w2.host.1 ∧ w2.host.1 = w1.host.1 ∧ ∀ x ∈ done,
    (w2.store.cell x).dropped = true) ⟨hw1, hle1, rfl, nofun⟩
    (fun _ h => h) fun done x rest hxs w2 h => ?_).mono fun w2 _ h => ⟨h.1, h.2.1, h.2.2.2⟩
  obtain ⟨hw2, hle2, hhost, hdone⟩ := h
  have hmem : x ∈ t.cells := by
    rw [hxs]
    simp
  have hx : x < w2.store.cells.size := by
    have hx : x ∈ (w2.host.1.table c node).cells := by
      rw [htable hle2.scene]
      exact hmem
    exact (hw2.motion.cells hx).1
  refine Act.completes_drop hx ⟨hw2.dropCell hx (fun a ha hcell => ?_) fun d mode hd => ?_,
    ⟨hle2.kept.trans (kept_drop hx), fun hy => dropped_of_drop hx (hle2.dropped hy), hle2.scene⟩,
    hhost, fun y hy => ?_⟩
  · obtain ⟨d, mode, j, hj⟩ := hw2.motion.registered ha
    have hentry := (hw2.motion.entry hj).2
    rw [hcell, htable hle2.scene] at hentry
    obtain ⟨i, hi, hget⟩ := List.getElem_of_mem hmem
    have hslot : (w.host.1.table c node).cells[i]? = some x := by
      rw [← ht, List.getElem?_eq_getElem hi, hget]
    obtain ⟨rfl, rfl, rfl⟩ := hw.motion.place hentry hslot
    rw [htable hle2.scene] at hj
    rw [hhost]
    exact hstill j (List.mem_range.2 hi) a hj
  · rw [htable hle2.scene] at hd
    obtain ⟨i, hi, hget⟩ := List.getElem_of_mem hmem
    obtain ⟨j, hj, hget'⟩ := List.getElem_of_mem hd
    obtain ⟨rfl, -, -⟩ := hw.motion.place (List.getElem?_eq_some_iff.2 ⟨hj, hget'⟩)
      (List.getElem?_eq_some_iff.2 ⟨hi, hget⟩)
    rw [hle2.scene.only]
    exact hdown
  · show ((w2.store.drop x).cell y).dropped = true
    rcases List.mem_append.1 hy with hy | hy
    · exact dropped_of_drop hx (hdone y hy)
    · rw [dropped_drop hx, if_pos (List.mem_singleton.1 hy)]

/-! ## Handlers -/

theorem Scene.clearHandlers_eq (callbacks : List Callback) (s : Scene U X) :
    ∃ signals, callbacks.foldl (fun s cb => s.setHandler cb.signal none) s = { s with signals } ∧
      signals.size = s.signals.size ∧ (∀ i, (signals.getD i default).handler = none ∨
        (signals.getD i default).handler = (s.signal i).handler) ∧
      ∀ cb ∈ callbacks, (signals.getD cb.signal default).handler = none := by
  induction callbacks generalizing s with
  | nil => exact ⟨s.signals, rfl, rfl, fun _ => .inr rfl, nofun⟩
  | cons cb rest ih =>
    obtain ⟨signals, heq, hsize, hhandler, hrest⟩ := ih (s.setHandler cb.signal none)
    have hget (i : SignalId) : (s.setHandler cb.signal none).signal i =
        if i = cb.signal ∧ i < s.signals.size then { s.signal i with handler := none }
        else s.signal i := getD_modify ..
    refine ⟨signals, heq, hsize.trans Array.size_modify, fun i => ?_, ?_⟩
    · rcases hhandler i with h | h
      · exact .inl h
      · rw [h, hget]
        split
        · exact .inl rfl
        · exact .inr rfl
    · refine List.forall_mem_cons.2 ⟨?_, hrest⟩
      refine (hhandler cb.signal).elim id fun h => h.trans ?_
      rw [hget]
      split
      · rfl
      · rename_i hlt
        rw [Scene.signal, getD_of_size_le (not_lt.1 fun h => hlt ⟨rfl, h⟩)]
        rfl

theorem clearHandlers_completes (hw : w.Living falling giving)
    (callbacks : List Callback) (gone : ComponentId → Prop) :
    (Component.clearHandlers callbacks).Completes nested w fun w' _ =>
      w'.Living falling giving ∧ Ebbs gone w.store w.host.1 w'.store w'.host.1 ∧
      ∀ cb ∈ callbacks, (w'.host.1.signal cb.signal).handler = none := by
  obtain ⟨signals, heq, hsize, hhandler, hclear⟩ := w.host.1.clearHandlers_eq callbacks
  have hnone (i : SignalId) (hi : (w.host.1.signal i).handler = none) :
      (signals.getD i default).handler = none := (hhandler i).elim id fun h => h.trans hi
  refine Act.completes_change ?_
  rw [heq]
  refine ⟨⟨{ hw.tree with }, { hw.counts with }, { hw.motion with }, { hw.fallen with
    handlers := fun hd hf cb hcb => hnone _ (hw.fallen.handlers hd hf cb hcb)
    signal := fun hcb => Nat.lt_of_lt_of_eq (hw.fallen.signal hcb) hsize.symm }⟩, ?_, hclear⟩
  exact .of_same (.refl _) (fun h => h) rfl rfl rfl fun {i} hi => hnone i hi

/-! ## Instances -/

section

variable {store : Store (Code U)} {s : Scene U X}

/-- The instance begins to fall: it counts as destroyed, and its window forgets it. -/
def Scene.fell (s : Scene U X) (c : ComponentId) : Scene U X :=
  (s.modifyComponent c fun x => { x with destroyed := true }).modifyWindow c fun w =>
    { w with
      focus := w.focus.filter (·.component != c)
      grabber := w.grabber.filter (·.component != c)
      hover := w.hover.filter (·.component != c) }

theorem Scene.recounted_fell (s : Scene U X) (c : ComponentId) : s.Recounted (s.fell c) := by
  have h := Scene.Recounted.modify s c (f := fun x => { x with destroyed := true }) fun _ => rfl
  exact ⟨h.size, h.component⟩

theorem Scene.component_fell (s : Scene U X) (hc : c < s.components.size)
    (e : ComponentId) : (s.fell c).component e =
      if e = c then { s.component e with destroyed := true } else s.component e := by
  rw [show (s.fell c).component e = _ from s.component_modify c e _]
  split
  · rename_i h
    rw [if_pos h.1]
  · rename_i h
    rw [if_neg]
    rintro rfl
    exact h ⟨rfl, hc⟩

theorem Scene.pointsAt_fell {i : WindowId} {it : ItemRef}
    (h : ((s.fell c).windowAt i).PointsAt it) :
    (s.windowAt i).PointsAt it ∧ ((s.component c).window = i → it.component ≠ c) := by
  have hwindow : ((s.modifyComponent c fun x => { x with destroyed := true }).component c).window =
      (s.component c).window := by
    rw [component_modify]
    split <;> rfl
  unfold windowAt fell modifyWindow at h
  rw [hwindow, getD_modify] at h
  split at h
  · simp only [Window.PointsAt, Option.filter_eq_some_iff, bne_iff_ne] at h
    refine ⟨?_, fun _ => ?_⟩
    · exact h.imp And.left (.imp And.left And.left)
    · rcases h with h | h | h <;> exact h.2
  · rename_i hne
    refine ⟨h, ?_⟩
    rintro rfl
    have hge : s.windows.size ≤ (s.component c).window := not_lt.1 fun hlt => hne ⟨rfl, hlt⟩
    change (s.windows.getD _ default).PointsAt it at h
    rw [getD_of_size_le hge] at h
    rcases h with h | h | h <;> cases h

theorem Living.fell (h : Living (fun e => falling e ∨ e = c) giving store s)
    (hc : c < s.components.size) : Living (fun e => falling e ∨ e = c) giving store (s.fell c) := by
  have hrecount := s.recounted_fell c
  have hother {e : ComponentId} (he : e ≠ c) : (s.fell c).component e = s.component e := by
    rw [s.component_fell hc, if_neg he]
  have hrefs (e : ComponentId) : ((s.fell c).component e).refs = (s.component e).refs := by
    rw [s.component_fell hc]
    split <;> rfl
  refine ⟨hrecount.tree h.tree rfl h.tree.handle h.tree.single, { h.counts with
    refs := fun {e} he => ?_
    destroyed := fun {e} he hf => ?_
    row := fun {r k} hk => ?_
    rowed := fun {k} hk hopen houter => ?_
    pointer := fun {i it} hit => ?_ }, hrecount.motion h.motion rfl rfl,
    hrecount.fallen h.fallen rfl rfl (fun e hd hf => ?_) fun e hd => ?_⟩
  · rw [hrecount.size] at he
    exact (hrefs e).trans (h.counts.refs he)
  · rw [hrecount.size] at he
    rw [hother fun heq => hf (.inr heq)]
    exact h.counts.destroyed he hf
  · obtain ⟨hlt, hhost⟩ := h.counts.row hk
    exact ⟨hlt, (hrecount.host _).trans hhost⟩
  · rw [show (s.fell c).handle k = s.handle k from rfl, hrecount.outer] at houter
    exact h.counts.rowed hk hopen houter
  · obtain ⟨hit, hnot⟩ := s.pointsAt_fell hit
    obtain ⟨hlt, hlive, hwindow⟩ := h.counts.pointer hit
    have hne : it.component ≠ c := by
      intro heq
      exact hnot (heq ▸ hwindow) heq
    rw [hother hne, hrecount.size]
    exact ⟨hlt, hlive, hwindow⟩
  · rw [hother fun heq => hf (.inr heq)] at hd
    exact ⟨hd, hf⟩
  · rw [s.component_fell hc] at hd
    split at hd
    · cases hd
    · exact hd

theorem Living.fallen_of_cleared (h : Living (fun e => falling e ∨ e = c) giving store s)
    (hdestroyed : (s.component c).destroyed = true)
    (hcells : ∀ node, ∀ x ∈ (s.table c node).cells, (store.cell x).dropped = true)
    (hrepeaters : ∀ n, ∀ r ∈ (s.item ⟨c, n⟩).repeaters, (s.repeater r).released = true)
    (hhandlers : ∀ cb, s.HasCallback c cb → (s.signal cb.signal).handler = none) :
    Living falling giving store s := by
  refine ⟨h.tree, { h.counts with
    destroyed := fun {e} he hf => ?_
    falling := fun hf => h.counts.falling (.inl hf) }, h.motion, { h.fallen with
    cells := fun {e} hd hf => ?_
    repeaters := fun {e} hd hf => ?_
    handlers := fun {e} hd hf => ?_ }⟩
  all_goals
    by_cases heq : e = c
    · subst heq
      first
      | exact ⟨fun _ => h.counts.falling (.inr rfl), fun _ => hdestroyed⟩
      | assumption
    · have hnot : ¬(falling e ∨ e = c) := not_or.2 ⟨hf, heq⟩
      first
      | exact h.counts.destroyed he hnot
      | exact h.fallen.cells hd hnot
      | exact h.fallen.repeaters hd hnot
      | exact h.fallen.handlers hd hnot

end

/-- What ends an instance that has no handles, if it is among the last `limit` ones. -/
def Destroys (nested : Nested (Scene U X × Chronicle (Code U)) (Code U)) (limit : Nat)
    (destroy : ComponentId → SceneM U X Unit) : Prop :=
  ∀ (w : Tale (Scene U X) (Code U)) (c : ComponentId) (falling : ComponentId → Prop)
    (giving : RepeaterId → Prop), w.host.1.components.size ≤ limit + c →
    c < w.host.1.components.size → (w.host.1.component c).destroyed = false →
    Living (fun e => falling e ∨ e = c) giving w.store w.host.1 →
    (destroy c).Completes nested w fun w' _ => w'.Living falling giving ∧
      Ebbs (w.host.1.Within c) w.store w.host.1 w'.store w'.host.1

/-- What releases a handle that no row holds, or one of a repeater that gives up rows. -/
def Releases (nested : Nested (Scene U X × Chronicle (Code U)) (Code U)) (limit : Nat)
    (release : HandleId → SceneM U X Unit) : Prop :=
  ∀ (w : Tale (Scene U X) (Code U)) (k : HandleId) (falling : ComponentId → Prop)
    (giving : RepeaterId → Prop), k < w.host.1.handles.size →
    (∀ r, k ∈ w.host.1.rows r → giving r) →
    w.host.1.components.size ≤ limit + (w.host.1.handle k).component →
    w.Living falling giving →
    (release k).Completes nested w fun w' _ => w'.Living falling giving ∧
      Ebbs (w.host.1.Within (w.host.1.handle k).component) w.store w.host.1 w'.store w'.host.1 ∧
      (w'.host.1.handle k).released = true

theorem Scene.Within.not_sibling (hs : s.Tree) {d : ComponentId}
    (hd : (s.component d).outer = some c) (he : (s.component e).outer = some c) (hne : e ≠ d) :
    ¬s.Within d e := by
  intro h
  rcases Relation.ReflTransGen.cases_head h with heq | ⟨o, ho, hrest⟩
  · exact hne heq
  · rw [he] at ho
    cases ho
    exact absurd (Scene.Within.le hs hrest) ((hs.outer hd).not_ge)

/-- Some rows of a repeater are released. The handles of the others stay as they are. -/
theorem releaseRows_completes {limit : Nat} {release : HandleId → SceneM U X Unit}
    (hrelease : Releases nested limit release)
    (hw : Living falling (fun q => giving q ∨ q = r) w.store w.host.1)
    (hlimit : w.host.1.components.size ≤ limit + 1 + (w.host.1.repeater r).host.component)
    {ks : List HandleId} (hks : ∀ k ∈ ks, k ∈ w.host.1.rows r) :
    (ks.forM release).Completes nested w fun w' _ =>
      Living falling (fun q => giving q ∨ q = r) w'.store w'.host.1 ∧
      Ebbs (fun e => ∃ k ∈ ks, w.host.1.Within (w.host.1.handle k).component e)
        w.store w.host.1 w'.store w'.host.1 ∧ w'.host.1.repeater r = w.host.1.repeater r ∧
      (∀ k ∈ ks, (w'.host.1.handle k).released = true) ∧
      ∀ k ∈ w.host.1.rows r, k ∉ ks → w'.host.1.handle k = w.host.1.handle k := by
  set gone := fun e => ∃ k ∈ ks, w.host.1.Within (w.host.1.handle k).component e
  set c := (w.host.1.repeater r).host.component with hcdef
  have houter {k : HandleId} (hk : k ∈ w.host.1.rows r) :
      (w.host.1.component (w.host.1.handle k).component).outer = some c := by
    rw [hw.tree.host, (hw.counts.row hk).2]
    rfl
  refine Act.completes_forM (I := fun done w1 =>
    Living falling (fun q => giving q ∨ q = r) w1.store w1.host.1 ∧
    Ebbs gone w.store w.host.1 w1.store w1.host.1 ∧
    w1.host.1.repeater r = w.host.1.repeater r ∧
    (∀ k ∈ done, (w1.host.1.handle k).released = true) ∧
    ∀ k ∈ w.host.1.rows r, k ∉ done → w1.host.1.handle k = w.host.1.handle k)
    ⟨hw, .refl .., rfl, nofun, fun _ _ _ => rfl⟩ (fun _ h => h) fun done k rest hlist w1 h => ?_
  obtain ⟨hw1, hebb1, hsame, hdone, hothers⟩ := h
  have hin : k ∈ ks := by
    rw [hlist]
    simp
  have hmem := hks k hin
  set f := (w.host.1.handle k).component with hfdef
  have hlt : c < f := hw.tree.outer (houter hmem)
  have hf : (w1.host.1.handle k).component = f := hebb1.handle k
  have hsize : w1.host.1.components.size ≤ limit + (w1.host.1.handle k).component := by
    rw [hebb1.recounted.size, hf]
    refine hlimit.trans ?_
    rw [Nat.add_assoc, Nat.add_comm 1]
    exact Nat.add_le_add_left hlt limit
  have hgiving (q : RepeaterId) (hq : k ∈ w1.host.1.rows q) : giving q ∨ q = r :=
    .inr (hw.counts.apart (hebb1.rows hq) hmem)
  refine (hrelease w1 k falling _ (hebb1.handles ▸ (hw.counts.row hmem).1) hgiving hsize hw1).mono
    fun w2 _ h => ?_
  obtain ⟨hw2, hebb2, hreleased⟩ := h
  rw [hf] at hebb2
  refine ⟨hw2, hebb1.trans (hebb2.mono fun e he => ?_), ?_, fun l hl => ?_, fun l hl hnot => ?_⟩
  · exact ⟨k, hin, hebb1.recounted.within.1 he⟩
  · rw [hebb2.other, hsame]
    rw [hsame]
    intro hwithin
    exact absurd (hwithin.le hw1.tree) hlt.not_ge
  · rcases List.mem_append.1 hl with hl | hl
    · exact hebb2.released (hdone l hl)
    · rw [List.mem_singleton.1 hl]
      exact hreleased
  · obtain ⟨hout, hne⟩ : l ∉ done ∧ l ≠ k := by simpa using hnot
    have hlone : (w.host.1.handle l).component ≠ f := by
      intro heq
      refine hne (hw.tree.single (hw.counts.row hl).1 (hw.counts.row hmem).1 heq ?_)
      rw [houter hl]
      nofun
    rw [hebb2.held, hothers l hl hout]
    rw [hothers l hl hout]
    intro hwithin
    exact Scene.Within.not_sibling hw.tree (houter hmem) (houter hl) hlone
      (hebb1.recounted.within.1 hwithin)

section Release

variable {limit : Nat} {destroy : ComponentId → SceneM U X Unit}
  (hdestroy : Destroys nested limit destroy)
include hdestroy

theorem releaseWith_releases : Releases nested limit (Component.releaseWith destroy) := by
  intro w k falling giving hk hgiving hlimit hw
  set c := (w.host.1.handle k).component with hcdef
  refine Act.completes_ask ?_
  split
  · rename_i hreleased
    exact Act.completes_pure ⟨hw, .refl .., hreleased⟩
  rename_i hopen
  have hopen : (w.host.1.handle k).released = false := by simpa using hopen
  have hmem : k ∈ w.host.1.openHandles c := Scene.mem_openHandles.2 ⟨hk, rfl, hopen⟩
  have hfree := hw.freeHandle hk hopen hgiving
  have hebb : Ebbs (w.host.1.Within c) w.store w.host.1 w.store (w.host.1.freeHandle k) :=
    .of_freeHandle Relation.ReflTransGen.refl
  have hfreed : ((w.host.1.freeHandle k).handle k).released = true := by
    rw [Scene.handle_freeHandle, if_pos ⟨rfl, hk⟩]
  have hc : c < w.host.1.components.size := hw.tree.handle hk
  have hlive : ((w.host.1.freeHandle k).component c).destroyed = false := by
    have hnot : ¬falling c := by
      intro hf
      rw [(hw.counts.falling hf).2] at hmem
      cases hmem
    have hold : (w.host.1.component c).destroyed = false := by
      by_contra hd
      have hd : (w.host.1.component c).destroyed = true := by simpa using hd
      rw [((hw.counts.destroyed hc hnot).1 hd).2] at hmem
      cases hmem
    rw [show (w.host.1.freeHandle k).component c = _ from w.host.1.component_modify _ c _]
    split <;> exact hold
  rw [← hebb.recounted.size] at hc
  have hrefs := hfree.counts.refs hc
  refine .bind (Act.completes_change (Q := fun w1 _ => w1.store = w.store ∧
    w1.host.1 = w.host.1.freeHandle k) ⟨rfl, rfl⟩) fun w1 _ h => ?_
  obtain ⟨hstore, hhost⟩ := h
  have hfree : Living (fun e => falling e ∨ e = c ∧ w1.host.1.openHandles e = []) giving w1.store
      w1.host.1 := by
    rw [hstore, hhost]
    exact hfree
  have hebb : Ebbs (w.host.1.Within c) w.store w.host.1 w1.store w1.host.1 := by
    rw [hstore, hhost]
    exact hebb
  rw [← hhost] at hfreed hc hrefs hlive
  refine Act.completes_ask ?_
  rw [← hcdef, hrefs]
  split
  · rename_i hzero
    have hnil : w1.host.1.openHandles c = [] := by
      exact List.length_eq_zero_iff.1 (Int.ofNat_eq_zero.1 hzero)
    have hfalls : Living (fun e => falling e ∨ e = c) giving w1.store w1.host.1 := by
      have hset : (fun e => falling e ∨ e = c ∧ w1.host.1.openHandles e = []) =
          fun e => falling e ∨ e = c := by
        funext e
        refine propext (or_congr_right ⟨And.left, ?_⟩)
        rintro rfl
        exact ⟨rfl, hnil⟩
      rwa [hset] at hfree
    have hlimit : w1.host.1.components.size ≤ limit + c := by
      rw [hebb.recounted.size]
      exact hlimit
    refine (hdestroy w1.beat c falling giving hlimit hc hlive hfalls).mono fun w2 _ h => ?_
    refine ⟨h.1, hebb.trans (h.2.mono fun e he => ?_), h.2.released hfreed⟩
    exact hebb.recounted.within.1 he
  · rename_i hnonzero
    refine Act.completes_pure ⟨?_, hebb, hfreed⟩
    have hset : (fun e => falling e ∨ e = c ∧ w1.host.1.openHandles e = []) = falling := by
      funext e
      refine propext ⟨?_, .inl⟩
      rintro (hf | ⟨rfl, hnil⟩)
      · exact hf
      · rw [hnil] at hnonzero
        exact absurd rfl hnonzero
    rwa [hset] at hfree

theorem endRepeater_completes (hw : w.Living falling giving)
    (hr : r < w.host.1.repeaters.size)
    (hlimit : w.host.1.components.size ≤ limit + 1 + (w.host.1.repeater r).host.component) :
    (Component.endRepeater destroy r).Completes nested w fun w' _ =>
      w'.Living falling giving ∧
      Ebbs (w.host.1.Within (w.host.1.repeater r).host.component) w.store w.host.1 w'.store
        w'.host.1 ∧
      (w'.host.1.repeater r).released = true := by
  set x := w.host.1.repeater r with hxdef
  set c := x.host.component with hcdef
  set gone := w.host.1.Within c with hgonedef
  refine Act.completes_ask ?_
  rw [← hxdef]
  split
  · rename_i hreleased
    exact Act.completes_pure ⟨hw, .refl .., hreleased⟩
  -- the rows, one by one
  refine .bind (releaseRows_completes (releaseWith_releases hdestroy) (w := w.beat)
    (hw.give r) hlimit fun _ h => h) fun w1 _ h => ?_
  obtain ⟨hw1, hebb1, hsame, hdone, -⟩ := h
  have hsame : w1.host.1.repeater r = x := hsame
  have hebb1 : Ebbs gone w.store w.host.1 w1.store w1.host.1 := by
    refine hebb1.mono fun e he => ?_
    obtain ⟨k, hk, hwithin⟩ := he
    refine hwithin.of_outer (s := w.host.1) ?_
    rw [hw.tree.host]
    exact congrArg _ (hw.counts.row hk).2
  have hhostc : gone (w1.host.1.repeater r).host.component := by
    rw [hsame]
    exact .refl
  have hrow : w1.host.1.rows r = x.instances.list.toList := by
    rw [Scene.rows, hsame]
  -- then the repeater itself
  set cleared : Repeater U → Repeater U := fun x =>
    { x with instances := x.instances.clear, staleRows := x.staleRows.clear }
  refine .bind (Act.completes_change (Q := fun w2 _ => w2.Living falling giving ∧
    Ebbs gone w.store w.host.1 w2.store w2.host.1 ∧ w2.host.1.rows r = []) ⟨?_, ?_, ?_⟩)
    fun w2 _ h => ?_
  · exact Living.setRows (fun _ => ⟨rfl, rfl, rfl, rfl⟩) hw1 (fun _ => rfl)
      (List.nil_sublist _) (fun k hk _ => hdone k (hrow ▸ hk)) fun _ _ hk => by cases hk
  · exact hebb1.trans (.of_repeater hhostc (fun _ => ⟨rfl, rfl, rfl, rfl⟩)
      (fun _ hk => by cases hk) fun _ hx => hx)
  · show (w1.host.1.modifyRepeater r cleared).rows r = []
    rw [Scene.rows_modify, if_pos ⟨rfl, hebb1.repeaters ▸ hr⟩]
    rfl
  obtain ⟨hw2, hebb2, hempty⟩ := h
  have hr2 : r < w2.host.1.repeaters.size := hebb2.repeaters ▸ hr
  have htracker : w2.store.IsTracker x.tracker := by
    rw [← (hebb2.repeater r).tracker]
    exact hw2.fallen.tracker hr2
  refine .bind (Act.completes_drop (Q := fun w3 _ => w3.Living falling giving ∧
    Ebbs gone w.store w.host.1 w3.store w3.host.1 ∧ w3.host.1.rows r = [] ∧
    (w3.store.cell x.tracker).dropped = true) htracker.1
    ⟨hw2.placid (.drop htracker), ?_, hempty, ?_⟩) fun w3 _ h => ?_
  · exact hebb2.trans (.of_same (kept_drop htracker.1) (dropped_of_drop htracker.1) rfl rfl rfl
      fun h => h)
  · exact (dropped_drop htracker.1).trans (if_pos rfl)
  obtain ⟨hw3, hebb3, hempty, hgone⟩ := h
  have hflag : w3.store.IsProperty x.flag ∧ ∀ c node, x.flag ∉ (w3.host.1.table c node).cells := by
    rw [← (hebb3.repeater r).flag]
    exact hw3.fallen.flag (hebb3.repeaters ▸ hr)
  refine .bind (Act.completes_drop (Q := fun w4 _ => w4.Living falling giving ∧
    Ebbs gone w.store w.host.1 w4.store w4.host.1 ∧ w4.host.1.rows r = [] ∧
    (w4.store.cell x.tracker).dropped = true ∧ (w4.store.cell x.flag).dropped = true) hflag.1.1
    ⟨hw3.dropCell hflag.1.1 (fun a ha hcell => ?_) fun d node hd => absurd hd (hflag.2 d node), ?_,
      hempty, dropped_of_drop hflag.1.1 hgone, ?_⟩)
    fun w4 _ h => ?_
  · obtain ⟨d, node, i, hi⟩ := hw3.motion.registered ha
    have hentry := List.mem_of_getElem? (hw3.motion.entry hi).2
    rw [hcell] at hentry
    exact absurd hentry (hflag.2 d node)
  · exact hebb3.trans (.of_same (kept_drop hflag.1.1) (dropped_of_drop hflag.1.1) rfl rfl rfl
      fun h => h)
  · exact (dropped_drop hflag.1.1).trans (if_pos rfl)
  obtain ⟨hw4, hebb4, hempty, htracker, hflag⟩ := h
  refine Act.completes_change ⟨hw4.endRepeater hempty ?_ ?_, hebb4.trans (.of_repeater ?_
    (fun _ => ⟨rfl, rfl, rfl, rfl⟩) (fun _ hk => hk) fun _ _ => rfl), ?_⟩
  · rw [(hebb4.repeater r).flag]
    exact hflag
  · rw [(hebb4.repeater r).tracker]
    exact htracker
  · rw [(hebb4.repeater r).host]
    exact .refl
  · show ((w4.host.1.modifyRepeater r _).repeater r).released = true
    rw [Scene.repeater_modify, if_pos ⟨rfl, hebb4.repeaters ▸ hr⟩]

/-- Nothing is left of an item. -/
structure Item.Cleared (store : Store (Code U)) (s : Scene U X) (it : Item) : Prop where
  repeaters : ∀ r ∈ it.repeaters, (s.repeater r).released = true
  handlers : ∀ cb ∈ it.callbacks, (s.signal cb.signal).handler = none
  cells : ∀ x ∈ it.table.cells, (store.cell x).dropped = true

omit hdestroy in
theorem Item.Cleared.ebbs {store store' : Store (Code U)} {it : Item}
    {gone : ComponentId → Prop} (h : it.Cleared store s) (hebb : Ebbs gone store s store' t) :
    it.Cleared store' t :=
  ⟨fun r hr => hebb.freed (h.repeaters r hr), fun cb hcb => hebb.handlers (h.handlers cb hcb),
    fun x hx => hebb.dropped (h.cells x hx)⟩

theorem endItem_completes (hw : w.Living falling giving) (it : ItemRef)
    (hdown : (w.host.1.component it.component).destroyed = true)
    (hlimit : w.host.1.components.size ≤ limit + 1 + it.component) :
    (Component.endItem destroy (w.host.1.item it)).Completes nested w fun w' _ =>
      w'.Living falling giving ∧
      Ebbs (w.host.1.Within it.component) w.store w.host.1 w'.store w'.host.1 ∧
      (w.host.1.item it).Cleared w'.store w'.host.1 := by
  set gone := w.host.1.Within it.component
  refine .bind (Act.completes_forM (I := fun done w1 => w1.Living falling giving ∧
    Ebbs gone w.store w.host.1 w1.store w1.host.1 ∧
    ∀ r ∈ done, (w1.host.1.repeater r).released = true)
    ⟨hw, .refl .., nofun⟩ (fun _ h => h) fun done r rest hrepeaters w1 h => ?_) fun w1 _ h => ?_
  · obtain ⟨hw1, hebb1, hdone⟩ := h
    have hmem : r ∈ (w.host.1.item it).repeaters := by
      rw [hrepeaters]
      simp
    obtain ⟨hr, hhost⟩ := hw.tree.placed hmem
    have hhost1 : (w1.host.1.repeater r).host = it := (hebb1.repeater r).host.trans hhost
    refine (endRepeater_completes hdestroy hw1 (hebb1.repeaters ▸ hr) ?_).mono fun w2 _ h => ?_
    · rw [hebb1.recounted.size, hhost1]
      exact hlimit
    · obtain ⟨hw2, hebb2, hreleased⟩ := h
      rw [hhost1] at hebb2
      refine ⟨hw2, hebb1.trans (hebb2.mono fun e he => hebb1.recounted.within.1 he), fun q hq => ?_⟩
      rcases List.mem_append.1 hq with hq | hq
      · exact hebb2.freed (hdone q hq)
      · rw [List.mem_singleton.1 hq]
        exact hreleased
  obtain ⟨hw1, hebb1, hrepeaters⟩ := h
  refine .bind (clearHandlers_completes hw1 _ gone) fun w2 _ h => ?_
  obtain ⟨hw2, hebb2, hhandlers⟩ := h
  have htable : (w.host.1.item it).table = w2.host.1.table it.component (some it.index) := by
    rw [(hebb1.trans hebb2).recounted.table]
    rfl
  rw [htable]
  refine (dropTable_completes hw2 (hebb2.destroyed (hebb1.destroyed hdown)) _).mono fun w3 _ h => ?_
  obtain ⟨hw3, hsettles, hcells⟩ := h
  have hebb3 := hsettles.ebbs gone
  exact ⟨hw3, (hebb1.trans hebb2).trans hebb3,
    fun r hr => hebb3.freed (hebb2.freed (hrepeaters r hr)),
    fun cb hcb => hebb3.handlers (hhandlers cb hcb), fun x hx => hcells x (htable ▸ hx)⟩

theorem teardown_destroys : Destroys nested (limit + 1) (Component.teardown destroy) := by
  intro w c falling giving hlimit hc hlive hw
  set gone := w.host.1.Within c with hgonedef
  refine Act.completes_ask ?_
  rw [if_neg (by simp [hlive])]
  -- the instance leaves its window in the step in which it is marked
  refine .bind (Act.completes_change (Q := fun w1 _ => w1.store = w.store ∧ w1.host.1 =
    w.host.1.modifyComponent c fun x => { x with destroyed := true }) ⟨rfl, rfl⟩) fun w1 _ h => ?_
  obtain ⟨hstore, hhost⟩ := h
  refine .bind (Act.completes_change (Q := fun w1 _ => w1.store = w.store ∧
    w1.host.1 = w.host.1.fell c) ⟨hstore, by rw [hhost]; rfl⟩) fun w1 _ h => ?_
  clear hstore hhost
  obtain ⟨hstore, hhost⟩ := h
  have hw1 : Living (fun e => falling e ∨ e = c) giving w1.store w1.host.1 := by
    rw [hstore, hhost]
    exact hw.fell hc
  have hebb1 : Ebbs gone w.store w.host.1 w1.store w1.host.1 := by
    rw [hstore, hhost]
    have h : Ebbs gone w.store w.host.1 w.store _ := .of_component .refl
      (f := fun x => { x with destroyed := true }) (fun _ => rfl) fun _ _ => rfl
    exact { Ebbs.refl w.store w.host.1 with
      recounted := w.host.1.recounted_fell c
      destroyed := h.destroyed
      component := h.component }
  have hdestroyed : (w1.host.1.component c).destroyed = true := by
    rw [hhost, Scene.component_fell _ hc, if_pos rfl]
  clear hstore hhost
  refine .bind (Act.completes_forM (I := fun done w2 =>
    Living (fun e => falling e ∨ e = c) giving w2.store w2.host.1 ∧
    Ebbs gone w1.store w1.host.1 w2.store w2.host.1 ∧
    ∀ it ∈ done, Item.Cleared w2.store w2.host.1 it)
    ⟨hw1, .refl .., by simp⟩ (fun _ h => h) fun done it rest hitems w2 h => ?_) fun w2 _ h => ?_
  · obtain ⟨hw2, hebb2, hdone⟩ := h
    have hrecount := (hebb1.trans hebb2).recounted
    have hitem : w2.host.1.item ⟨c, done.length⟩ = it := by
      rw [hrecount.item, Scene.item, Array.getD_eq_getD_getElem?, ← Array.getElem?_toList, hitems]
      simp
    rw [← hitem]
    refine (endItem_completes hdestroy hw2 ⟨c, done.length⟩ (hebb2.destroyed hdestroyed) ?_).mono
      fun w3 _ h => ?_
    · rw [hrecount.size]
      exact hlimit
    · obtain ⟨hw3, hebb3, hcleared⟩ := h
      refine ⟨hw3, hebb2.trans (hebb3.mono fun e he => hrecount.within.1 he), fun x hx => ?_⟩
      rcases List.mem_append.1 hx with hx | hx
      · exact (hdone x hx).ebbs hebb3
      · rw [List.mem_singleton.1 hx]
        exact hcleared
  obtain ⟨hw2, hebb2, hitems⟩ := h
  refine .bind (clearHandlers_completes hw2 _ gone) fun w3 _ h => ?_
  obtain ⟨hw3, hebb3, hhandlers⟩ := h
  have hebb := (hebb1.trans hebb2).trans hebb3
  rw [show (w.host.1.component c).scope = w3.host.1.table c none from
    (hebb.recounted.table c none).symm]
  refine .bind (dropTable_completes hw3 (hebb3.destroyed (hebb2.destroyed hdestroyed)) none)
    fun w4 _ h => ?_
  obtain ⟨hw4, hsettles, hcells⟩ := h
  have hebb4 := hsettles.ebbs gone
  have hall := hebb.trans hebb4
  refine Act.completes_record ⟨Living.placid ?_ (.akin (akin_record ..)), hall.trans
    (.of_same (akin_record ..).kept (fun hx => ((akin_record ..).dropped _).trans hx) rfl rfl rfl
      fun h => h)⟩
  -- every item was cleared on the way, and nothing came back
  have hcleared (n : Nat) : (w4.host.1.item ⟨c, n⟩).Cleared w4.store w4.host.1 := by
    rw [hall.recounted.item, Scene.item]
    by_cases hn : n < (w.host.1.component c).items.size
    · refine ((hitems _ ?_).ebbs hebb3).ebbs hebb4
      rw [Array.getD_eq_getD_getElem?, Array.getElem?_eq_getElem hn]
      exact Array.mem_toList_iff.2 (Array.getElem_mem hn)
    · rw [getD_of_size_le (not_lt.1 hn)]
      exact ⟨by rintro _ ⟨⟩, by rintro _ ⟨⟩, by rintro _ ⟨⟩⟩
  refine hw4.fallen_of_cleared ?_ (fun node x hx => ?_) (fun n => (hcleared n).repeaters)
    fun cb hcb => ?_
  · exact hebb4.destroyed (hebb3.destroyed (hebb2.destroyed hdestroyed))
  · cases node with
    | none =>
      rw [hebb4.recounted.table] at hx
      exact hcells x hx
    | some n => exact (hcleared n).cells x hx
  · rcases hcb with hcb | ⟨n, hcb⟩
    · rw [hall.recounted.component] at hcb
      exact hebb4.handlers (hhandlers cb hcb)
    · exact (hcleared n).handlers cb hcb

end Release

theorem destroyTo_destroys (limit : Nat) :
    Destroys nested limit (Component.destroyTo (U := U) (X := X) limit) := by
  induction limit with
  | zero =>
    intro w c _ _ hlimit hc
    rw [Nat.zero_add] at hlimit
    exact absurd hc hlimit.not_gt
  | succ limit ih => exact teardown_destroys ih

/-- Instances cannot be nested deeper than there are instances, so the limit of a release is
never reached. -/
theorem release_releases (limit : Nat) :
    Releases nested limit (Component.release (U := U) (X := X)) := by
  intro w k falling giving hk hgiving _ hw
  refine Act.completes_ask ?_
  exact releaseWith_releases (destroyTo_destroys _) w.beat k falling giving hk hgiving
    (Nat.le_add_right ..) hw

end

end ReactiveTree
