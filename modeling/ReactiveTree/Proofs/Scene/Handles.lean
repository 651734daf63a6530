import ReactiveTree.Proofs.Scene.LastingInstances

/-!
# Handles and rows

What a new handle, a release and a change of the rows of a repeater do to the invariant of
lifetimes. A release may leave an instance without handles, which is then one of the exceptions
until it is torn down (`Living.freeHandle`). A repeater that gives up rows is an exception until
the rows are gone (`Living.setRows`).
-/

namespace ReactiveTree

open Store

variable {U X : Type} {falling falling' : ComponentId → Prop} {giving : RepeaterId → Prop}
  {store : Store (Code U)} {s t : Scene U X}

/-- The components are the same, up to their counts and whether they have ended. -/
structure Scene.Recounted (s t : Scene U X) : Prop where
  size : t.components.size = s.components.size
  component : ∀ c, t.component c =
    { s.component c with refs := (t.component c).refs, destroyed := (t.component c).destroyed }

namespace Scene.Recounted

theorem modify (s : Scene U X) (c : ComponentId) {f : Component U → Component U}
    (hf : ∀ x, f x = { x with refs := (f x).refs, destroyed := (f x).destroyed }) :
    s.Recounted (s.modifyComponent c f) := by
  refine ⟨Array.size_modify, fun e => ?_⟩
  rw [component_modify]
  split
  · exact hf _
  · rfl

variable (h : s.Recounted t)
include h

theorem outer (c : ComponentId) : (t.component c).outer = (s.component c).outer := by
  rw [h.component]

theorem host (c : ComponentId) : (t.component c).host = (s.component c).host := by
  rw [h.component]

theorem window (c : ComponentId) : (t.component c).window = (s.component c).window := by
  rw [h.component]

theorem item (it : ItemRef) : t.item it = s.item it := by
  unfold Scene.item
  rw [h.component]

theorem table (c : ComponentId) (node : Option Nat) : t.table c node = s.table c node := by
  cases node with
  | none =>
    unfold Scene.table
    rw [h.component]
  | some n => exact congrArg Item.table (h.item ⟨c, n⟩)

theorem hasCallback {c : ComponentId} {cb : Callback} :
    t.HasCallback c cb ↔ s.HasCallback c cb := by
  unfold HasCallback
  rw [h.component]
  simp only [h.item]

theorem tree (hs : s.Tree) (hrepeaters : t.repeaters = s.repeaters)
    (hhandle : ∀ {k}, k < t.handles.size → (t.handle k).component < s.components.size)
    (hsingle : ∀ {k l}, k < t.handles.size → l < t.handles.size →
      (t.handle k).component = (t.handle l).component →
      (s.component (t.handle k).component).outer ≠ none → k = l) : t.Tree := by
  rw [tree_iff]
  simp only [h.outer, h.host, h.window, h.item, h.size, Scene.repeater, hrepeaters]
  exact ⟨hs.outer, hs.host, hs.window, hs.parent, hs.child, hs.children, hs.hosted, hs.placed,
    hs.repeaters, hs.sub, hhandle, hsingle⟩

theorem motion (hs : s.Motion store) (htransitions : t.transitions = s.transitions)
    (hclock : t.clock = s.clock) : t.Motion store := by
  have hmoves (c : ComponentId) : (t.component c).transitions = (s.component c).transitions := by
    rw [h.component]
  rw [motion_iff] at hs ⊢
  simpa only [h.table, hmoves, Scene.transition, htransitions, hclock] using hs

theorem fallen (hs : s.Fallen falling store) (hrepeaters : t.repeaters = s.repeaters)
    (hsignals : t.signals = s.signals)
    (hdestroyed : ∀ c, (t.component c).destroyed = true → ¬falling' c →
      (s.component c).destroyed = true ∧ ¬falling c)
    (hupright : ∀ c, (t.component c).destroyed = false → (s.component c).destroyed = false) :
    t.Fallen falling' store := by
  rw [fallen_iff]
  simp only [h.table, h.item, h.hasCallback, rows, Scene.repeater, hrepeaters, Scene.signal,
    hsignals]
  refine ⟨hs.flag, hs.tracker, hs.ended, fun hd hf => ?_, fun hd => hs.upright (hupright _ hd),
    fun hd hf => ?_, fun hd hf => ?_, hs.signal, hs.owned⟩
  · exact hs.cells (hdestroyed _ hd hf).1 (hdestroyed _ hd hf).2
  · exact hs.repeaters (hdestroyed _ hd hf).1 (hdestroyed _ hd hf).2
  · exact hs.handlers (hdestroyed _ hd hf).1 (hdestroyed _ hd hf).2

end Scene.Recounted

/-! ## New handles -/

theorem Scene.recounted_addHandle (s : Scene U X) (c : ComponentId) :
    s.Recounted (s.addHandle c) := by
  have h := Scene.Recounted.modify s c (f := fun x => { x with refs := x.refs + 1 }) fun _ => rfl
  exact ⟨h.size, h.component⟩

theorem Scene.destroyed_addHandle (s : Scene U X) (c e : ComponentId) :
    ((s.addHandle c).component e).destroyed = (s.component e).destroyed := by
  rw [show (s.addHandle c).component e = _ from s.component_modify c e _]
  split <;> rfl

theorem Scene.openHandles_addHandle (s : Scene U X) (c e : ComponentId) :
    (s.addHandle c).openHandles e = s.openHandles e ++ if c = e then [s.handles.size] else [] := by
  have hsize : (s.addHandle c).handles.size = s.handles.size + 1 := Array.size_push ..
  have hlast : (s.addHandle c).handle s.handles.size = { component := c } := by
    rw [handle_addHandle, if_pos rfl]
  unfold openHandles
  rw [hsize, List.range_succ, List.filter_append]
  congr 1
  · refine List.filter_congr fun k hk => ?_
    rw [handle_addHandle, if_neg ((List.mem_range.1 hk).ne)]
  · rw [List.filter_singleton, hlast]
    by_cases hc : c = e
    · simp [hc]
    · simp [hc, beq_eq_false_iff_ne.2 hc]

theorem Scene.mem_openHandles {h : HandleId} {c : ComponentId} : h ∈ s.openHandles c ↔
      h < s.handles.size ∧ (s.handle h).component = c ∧ (s.handle h).released = false := by
  simp [openHandles]

theorem Scene.handed_addHandle {c e : ComponentId} :
    (s.addHandle c).Handed e ↔ s.Handed e ∨ e = c := by
  have hsize : (s.addHandle c).handles.size = s.handles.size + 1 := Array.size_push ..
  unfold Handed
  rw [hsize]
  constructor
  · rintro ⟨k, hk, rfl⟩
    rw [handle_addHandle]
    split
    · exact .inr rfl
    · rename_i hne
      exact .inl ⟨k, Nat.lt_of_le_of_ne (Nat.le_of_lt_succ hk) hne, rfl⟩
  · rintro (⟨k, hk, rfl⟩ | rfl)
    · refine ⟨k, Nat.lt_succ_of_lt hk, ?_⟩
      rw [handle_addHandle, if_neg hk.ne]
    · refine ⟨s.handles.size, Nat.lt_succ_self _, ?_⟩
      rw [handle_addHandle, if_pos rfl]

def Scene.addRow (s : Scene U X) (r : RepeaterId) (c : ComponentId) : Scene U X :=
  (s.addHandle c).modifyRepeater r fun x =>
    { x with
      instances := x.instances.push Room.ofReferences s.handles.size
      staleRows := x.staleRows.push Room.ofFlags true }

section

variable {c : ComponentId} (hc : c < s.components.size) (hlive : (s.component c).destroyed = false)
include hc

theorem Scene.Tree.addHandle (h : s.Tree) (hfree : (s.component c).outer = none ∨ ¬s.Handed c) :
    (s.addHandle c).Tree := by
  have hsize : (s.addHandle c).handles.size = s.handles.size + 1 := Array.size_push ..
  have hcase {k : HandleId} (hk : k < (s.addHandle c).handles.size) :
      k = s.handles.size ∧ (s.addHandle c).handle k = { component := c } ∨
        k < s.handles.size ∧ (s.addHandle c).handle k = s.handle k := by
    rw [hsize] at hk
    rw [Scene.handle_addHandle]
    split
    · exact .inl ⟨‹_›, rfl⟩
    · exact .inr ⟨Nat.lt_of_le_of_ne (Nat.le_of_lt_succ hk) ‹_›, rfl⟩
  refine (s.recounted_addHandle c).tree h rfl (fun hk => ?_) fun hk hl heq ho => ?_
  · rcases hcase hk with ⟨-, heq⟩ | ⟨hlt, heq⟩
    · rw [heq]
      exact hc
    · rw [heq]
      exact h.handle hlt
  · -- of an instance with an outer one there was no handle before
    rcases hcase hk with ⟨rfl, hk⟩ | ⟨hk, hkeq⟩ <;> rcases hcase hl with ⟨rfl, hl⟩ | ⟨hl, hleq⟩
    · rfl
    · rw [hk, hleq] at heq
      rw [hk] at ho
      exact absurd ⟨_, hl, heq.symm⟩ (hfree.resolve_left ho)
    · rw [hkeq, hl] at heq
      rw [hkeq, heq] at ho
      exact absurd ⟨_, hk, heq⟩ (hfree.resolve_left ho)
    · rw [hkeq, hleq] at heq
      rw [hkeq] at ho
      exact h.single hk hl heq ho

include hlive in
/-- The counts of the handles after a new one; what is new in the rows is left to the caller. -/
theorem Scene.Counts.addHandle (h : s.Counts falling giving) (hnot : ¬falling c)
    {t : Scene U X} (hcomponents : t.components = (s.addHandle c).components)
    (hhandles : t.handles = (s.addHandle c).handles) (hwindows : t.windows = s.windows)
    (hhost : ∀ r, (t.repeater r).host = (s.repeater r).host)
    (hrows : ∀ r h, h ∈ t.rows r → h ∈ s.rows r ∨
      h = s.handles.size ∧ (s.component c).host = some (s.repeater r).host)
    (hkept : ∀ r h, h ∈ s.rows r → h ∈ t.rows r) (hnodup : ∀ r, (t.rows r).Nodup)
    (hapart : ∀ r q, s.handles.size ∈ t.rows r → s.handles.size ∈ t.rows q → r = q)
    (hrow : (s.component c).outer ≠ none → ∃ r, s.handles.size ∈ t.rows r) :
    t.Counts falling giving := by
  have hrecount := s.recounted_addHandle c
  have hcomponent (e : ComponentId) : t.component e = (s.addHandle c).component e := by
    rw [Scene.component, hcomponents]
    rfl
  have hhandle (k : HandleId) : t.handle k =
      if k = s.handles.size then { component := c } else s.handle k := by
    rw [← Scene.handle_addHandle, Scene.handle, hhandles]
    rfl
  have hopen (e : ComponentId) : t.openHandles e =
      s.openHandles e ++ if c = e then [s.handles.size] else [] := by
    rw [← Scene.openHandles_addHandle]
    simp only [Scene.openHandles, Scene.handle, hhandles]
  have hhanded (e : ComponentId) : t.Handed e ↔ s.Handed e ∨ e = c := by
    rw [← Scene.handed_addHandle]
    simp only [Scene.Handed, Scene.handle, hhandles]
  have hsize : t.handles.size = s.handles.size + 1 := by
    rw [hhandles]
    exact Array.size_push ..
  have hcount : t.components.size = s.components.size := by
    rw [hcomponents]
    exact hrecount.size
  have hrefs (e : ComponentId) : (t.component e).refs =
      (s.component e).refs + if c = e then 1 else 0 := by
    rw [hcomponent, show (s.addHandle c).component e = _ from s.component_modify c e _]
    by_cases he : e = c
    · subst he
      rw [if_pos ⟨rfl, hc⟩, if_pos rfl]
    · rw [if_neg fun hx => he hx.1, if_neg fun hx => he hx.symm]
      simp
  have hdestroyed (e : ComponentId) : (t.component e).destroyed = (s.component e).destroyed := by
    rw [hcomponent, show (s.addHandle c).component e = _ from s.component_modify c e _]
    split <;> rfl
  have hold {k : HandleId} (hk : k < s.handles.size) : t.handle k = s.handle k := by
    rw [hhandle, if_neg hk.ne]
  constructor
  case refs =>
    intro e he
    rw [hrefs, hopen, h.refs (hcount ▸ he)]
    split <;> simp
  case destroyed =>
    intro e he hf
    rw [hdestroyed, hopen, hhanded]
    by_cases heq : c = e
    · subst heq
      simp [hlive]
    · have hne : e ≠ c := fun hx => heq hx.symm
      rw [if_neg heq, List.append_nil, h.destroyed (hcount ▸ he) hf]
      simp [hne]
  case falling =>
    intro e he
    have hne : c ≠ e := fun hx => hnot (hx ▸ he)
    rw [hopen, hhanded, if_neg hne, List.append_nil]
    exact ⟨.inl (h.falling he).1, (h.falling he).2⟩
  case row =>
    intro r k hk
    rw [hsize, hcomponent, hrecount.host, hhost]
    rcases hrows r k hk with hk | ⟨rfl, hr⟩
    · obtain ⟨hlt, hr⟩ := h.row hk
      rw [hold hlt]
      exact ⟨Nat.lt_succ_of_lt hlt, hr⟩
    · rw [hhandle, if_pos rfl]
      exact ⟨Nat.lt_succ_self _, hr⟩
  case unreleased =>
    intro r k hr hk
    rcases hrows r k hk with hk | ⟨rfl, -⟩
    · rw [hold (h.row hk).1]
      exact h.unreleased hr hk
    · rw [hhandle, if_pos rfl]
  case nodup => exact hnodup
  case apart =>
    intro r q k hr hq
    rcases hrows r k hr with hr' | ⟨rfl, -⟩
    · rcases hrows q k hq with hq' | ⟨rfl, -⟩
      · exact h.apart hr' hq'
      · exact absurd (h.row hr').1 (Nat.lt_irrefl _)
    · exact hapart r q hr hq
  case rowed =>
    intro k hk hreleased ho
    rw [hcomponent, hrecount.outer] at ho
    rw [hhandle] at hreleased ho
    split at ho
    · rename_i heq
      exact heq ▸ hrow ho
    · rename_i hne
      rw [if_neg hne] at hreleased
      rw [hsize] at hk
      obtain ⟨r, hr⟩ := h.rowed (Nat.lt_of_le_of_ne (Nat.le_of_lt_succ hk) hne) hreleased ho
      exact ⟨r, hkept r k hr⟩
  case pointer =>
    intro i it hit
    rw [show t.windowAt i = s.windowAt i by simp only [Scene.windowAt, hwindows]] at hit
    rw [hcount, hdestroyed, hcomponent, hrecount.window]
    exact h.pointer hit

include hlive in
/-- Another handle to an instance that has not ended and that no repeater made. -/
theorem Living.addHandle (h : Living falling giving store s) (hnot : ¬falling c)
    (houter : (s.component c).outer = none) : Living falling giving store (s.addHandle c) := by
  have hdestroyed := s.destroyed_addHandle c
  refine ⟨h.tree.addHandle hc (.inl houter), h.counts.addHandle hc hlive hnot rfl rfl rfl
    (fun _ => rfl) (fun _ _ hk => .inl hk) (fun _ _ hk => hk) h.counts.nodup
    (fun r q hr hq => h.counts.apart hr hq) fun ho => absurd houter ho,
    (s.recounted_addHandle c).motion h.motion rfl rfl,
      (s.recounted_addHandle c).fallen h.fallen rfl rfl
        (fun e hd hf => ⟨hdestroyed e ▸ hd, hf⟩) fun e hd => hdestroyed e ▸ hd⟩

end

/-! ## Changes of repeaters -/

theorem Living.give (h : Living falling giving store s) (r : RepeaterId) :
    Living falling (fun q => giving q ∨ q = r) store s :=
  ⟨h.tree, { h.counts with
    unreleased := fun hq => h.counts.unreleased fun hx => hq (.inl hx) }, h.motion, h.fallen⟩

theorem Scene.rows_modify (s : Scene U X) (r q : RepeaterId) (f : Repeater U → Repeater U) :
    (s.modifyRepeater r f).rows q = if q = r ∧ q < s.repeaters.size then
      (f (s.repeater q)).instances.list.toList else s.rows q := by
  unfold rows
  rw [repeater_modify]
  split <;> rfl

/-- A change of a repeater that leaves it where it is. -/
structure Repeater.Stable (x y : Repeater U) : Prop where
  host : y.host = x.host
  sub : y.sub = x.sub
  flag : y.flag = x.flag
  tracker : y.tracker = x.tracker

section

variable {r : RepeaterId} {f : Repeater U → Repeater U} (hf : ∀ x, Repeater.Stable x (f x))
include hf

theorem Scene.repeater_stable (s : Scene U X) (q : RepeaterId) :
    (s.repeater q).Stable ((s.modifyRepeater r f).repeater q) := by
  rw [repeater_modify]
  split
  · exact hf _
  · exact ⟨rfl, rfl, rfl, rfl⟩

theorem Scene.Tree.modifyRepeater (h : s.Tree) : (s.modifyRepeater r f).Tree := by
  have hsize : (s.modifyRepeater r f).repeaters.size = s.repeaters.size := Array.size_modify
  exact { h with
    hosted := fun {q} hq => by
      rw [(s.repeater_stable hf q).host]
      exact h.hosted (hsize ▸ hq)
    placed := fun {it q} hq => by
      rw [(s.repeater_stable hf q).host, hsize]
      exact h.placed hq
    sub := fun q => by
      rw [(s.repeater_stable hf q).sub]
      exact h.sub q }

theorem Scene.Fallen.modifyRepeater (h : s.Fallen falling store)
    (hended : ∀ q, ((s.modifyRepeater r f).repeater q).released = true →
      (s.modifyRepeater r f).rows q = [] ∧ (store.cell (s.repeater q).flag).dropped = true ∧
      (store.cell (s.repeater q).tracker).dropped = true)
    (hmono : (s.repeater r).released = true → (f (s.repeater r)).released = true) :
    (s.modifyRepeater r f).Fallen falling store := by
  have hsize : (s.modifyRepeater r f).repeaters.size = s.repeaters.size := Array.size_modify
  exact { h with
    flag := fun {q} hq => by
      rw [(s.repeater_stable hf q).flag]
      exact h.flag (hsize ▸ hq)
    tracker := fun {q} hq => by
      rw [(s.repeater_stable hf q).tracker]
      exact h.tracker (hsize ▸ hq)
    ended := fun {q} hq => by
      rw [(s.repeater_stable hf q).flag, (s.repeater_stable hf q).tracker]
      exact hended q hq
    repeaters := fun {c} hd hfall n q hq => by
      have hreleased := h.repeaters hd hfall n q hq
      rw [Scene.repeater_modify]
      split
      · rename_i heq
        obtain ⟨rfl, -⟩ := heq
        exact hmono hreleased
      · exact hreleased }

/-- A repeater that is giving up rows keeps those that are not released. -/
theorem Living.setRows (h : Living falling (fun q => giving q ∨ q = r) store s)
    (hreleased : ∀ x, (f x).released = x.released)
    (hrows : (f (s.repeater r)).instances.list.toList.Sublist (s.rows r))
    (hgone : ∀ k ∈ s.rows r, k ∉ (f (s.repeater r)).instances.list.toList →
      (s.handle k).released = true)
    (hkept : ¬giving r → ∀ k ∈ (f (s.repeater r)).instances.list.toList,
      (s.handle k).released = false) : Living falling giving store (s.modifyRepeater r f) := by
  have hsub (q : RepeaterId) : ((s.modifyRepeater r f).rows q).Sublist (s.rows q) := by
    rw [Scene.rows_modify]
    split
    · rename_i heq
      obtain ⟨rfl, -⟩ := heq
      exact hrows
    · exact .refl _
  have hnil : ¬r < s.repeaters.size → s.rows r = [] := fun hr => by
    have hdefault : s.repeater r = default := getD_of_size_le (not_lt.1 hr) _
    rw [Scene.rows, hdefault]
    rfl
  refine ⟨h.tree.modifyRepeater hf, { h.counts with
    row := fun {q k} hk => ?_, unreleased := fun {q k} hq hk => ?_
    nodup := fun q => (h.counts.nodup q).sublist (hsub q)
    apart := fun hr hq => h.counts.apart ((hsub _).subset hr) ((hsub _).subset hq)
    rowed := fun {k} hk hopen ho => ?_ }, { h.motion with },
    h.fallen.modifyRepeater hf (fun q hq => ?_) fun hr => (hreleased _).trans hr⟩
  · rw [(s.repeater_stable hf q).host]
    exact h.counts.row ((hsub q).subset hk)
  · by_cases hqr : q = r
    · subst hqr
      rw [Scene.rows_modify] at hk
      split at hk
      · exact hkept hq k hk
      · rename_i hlt
        rw [hnil fun hx => hlt ⟨rfl, hx⟩] at hk
        cases hk
    · refine h.counts.unreleased ?_ ((hsub q).subset hk)
      rintro (hx | hx)
      · exact hq hx
      · exact hqr hx
  · obtain ⟨q, hq⟩ := h.counts.rowed hk hopen ho
    refine ⟨q, ?_⟩
    rw [Scene.rows_modify]
    split
    · rename_i heq
      obtain ⟨rfl, -⟩ := heq
      by_contra hnot
      have hopen : (s.handle k).released = false := hopen
      rw [hgone k hq hnot] at hopen
      cases hopen
    · exact hq
  · have hold : (s.repeater q).released = true := by
      rw [Scene.repeater_modify] at hq
      split at hq
      · exact (hreleased _).symm.trans hq
      · exact hq
    obtain ⟨hempty, hflag, htracker⟩ := h.fallen.ended hold
    refine ⟨List.sublist_nil.1 (hempty ▸ hsub q), hflag, htracker⟩

theorem Living.quiet (h : Living falling giving store s)
    (hreleased : ∀ x, (f x).released = x.released) (hrows : ∀ x, (f x).instances = x.instances) :
    Living falling giving store (s.modifyRepeater r f) := by
  refine Living.setRows hf (h.give r) hreleased ?_ (fun k hk hnot => ?_) fun hr k hk => ?_
  · rw [hrows]
    exact .refl _
  · rw [hrows] at hnot
    exact absurd hk hnot
  · rw [hrows] at hk
    exact h.counts.unreleased hr hk

end

theorem Living.addRow (h : Living falling giving store s) {r : RepeaterId} {c : ComponentId}
    (hr : r < s.repeaters.size) (hunreleased : (s.repeater r).released = false)
    (hc : c < s.components.size) (hlive : (s.component c).destroyed = false) (hnot : ¬falling c)
    (hhanded : ¬s.Handed c) (hhost : (s.component c).host = some (s.repeater r).host) :
    Living falling giving store (s.addRow r c) := by
  set f : Repeater U → Repeater U := fun x =>
    { x with
      instances := x.instances.push Room.ofReferences s.handles.size
      staleRows := x.staleRows.push Room.ofFlags true } with hfdef
  have hf : ∀ x, Repeater.Stable x (f x) := fun _ => ⟨rfl, rfl, rfl, rfl⟩
  have ht : s.addRow r c = (s.addHandle c).modifyRepeater r f := rfl
  have hrow (q : RepeaterId) : (s.addRow r c).rows q =
      s.rows q ++ if q = r then [s.handles.size] else [] := by
    rw [ht, Scene.rows_modify]
    by_cases hq : q = r
    · subst hq
      rw [if_pos ⟨rfl, hr⟩, if_pos rfl]
      rw [Shelf.list_push, Array.toList_push]
      rfl
    · rw [if_neg fun hx => hq hx.1, if_neg hq, List.append_nil]
      rfl
  have hfresh (q : RepeaterId) : s.handles.size ∉ s.rows q := fun hx =>
    Nat.lt_irrefl _ (h.counts.row hx).1
  have hdestroyed := s.destroyed_addHandle c
  have hfallen : (s.addHandle c).Fallen falling store :=
    (s.recounted_addHandle c).fallen h.fallen rfl rfl
      (fun e hd hfall => ⟨hdestroyed e ▸ hd, hfall⟩) fun e hd => hdestroyed e ▸ hd
  refine ⟨(h.tree.addHandle hc (.inr hhanded)).modifyRepeater hf, ?_,
    { (s.recounted_addHandle c).motion h.motion rfl rfl with }, ?_⟩
  · refine h.counts.addHandle hc hlive hnot rfl rfl rfl
      (fun q => ((s.addHandle c).repeater_stable hf q).host) (fun q k hk => ?_) (fun q k hk => ?_)
      (fun q => ?_) (fun q q' hq hq' => ?_) fun _ => ⟨r, ?_⟩
    · rw [hrow] at hk
      rcases List.mem_append.1 hk with hk | hk
      · exact .inl hk
      · split at hk
        · rename_i hq
          exact .inr ⟨List.mem_singleton.1 hk, hq ▸ hhost⟩
        · cases hk
    · rw [hrow]
      exact List.mem_append_left _ hk
    · rw [hrow]
      refine List.nodup_append.2 ⟨h.counts.nodup q, by split <;> simp, fun k hk l hl heq => ?_⟩
      split at hl
      · rw [List.mem_singleton.1 hl] at heq
        exact hfresh q (heq ▸ hk)
      · cases hl
    · have hmem {q : RepeaterId} (hq : s.handles.size ∈ (s.addRow r c).rows q) : q = r := by
        by_contra hne
        rw [hrow, if_neg hne, List.append_nil] at hq
        exact hfresh q hq
      exact (hmem hq).trans (hmem hq').symm
    · rw [hrow, if_pos rfl]
      simp
  · refine hfallen.modifyRepeater hf (fun q hq => ?_) fun hx => hx
    have hold : (s.repeater q).released = true := by
      rw [Scene.repeater_modify] at hq
      split at hq
      · exact hq
      · exact hq
    have hne : q ≠ r := by
      rintro rfl
      rw [hunreleased] at hold
      cases hold
    obtain ⟨hempty, hflag, htracker⟩ := h.fallen.ended hold
    refine ⟨?_, hflag, htracker⟩
    rw [← ht, hrow, if_neg hne, hempty]
    rfl

/-- A repeater without rows, whose cells are dropped, has ended. -/
theorem Living.endRepeater (h : Living falling giving store s) {r : RepeaterId}
    (hempty : s.rows r = []) (hflag : (store.cell (s.repeater r).flag).dropped = true)
    (htracker : (store.cell (s.repeater r).tracker).dropped = true) :
    Living falling giving store (s.modifyRepeater r fun x => { x with released := true }) := by
  have hf : ∀ x : Repeater U, x.Stable { x with released := true } := fun _ => ⟨rfl, rfl, rfl, rfl⟩
  have hrows (q : RepeaterId) :
      (s.modifyRepeater r fun x => { x with released := true }).rows q = s.rows q := by
    rw [Scene.rows_modify]
    split <;> rfl
  refine ⟨h.tree.modifyRepeater hf, { h.counts with
    row := fun {q k} hk => ?_, unreleased := fun {q k} hq hk => ?_
    nodup := fun q => ?_, apart := fun {q q' k} hr hq => ?_, rowed := fun hk hopen ho => ?_ },
    { h.motion with }, h.fallen.modifyRepeater hf (fun q hq => ?_) fun _ => rfl⟩
  · rw [(s.repeater_stable hf q).host]
    exact h.counts.row (hrows q ▸ hk)
  · exact h.counts.unreleased hq (hrows q ▸ hk)
  · rw [hrows]
    exact h.counts.nodup q
  · rw [hrows] at hr hq
    exact h.counts.apart hr hq
  · simp only [hrows]
    exact h.counts.rowed hk hopen ho
  · rw [hrows]
    by_cases hqr : q = r
    · subst hqr
      exact ⟨hempty, hflag, htracker⟩
    · rw [Scene.repeater_modify, if_neg fun hx => hqr hx.1] at hq
      exact h.fallen.ended hq

/-! ## Releases -/

theorem Scene.recounted_freeHandle (s : Scene U X) (k : HandleId) :
    s.Recounted (s.freeHandle k) := by
  have h := Scene.Recounted.modify s (s.handle k).component
    (f := fun x => { x with refs := x.refs - 1 }) fun _ => rfl
  exact ⟨h.size, h.component⟩

theorem Scene.nodup_openHandles (s : Scene U X) (c : ComponentId) : (s.openHandles c).Nodup :=
  List.nodup_range.filter _

theorem Scene.openHandles_freeHandle (s : Scene U X) (k : HandleId) (c : ComponentId) :
    (s.freeHandle k).openHandles c = (s.openHandles c).erase k := by
  rw [(s.nodup_openHandles c).erase_eq_filter]
  have hsize : (s.freeHandle k).handles.size = s.handles.size := Array.size_modify
  unfold openHandles
  rw [hsize, List.filter_filter]
  refine List.filter_congr fun l hl => ?_
  rw [handle_freeHandle]
  by_cases heq : l = k
  · subst heq
    simp [List.mem_range.1 hl]
  · simp [heq]

theorem Scene.component_freeHandle (s : Scene U X) (k l : HandleId) :
    ((s.freeHandle k).handle l).component = (s.handle l).component := by
  rw [handle_freeHandle]
  split <;> rfl

/-- A handle is released. An instance without handles has to be torn down. -/
theorem Living.freeHandle (h : Living falling giving store s) {k : HandleId}
    (hk : k < s.handles.size) (hopen : (s.handle k).released = false)
    (hgiving : ∀ r, k ∈ s.rows r → giving r) :
      Living (fun e => falling e ∨ e = (s.handle k).component ∧ (s.freeHandle k).openHandles e = [])
        giving store (s.freeHandle k) := by
  set c := (s.handle k).component with hcdef
  have hrecount := s.recounted_freeHandle k
  have hsize : (s.freeHandle k).handles.size = s.handles.size := Array.size_modify
  have hmem : k ∈ s.openHandles c := Scene.mem_openHandles.2 ⟨hk, rfl, hopen⟩
  have hother {e : ComponentId} (he : e ≠ c) : (s.openHandles e).erase k = s.openHandles e :=
    List.erase_of_not_mem fun hx => he (Scene.mem_openHandles.1 hx).2.1.symm
  have hcomponent (e : ComponentId) : (s.freeHandle k).component e =
      if e = c ∧ e < s.components.size then { s.component e with refs := (s.component e).refs - 1 }
      else s.component e := s.component_modify c e _
  have hdestroyed (e : ComponentId) :
      ((s.freeHandle k).component e).destroyed = (s.component e).destroyed := by
    rw [hcomponent]
    split <;> rfl
  have hhanded (e : ComponentId) : (s.freeHandle k).Handed e ↔ s.Handed e := by
    simp only [Scene.Handed, hsize, Scene.component_freeHandle]
  have hnot : ¬falling c := fun hx => by
    rw [(h.counts.falling hx).2] at hmem
    cases hmem
  have hunreleased {l : HandleId} (hl : ((s.freeHandle k).handle l).released = false) :
      (s.handle l).released = false := by
    rw [Scene.handle_freeHandle] at hl
    split at hl
    · cases hl
    · exact hl
  refine ⟨hrecount.tree h.tree rfl (fun hl => ?_) fun hl hm heq ho => ?_, ?_,
    hrecount.motion h.motion rfl rfl, hrecount.fallen h.fallen rfl rfl (fun e hd hf =>
      ⟨hdestroyed e ▸ hd, fun hx => hf (.inl hx)⟩) fun e hd => hdestroyed e ▸ hd⟩
  · rw [Scene.component_freeHandle]
    exact h.tree.handle (hsize ▸ hl)
  · simp only [Scene.component_freeHandle] at heq ho
    exact h.tree.single (hsize ▸ hl) (hsize ▸ hm) heq ho
  · constructor
    case refs =>
      intro e he
      rw [hrecount.size] at he
      rw [hcomponent, Scene.openHandles_freeHandle]
      by_cases heq : e = c
      · subst heq
        rw [if_pos ⟨rfl, he⟩, List.length_erase_of_mem hmem]
        have hpos : 0 < (s.openHandles c).length := List.length_pos_of_mem hmem
        have hrefs := h.counts.refs he
        show (s.component c).refs - 1 = _
        omega
      · rw [if_neg fun hx => heq hx.1, hother heq]
        exact h.counts.refs he
    case destroyed =>
      intro e he hf
      rw [hrecount.size] at he
      rw [hdestroyed, hhanded]
      by_cases heq : e = c
      · subst heq
        have hne : (s.freeHandle k).openHandles c ≠ [] := fun hx => hf (.inr ⟨rfl, hx⟩)
        have halive : (s.component c).destroyed = false := by
          by_contra hd
          have hnil := ((h.counts.destroyed he hnot).1 (by simpa using hd)).2
          rw [hnil] at hmem
          cases hmem
        simp [halive, hne]
      · rw [Scene.openHandles_freeHandle, hother heq]
        exact h.counts.destroyed he fun hx => hf (.inl hx)
    case falling =>
      intro e he
      rw [hhanded]
      rcases he with he | ⟨rfl, he⟩
      · rw [Scene.openHandles_freeHandle, (h.counts.falling he).2]
        exact ⟨(h.counts.falling he).1, rfl⟩
      · exact ⟨⟨k, hk, rfl⟩, he⟩
    case row =>
      intro r l hl
      obtain ⟨hlt, hhost⟩ := h.counts.row hl
      rw [hsize, Scene.component_freeHandle, hrecount.host]
      exact ⟨hlt, hhost⟩
    case unreleased =>
      intro r l hr hl
      rw [Scene.handle_freeHandle, if_neg]
      · exact h.counts.unreleased hr hl
      · rintro ⟨rfl, -⟩
        exact hr (hgiving r hl)
    case nodup => exact h.counts.nodup
    case apart => exact h.counts.apart
    case rowed =>
      intro l hl hreleased ho
      rw [Scene.component_freeHandle, hrecount.outer] at ho
      exact h.counts.rowed (hsize ▸ hl) (hunreleased hreleased) ho
    case pointer =>
      intro i it hit
      rw [hrecount.size, hdestroyed, hrecount.window]
      exact h.counts.pointer hit

end ReactiveTree
