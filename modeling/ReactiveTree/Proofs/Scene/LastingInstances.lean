import ReactiveTree.Proofs.Scene.LastingBuild

/-!
# Instances and lifetimes

What is attached to a new instance: transitions, bindings, handlers and repeaters. It is alive
all the while, so none of this comes too late for its cells. The main statement is
`building_build`: a build, whatever code it runs and however it ends, keeps the invariant, and
what it returns is a new instance without handles.
-/

namespace ReactiveTree

open Store

variable {U X : Type}
variable {x : Component U} {c : ComponentId} {d : Definition U} {items : List Item} {s : Scene U X}
  {store : Store (Code U)}

section Changes

variable {falling : ComponentId → Prop} {giving : RepeaterId → Prop} {store : Store (Code U)}
  {s : Scene U X}

theorem Table.transition?_extend (t : Table) (slot i : Nat) (a : TransitionId) :
    ({ t with transitions := t.transitions ++ [(slot, a)] } : Table).transition? i =
      (t.transition? i).or (if i = slot then some a else none) := by
  simp only [Table.transition?, List.lookup_append]
  by_cases h : i = slot <;> simp [h]

/-- A new transition is entered where there is none yet. -/
theorem Living.animate (h : Living falling giving store s) {spot : Spot}
    (hin : spot.slot < (s.table spot.component spot.node).cells.length)
    (hnone : (s.table spot.component spot.node).transition? spot.slot = none) {x : Transition U}
    (hcell : x.cell = s.cellAt spot) (hrunning : x.running = false) (htracker : x.tracker = none) :
    Living falling giving store (Scene.addMotion { s with transitions := s.transitions.push x }
      spot x.cell s.transitions.size) := by
  set s1 : Scene U X := { s with transitions := s.transitions.push x } with hs1
  set t := s1.addMotion spot x.cell s.transitions.size with ht
  have halike : s1.Alike t := s1.alike_addMotion ..
  have hfields := s1.addMotion_eq spot x.cell s.transitions.size
  have hpush : t.transitions = s.transitions.push x := by
    rw [ht, hfields]
  have htrans (b : TransitionId) :
      t.transition b = if b = s.transitions.size then x else s.transition b := by
    simp only [Scene.transition, hpush]
    exact getD_push ..
  have hsize : t.transitions.size = s.transitions.size + 1 := by
    rw [hpush, Array.size_push]
  have hold {b : TransitionId} (hb : b < s.transitions.size) : t.transition b = s.transition b := by
    rw [htrans, if_neg hb.ne]
  have hnew : t.transition s.transitions.size = x := by
    rw [htrans, if_pos rfl]
  have hslot : (s.table spot.component spot.node).cells[spot.slot]? = some x.cell := by
    rw [hcell, List.getElem?_eq_getElem hin]
    simp [Scene.cellAt, Table.cell?, hin]
  have hnonempty : (s1.table spot.component spot.node).cells ≠ [] := by
    intro hnil
    have hnil : (s.table spot.component spot.node).cells = [] := hnil
    simp [hnil] at hin
  have htable := s1.table_addMotion hnonempty x.cell s.transitions.size
  have hlookup (c : ComponentId) (node : Option Nat) (i : Nat) : (t.table c node).transition? i =
      ((s.table c node).transition? i).or (if c = spot.component ∧ node = spot.node ∧ i = spot.slot
        then some s.transitions.size else none) := by
    have hget := congrArg (Table.transition? · i) (htable c node)
    refine hget.trans ?_
    split
    · rename_i heq
      obtain ⟨rfl, rfl⟩ := heq
      refine (Table.transition?_extend (s.table spot.component spot.node) spot.slot i _).trans ?_
      simp
    · rename_i hne
      rw [if_neg fun hx => hne ⟨hx.1, hx.2.1⟩, Option.or_none]
      rfl
  have hcells (c : ComponentId) (node : Option Nat) :
      (t.table c node).cells = (s.table c node).cells := halike.table c node
  have hdecls (c : ComponentId) (node : Option Nat) :
      (t.table c node).decls = (s.table c node).decls := by
    have hget := congrArg Table.decls (htable c node)
    refine hget.trans ?_
    split <;> rfl
  have hclock : t.clock = s.clock := by
    rw [ht, hfields]
  refine ⟨halike.tree { h.tree with }, halike.counts { h.counts with }, ?_,
    halike.fallen { h.fallen with }⟩
  rw [Scene.motion_iff]
  simp only [hcells, hdecls, hsize, hclock]
  refine ⟨h.motion.cells, h.motion.lengths, h.motion.place, fun {c node i b} hb => ?_,
    fun {b} hb => ?_, fun {c y b} hb => ?_, fun {b k} hb => ?_, fun {b} hb hd => ?_,
    fun hy hcode => ?_, fun b hb => Nat.lt_succ_of_lt (h.motion.running b hb)⟩
  · rw [hlookup, Option.or_eq_some_iff] at hb
    rcases hb with hb | ⟨-, hb⟩
    · obtain ⟨hlt, hmoves⟩ := h.motion.entry hb
      rw [hold hlt]
      exact ⟨Nat.lt_succ_of_lt hlt, hmoves⟩
    · split at hb
      · rename_i heq
        obtain ⟨rfl, rfl, rfl⟩ := heq
        cases hb
        rw [hnew]
        exact ⟨Nat.lt_succ_self _, hslot⟩
      · cases hb
  · rcases Nat.lt_succ_iff_lt_or_eq.1 hb with hb | rfl
    · obtain ⟨c, node, i, hi⟩ := h.motion.registered hb
      exact ⟨c, node, i, by rw [hlookup, hi]; rfl⟩
    · exact ⟨spot.component, spot.node, spot.slot, by rw [hlookup, hnone]; simp⟩
  · have hmem : (y, b) ∈ (s.component c).transitions ∨
        c = spot.component ∧ (y, b) = (x.cell, s.transitions.size) := by
      rw [ht, Scene.transitions_addMotion] at hb
      split at hb
      · rename_i hc
        rcases List.mem_append.1 hb with hb | hb
        · exact .inl hb
        · exact .inr ⟨hc.1, List.mem_singleton.1 hb⟩
      · exact .inl hb
    rcases hmem with hb | ⟨rfl, heq⟩
    · obtain ⟨hlt, hmoves⟩ := h.motion.moved hb
      rw [hold hlt]
      exact ⟨Nat.lt_succ_of_lt hlt, hmoves⟩
    · cases heq
      rw [hnew]
      exact ⟨Nat.lt_succ_self _, rfl, spot.node, List.mem_of_getElem? hslot⟩
  · rw [htrans] at hb
    split at hb
    · rw [htracker] at hb
      cases hb
    · exact h.motion.tracker hb
  · rw [htrans] at hd ⊢
    split
    · exact ⟨hrunning, htracker⟩
    · rename_i hne
      rw [if_neg hne] at hd
      exact h.motion.still (Nat.lt_of_le_of_ne (Nat.le_of_lt_succ hb) hne) hd
  · obtain ⟨hlt, hor⟩ := h.motion.retarget hy hcode
    rw [hold hlt]
    exact ⟨Nat.lt_succ_of_lt hlt, hor⟩

theorem Scene.grows_addMotion (s : Scene U X) (x : Transition U) (spot : Spot) (cell : CellId)
    (a : TransitionId) :
    s.Grows (Scene.addMotion { s with transitions := s.transitions.push x } spot cell a) := by
  set s1 : Scene U X := { s with transitions := s.transitions.push x } with hs1
  have halike := s1.alike_addMotion spot cell a
  have htransitions : (s1.addMotion spot cell a).transitions = s.transitions.push x := by
    rw [s1.addMotion_eq]
  refine Scene.Alike.grows ⟨halike.size, halike.component, halike.item, halike.repeatersOf,
    halike.handles, halike.repeaters, halike.windows, halike.signals⟩ ?_ fun b hb => ?_
  · rw [htransitions, Array.size_push]
    exact Nat.le_succ _
  · rw [Scene.transition, htransitions, getD_push, if_neg hb.ne]
    rfl

def Scene.addRepeater (s : Scene U X) (x : Repeater U) : Scene U X :=
  { s.modifyItem x.host fun it => { it with repeaters := it.repeaters ++ [s.repeaters.size] } with
    repeaters := s.repeaters.push x }

section Repeaters

variable {x : Repeater U} (hc : x.host.component < s.components.size)
  (hn : x.host.index < (s.component x.host.component).items.size)

theorem Scene.repeater_add (r : RepeaterId) :
    (s.addRepeater x).repeater r = if r = s.repeaters.size then x else s.repeater r := getD_push ..

theorem Scene.like_addRepeater (s : Scene U X) (x : Repeater U) (e : ComponentId) :
    (s.component e).Like ((s.addRepeater x).component e) := by
  show (s.component e).Like ((s.modifyItem x.host _).component e)
  rw [modifyItem, component_modify]
  split
  · exact ⟨rfl, rfl, rfl, rfl, rfl, rfl, Array.size_modify, rfl⟩
  · exact ⟨rfl, rfl, rfl, rfl, rfl, rfl, rfl, rfl⟩

include hc hn in
theorem Scene.item_addRepeater (it : ItemRef) :
    (s.addRepeater x).item it = { s.item it with
      repeaters := (s.item it).repeaters ++ if it = x.host then [s.repeaters.size] else [] } := by
  show (s.modifyItem x.host _).item it = _
  rw [Scene.item_modify]
  by_cases heq : it = x.host
  · rw [if_pos ⟨heq, heq ▸ hc, heq ▸ hn⟩, if_pos heq]
  · rw [if_neg fun h => heq h.1, if_neg heq, List.append_nil]

theorem Scene.table_addRepeater (c : ComponentId) (node : Option Nat) :
    (s.addRepeater x).table c node = s.table c node := by
  show (s.modifyItem x.host _).table c node = _
  rw [Scene.table_modifyItem]
  split
  · rename_i heq
    obtain ⟨rfl, rfl, -⟩ := heq
    rfl
  · rfl

include hc hn in
theorem Scene.Tree.addRepeater (h : s.Tree) (hsub : x.sub.Made) : (s.addRepeater x).Tree := by
  have hlike := s.like_addRepeater x
  have hsize : (s.addRepeater x).components.size = s.components.size := Array.size_modify
  have hrepeaters : (s.addRepeater x).repeaters.size = s.repeaters.size + 1 := Array.size_push ..
  rw [tree_iff]
  simp only [fun e => (hlike e).outer, fun e => (hlike e).host, fun e => (hlike e).window,
    Scene.item_addRepeater hc hn, Scene.repeater_add, hsize, hrepeaters]
  refine ⟨h.outer, h.host, h.window, h.parent, h.child, h.children, fun {r} hr => ?_,
    fun {it r} hr => ?_, fun it => ?_, fun r => ?_, h.handle, h.single⟩
  · rcases Nat.lt_succ_iff_lt_or_eq.1 hr with hr | rfl
    · rw [if_neg hr.ne]
      exact List.mem_append_left _ (h.hosted hr)
    · simp
  · rcases List.mem_append.1 hr with hr | hr
    · obtain ⟨hlt, hhost⟩ := h.placed hr
      rw [if_neg hlt.ne]
      exact ⟨Nat.lt_succ_of_lt hlt, hhost⟩
    · split at hr
      · rename_i heq
        obtain rfl := List.mem_singleton.1 hr
        rw [if_pos rfl]
        exact ⟨Nat.lt_succ_self _, heq.symm⟩
      · cases hr
  · refine List.nodup_append.2 ⟨h.repeaters it, by split <;> simp, fun r hr q hq heq => ?_⟩
    have hlt := (h.placed hr).1
    split at hq
    · obtain rfl := List.mem_singleton.1 hq
      exact hlt.ne heq
    · cases hq
  · split
    · exact hsub
    · exact h.sub r

variable (hrows : x.instances.list = #[])
include hrows

theorem Scene.rows_add (r : RepeaterId) : (s.addRepeater x).rows r = s.rows r := by
  simp only [rows, repeater_add]
  split
  · rename_i hr
    have hdefault : s.repeater r = default := getD_of_size_le (Nat.le_of_eq hr.symm) _
    rw [hrows, hdefault]
    rfl
  · rfl

theorem Scene.Counts.addRepeater (h : s.Counts falling giving) :
    (s.addRepeater x).Counts falling giving := by
  have hlike := s.like_addRepeater x
  have hsize : (s.addRepeater x).components.size = s.components.size := Array.size_modify
  rw [counts_iff]
  simp only [fun e => (hlike e).outer, fun e => (hlike e).host, fun e => (hlike e).window,
    fun e => (hlike e).refs, fun e => (hlike e).destroyed, Scene.rows_add hrows, hsize]
  refine ⟨h.refs, h.destroyed, h.falling, fun {r k} hk => ?_, h.unreleased, h.nodup, h.apart,
    h.rowed, h.pointer⟩
  obtain ⟨hlt, hhost⟩ := h.row hk
  rw [Scene.repeater_add, if_neg]
  · exact ⟨hlt, hhost⟩
  · rintro rfl
    rw [← Scene.rows_add hrows] at hk
    simp [Scene.rows, Scene.repeater_add, hrows] at hk

omit hrows in
theorem Scene.Motion.addRepeater (h : s.Motion store) : (s.addRepeater x).Motion store := by
  have hmoves (e : ComponentId) :
      ((s.addRepeater x).component e).transitions = (s.component e).transitions := by
    show ((s.modifyItem x.host _).component e).transitions = _
    rw [s.component_modifyItem]
  rw [motion_iff]
  simp only [hmoves, Scene.table_addRepeater]
  exact (motion_iff s store).1 h

include hc hn in
theorem Scene.Fallen.addRepeater (h : s.Fallen falling store)
    (hlive : (s.component x.host.component).destroyed = false) (hreleased : x.released = false)
    (hflag : store.IsProperty x.flag) (hfree : ∀ c node, x.flag ∉ (s.table c node).cells)
    (htracker : store.IsTracker x.tracker) (ht : s.Tree) :
    (s.addRepeater x).Fallen falling store := by
  have hlike := s.like_addRepeater x
  have hitem := Scene.item_addRepeater hc hn
  have hcallback {c : ComponentId} {cb : Callback} :
      (s.addRepeater x).HasCallback c cb ↔ s.HasCallback c cb := by
    simp only [Scene.HasCallback, hitem, (hlike c).callbacks]
  have hsize : (s.addRepeater x).repeaters.size = s.repeaters.size + 1 := Array.size_push ..
  rw [fallen_iff]
  simp only [fun e => (hlike e).destroyed, hcallback, Scene.table_addRepeater, Scene.rows_add hrows,
    Scene.repeater_add, hsize]
  refine ⟨fun {r} hr => ?_, fun {r} hr => ?_, fun {r} hr => ?_, h.cells, h.upright,
    fun {c} hd hf n r hr => ?_, h.handlers, h.signal, h.owned⟩
  · split
    · exact ⟨hflag, hfree⟩
    · rename_i hne
      exact h.flag (Nat.lt_of_le_of_ne (Nat.le_of_lt_succ hr) hne)
  · split
    · exact htracker
    · rename_i hne
      exact h.tracker (Nat.lt_of_le_of_ne (Nat.le_of_lt_succ hr) hne)
  · split at hr
    · rw [hreleased] at hr
      cases hr
    · rename_i hne
      rw [if_neg hne]
      exact h.ended hr
  · rw [hitem] at hr
    rcases List.mem_append.1 hr with hr | hr
    · rw [if_neg ((ht.placed hr).1.ne)]
      exact h.repeaters hd hf n r hr
    · split at hr
      · rename_i heq
        rw [← heq] at hlive
        rw [hlive] at hd
        cases hd
      · cases hr

include hc hn in
/-- A repeater without rows joins an item of an instance that has not ended. -/
theorem Living.addRepeater (h : Living falling giving store s)
    (hlive : (s.component x.host.component).destroyed = false) (hreleased : x.released = false)
    (hflag : store.IsProperty x.flag) (hfree : ∀ c node, x.flag ∉ (s.table c node).cells)
    (htracker : store.IsTracker x.tracker) (hsub : x.sub.Made) :
    Living falling giving store (s.addRepeater x) :=
  ⟨h.tree.addRepeater hc hn hsub, h.counts.addRepeater hrows, h.motion.addRepeater,
    h.fallen.addRepeater hc hn hrows hlive hreleased hflag hfree htracker h.tree⟩

omit hrows in
include hc hn in
theorem Scene.grows_addRepeater : s.Grows (s.addRepeater x) := by
  have hitem := Scene.item_addRepeater hc hn
  refine { Scene.Grows.refl s with
    components := Nat.le_of_eq Array.size_modify.symm,
    component := fun e _ => s.like_addRepeater x e, item := fun it _ => ?_,
    repeaters := by simp [addRepeater], repeater := fun r hr => ?_ }
  · rw [hitem]
    exact ⟨rfl, rfl, rfl, rfl⟩
  · rw [repeater_add, if_neg hr.ne]
    exact ⟨rfl, rfl, rfl, rfl, rfl, rfl⟩

end Repeaters

theorem Living.setHandler (h : Living falling giving store s) {cb : Callback}
    (hcb : s.HasCallback c cb) (hlive : (s.component c).destroyed = false)
    (handler : Option (Handler U)) :
    Living falling giving store (s.setHandler cb.signal handler) := by
  have hsignal (i : SignalId) (hi : i ≠ cb.signal) :
      (s.setHandler cb.signal handler).signal i = s.signal i := by
    show (s.signals.modify cb.signal _).getD i default = _
    rw [getD_modify, if_neg fun hx => hi hx.1]
    rfl
  refine ⟨{ h.tree with }, { h.counts with }, { h.motion with }, { h.fallen with
    handlers := fun {d} hd hf cb' hcb' => ?_
    signal := fun hcb' => ?_ }⟩
  · have hd : (s.component d).destroyed = true := hd
    rw [hsignal]
    · exact h.fallen.handlers hd hf cb' hcb'
    · intro heq
      rw [h.fallen.owned hcb' hcb heq, hlive] at hd
      cases hd
  · show _ < (s.signals.modify cb.signal _).size
    rw [Array.size_modify]
    exact h.fallen.signal hcb'

end Changes

theorem Living.pushWindow {falling : ComponentId → Prop} {giving : RepeaterId → Prop}
    (h : Living falling giving store s) :
    Living falling giving store { s with windows := s.windows.push {} } := by
  refine ⟨{ h.tree with }, { h.counts with pointer := fun {i it} hit => ?_ }, { h.motion with },
    { h.fallen with }⟩
  refine h.counts.pointer ?_
  have hwindow : Scene.windowAt { s with windows := s.windows.push {} } i = s.windowAt i := by
    show (s.windows.push {}).getD i default = s.windows.getD i default
    rw [getD_push]
    split
    · rename_i hi
      rw [getD_of_size_le (Nat.le_of_eq hi.symm)]
      rfl
    · rfl
  rw [← hwindow]
  exact hit

theorem place_of_nodup_flatMap {β γ : Type} {xs : List β} {f : β → List γ}
    (h : (xs.flatMap f).Nodup) {n m : Nat} {x y : β} (hx : xs[n]? = some x) (hy : xs[m]? = some y)
    {i j : Nat} {z : γ} (hi : (f x)[i]? = some z) (hj : (f y)[j]? = some z) : n = m ∧ i = j := by
  obtain ⟨hnodup, hapart⟩ := List.nodup_flatMap.1 h
  obtain ⟨hn, rfl⟩ := List.getElem?_eq_some_iff.1 hx
  obtain ⟨hm, rfl⟩ := List.getElem?_eq_some_iff.1 hy
  have hapart := List.pairwise_iff_getElem.1 hapart
  rcases Nat.lt_trichotomy n m with hlt | rfl | hlt
  · exact absurd (List.mem_of_getElem? hj) (hapart n m hn hm hlt (List.mem_of_getElem? hi))
  · refine ⟨rfl, ?_⟩
    obtain ⟨hil, hiz⟩ := List.getElem?_eq_some_iff.1 hi
    obtain ⟨hjl, hjz⟩ := List.getElem?_eq_some_iff.1 hj
    exact (hnodup _ (List.getElem_mem hn)).getElem_inj_iff.1 (hiz.trans hjz.symm)
  · exact absurd (List.mem_of_getElem? hi) (hapart m n hm hn hlt (List.mem_of_getElem? hj))

section Built

variable (hx : x.items = items.toArray)
include hx

theorem getD_items (n : Nat) :
    x.items.getD n default = (items[n]?).getD default := by
  simp [hx, Array.getD_eq_getD_getElem?]

theorem exists_of_tableOf {n i : Nat} {y : CellId}
    (h : (x.tableOf (some n)).cells[i]? = some y) :
    ∃ it, items[n]? = some it ∧ it.table.cells[i]? = some y := by
  have h : (x.items.getD n default).table.cells[i]? = some y := h
  rw [getD_items hx] at h
  cases hit : items[n]? with
  | some it =>
    rw [hit] at h
    exact ⟨it, rfl, h⟩
  | none =>
    rw [hit] at h
    cases h

theorem mem_of_tableOf {node : Option Nat} {y : CellId} (hy : y ∈ (x.tableOf node).cells) :
    y ∈ items.flatMap (·.table.cells) ++ x.scope.cells := by
  cases node with
  | none => exact List.mem_append_right _ hy
  | some n =>
    obtain ⟨i, hi⟩ := List.getElem?_of_mem hy
    obtain ⟨it, hit, hy⟩ := exists_of_tableOf hx hi
    exact List.mem_append_left _
      (List.mem_flatMap.2 ⟨it, List.mem_of_getElem? hit, List.mem_of_getElem? hy⟩)

theorem place_of_built (hcells : (items.flatMap (·.table.cells) ++ x.scope.cells).Nodup)
    {node mode : Option Nat} {i j : Nat} {y : CellId} (hi : (x.tableOf node).cells[i]? = some y)
    (hj : (x.tableOf mode).cells[j]? = some y) : node = mode ∧ i = j := by
  obtain ⟨hitemCells, hscopeCells, hapart⟩ := List.nodup_append.1 hcells
  have hcross {n i j : Nat} {y : CellId} (h : (x.tableOf (some n)).cells[i]? = some y)
      (h' : x.scope.cells[j]? = some y) : False := by
    obtain ⟨it, hit, hy⟩ := exists_of_tableOf hx h
    exact hapart y (List.mem_flatMap.2 ⟨it, List.mem_of_getElem? hit, List.mem_of_getElem? hy⟩) y
      (List.mem_of_getElem? h') rfl
  cases node with
  | none =>
    cases mode with
    | none =>
      obtain ⟨hil, hiy⟩ := List.getElem?_eq_some_iff.1 hi
      obtain ⟨hjl, hjy⟩ := List.getElem?_eq_some_iff.1 hj
      exact ⟨rfl, hscopeCells.getElem_inj_iff.1 (hiy.trans hjy.symm)⟩
    | some m => exact (hcross hj hi).elim
  | some n =>
    cases mode with
    | none => exact (hcross hi hj).elim
    | some m =>
      obtain ⟨it, hit, hy⟩ := exists_of_tableOf hx hi
      obtain ⟨it', hit', hy'⟩ := exists_of_tableOf hx hj
      obtain ⟨rfl, hij⟩ := place_of_nodup_flatMap hitemCells hit hit' hy hy'
      exact ⟨rfl, hij⟩

variable (hitems : List.Forall₂ Item.Bare d.nodes items)
include hitems

theorem item_of_built (n : Nat) :
    (∃ node it, d.nodes[n]? = some node ∧ it ∈ items ∧ x.items.getD n default = it ∧
      it.Bare node) ∨ d.nodes[n]? = none ∧ x.items.getD n default = default := by
  rw [getD_items hx]
  rcases Nat.lt_or_ge n items.length with hlt | hge
  · have hnode := List.getElem?_eq_getElem (hitems.length_eq ▸ hlt : n < d.nodes.length)
    have hit := List.getElem?_eq_getElem hlt
    exact .inl ⟨_, _, hnode, List.getElem_mem
      hlt, by rw [hit]; rfl, rel_of_forall₂ hitems hnode hit⟩
  · rw [List.getElem?_eq_none hge]
    exact .inr ⟨List.getElem?_eq_none (hitems.length_eq ▸ hge), rfl⟩

/-- A new item has no repeater and no transition. -/
theorem plain_of_built (n : Nat) :
    let it := x.items.getD n default
    it.repeaters = [] ∧ it.table.transitions = [] ∧
      it.table.cells.length = it.table.decls.length := by
  rcases item_of_built hx hitems n with ⟨_, it, -, -, heq, hbare⟩ | ⟨-, hnone⟩
  · dsimp only
    rw [heq]
    exact ⟨hbare.repeaters, hbare.transitions, hbare.lengths⟩
  · dsimp only
    rw [hnone]
    exact ⟨rfl, rfl, rfl⟩

/-- The items form the tree of the definition. -/
theorem tree_of_built {row : Definition U → Prop} (hd : d.Consistent row) (n : Nat) :
    (∀ m, (x.items.getD n default).parent = some m → m < n) ∧
      (x.items.getD n default).children.Nodup ∧
      ∀ k ∈ (x.items.getD n default).children, (x.items.getD k default).parent = some n := by
  rcases item_of_built hx hitems n with ⟨node, it, hnode, -, heq, hbare⟩ | ⟨-, hnone⟩
  · rw [heq, hbare.parent, hbare.children]
    refine ⟨hd.parents n node hnode, (hd.children n node hnode).nodup, fun k hk => ?_⟩
    obtain ⟨-, child, hchild, hparent⟩ := (hd.children n node hnode).parent k hk
    rcases item_of_built hx hitems k with ⟨node', it', hnode', -, heq', hbare'⟩ | ⟨hnone, -⟩
    · rw [heq', hbare'.parent]
      rw [hchild] at hnode'
      cases hnode'
      exact hparent
    · cases hchild.symm.trans hnone
  · rw [hnone]
    exact ⟨nofun, .nil, nofun⟩

/-- What is built from the nodes of a consistent definition is an instance. -/
theorem newborn_of_built {store0 : Store (Code U)} {s0 : Scene U X} (hs : Sound store0 s0)
    (hsignals : s0.MoreSignals s) {row : Definition U → Prop} (hd : d.Consistent row)
    (hscope : x.scope.cells.length = x.scope.decls.length) (hstill : x.scope.transitions = [])
    (hcells : NewCells store0.cells.size store (items.flatMap (·.table.cells) ++ x.scope.cells))
    (hcallbacks : SignalsSince s0.signals.size s x.callbacks)
    (hitemCallbacks : ∀ it ∈ items, SignalsSince s0.signals.size s it.callbacks)
    (houter : x.outer = x.host.map (·.component))
    (hhost : ∀ it, x.host = some it → it.component < s0.components.size)
    (hwindow : ∀ o, x.outer = some o → x.window = (s0.component o).window) (hrefs : x.refs = 0)
    (halive : x.destroyed = false) (htransitions : x.transitions = []) :
    Component.Newborn store s x := by
  have hcomponents : s.components = s0.components := by
    rw [hsignals.only]
  have htable (c : ComponentId) (node : Option Nat) : s.table c node = s0.table c node := by
    rw [hsignals.only]
    rfl
  have hnew {node : Option Nat} {y : CellId} (hy : y ∈ (x.tableOf node).cells) :
      y ∈ items.flatMap (·.table.cells) ++ x.scope.cells := mem_of_tableOf hx hy
  have hsince {c : ComponentId} {cb : Callback} (h : s.HasCallback c cb) :
      cb.signal < s0.signals.size := by
    refine hs.fallen.signal (c := c) ?_
    unfold Scene.HasCallback Scene.item Scene.component at h ⊢
    rwa [hcomponents] at h
  constructor
  case outer => exact houter
  case host =>
    intro it hit
    rw [hcomponents]
    exact hhost it hit
  case window =>
    intro o ho
    rw [Scene.component, hcomponents]
    exact hwindow o ho
  case refs => exact hrefs
  case destroyed => exact halive
  case transitions => exact htransitions
  case parent => exact fun {n} => (tree_of_built hx hitems hd n).1 _
  case child => exact fun {n} => (tree_of_built hx hitems hd n).2.2 _
  case children => exact fun n => (tree_of_built hx hitems hd n).2.1
  case alive => exact fun node y hy => hcells.alive y (hnew hy)
  case repeaters => exact fun n => (plain_of_built hx hitems n).1
  case still =>
    intro node
    cases node with
    | none => exact hstill
    | some n => exact (plain_of_built hx hitems n).2.1
  case lengths =>
    intro node
    cases node with
    | none => exact hscope
    | some n => exact (plain_of_built hx hitems n).2.2
  case place => exact place_of_built hx hcells.nodup
  case cells =>
    intro node y hy
    refine ⟨hcells.property y (hnew hy), fun c mode hold => ?_⟩
    rw [htable] at hold
    exact (hcells.since y (hnew hy)).not_gt (hs.motion.cells hold).1
  case flags =>
    intro node r hr hy
    rw [hsignals.only] at hr hy
    exact (hcells.since _ (hnew hy)).not_gt (hs.fallen.flag hr).1.1
  case callbacks =>
    intro cb hcb
    have hown : s0.signals.size ≤ cb.signal ∧ cb.signal < s.signals.size := by
      rcases hcb with hcb | ⟨n, hcb⟩
      · exact hcallbacks cb hcb
      · rcases item_of_built hx hitems n with ⟨_, it, -, hit, heq, -⟩ | ⟨-, hnone⟩
        · rw [heq] at hcb
          exact hitemCallbacks it hit cb hcb
        · rw [hnone] at hcb
          cases hcb
    exact ⟨hown.2, fun c cb' hcb' => (Nat.lt_of_lt_of_le (hsince hcb') hown.1).ne⟩

end Built

/-! ## Programs -/

section

variable {α β : Type} {w : SceneTale U X}

theorem Act.tell_bind_assoc {S : Type} {K : Type → Type} {α β γ : Type}
    {nested : Nested (S × Chronicle K) K} {w : Tale S K} (x : Act S K α) (f : α → Act S K β)
    (g : β → Act S K γ) :
    ((x >>= f) >>= g).tell nested w = (x >>= fun a => f a >>= g).tell nested w := by
  cases hx : x.tell nested w with
  | ok a u =>
    rw [Act.tell_bind_of_ok hx]
    cases hf : (f a).tell nested u with
    | ok b v =>
      rw [Act.tell_bind_of_ok hf]
      exact Act.tell_bind_of_ok ((Act.tell_bind_of_ok hx).trans hf)
    | error stop v =>
      rw [Act.tell_bind_of_error hf]
      exact Act.tell_bind_of_error ((Act.tell_bind_of_ok hx).trans hf)
  | error stop u =>
    rw [Act.tell_bind_of_error hx]
    exact Act.tell_bind_of_error (Act.tell_bind_of_error hx)

/-! ### The two halves of a build -/

section

variable {nested : SceneNested U X}

theorem Act.tell_bind_congr {x : SceneM U X β} {f f' : β → SceneM U X α}
    (h : ∀ b u, (f b).tell nested u = (f' b).tell nested u) :
    (x >>= f).tell nested w = (x >>= f').tell nested w := by
  cases hx : x.tell nested w with
  | ok b u => rw [Act.tell_bind_of_ok hx, Act.tell_bind_of_ok hx, h]
  | error stop u => rw [Act.tell_bind_of_error hx, Act.tell_bind_of_error hx]

/-- The window for an instance: that of the one around it, or a new one. -/
def Scene.lodge (outer : Option ComponentId) (s : Scene U X) : WindowId × Scene U X :=
  match outer with
  | some o => ((s.component o).window, s)
  | none => (s.windows.size, { s with windows := s.windows.push {} })

/-- The first half of a build: the instance, with nothing attached to it. -/
def Component.found (d : Definition U) (host : Option ItemRef) (source : Option Nat) :
    SceneM U X ComponentId := do
  let outer := host.map (·.component)
  let window ← .host (Scene.lodge outer)
  let items ← d.nodes.mapM (Component.buildItem d.name)
  let scope ← Component.buildTable d.name d.declared
  let callbacks ← d.callbacks.mapM Callback.create
  .host fun s =>
    (s.components.size,
      { s with
        components := s.components.push
          { definition := d, source, items := items.toArray, scope, callbacks, outer, host,
            window } })

/-- The second half: what its definition sets, animates, links, binds, handles and repeats. -/
def Component.attach (d : Definition U) (c : ComponentId) : SceneM U X ComponentId := do
  d.sets.forM fun x => do
    let spot ← Component.spotOf c x.node x.prop
    .set (← Act.ask fun s => s.cellAt spot) x.v
  d.anims.forM fun x => do
    Component.animate (← Component.spotOf c x.node x.prop) x.spec
  d.links.forM fun l => do
    let a ← Component.spotOf c l.node l.prop
    let b ← Component.spotOf c l.other l.otherProp
    let (a, b) ← Act.ask fun s => (s.cellAt a, s.cellAt b)
    discard <| Act.link a b
  let animated ← Component.attachBindings c d.binds
  animated.forM fun (a, code) => Transition.setBinding a code
  d.handlers.forM (Component.attachHandler c)
  d.repeats.forM fun (n, sub, model) => Component.addRepeater ⟨c, n⟩ sub model
  return c

theorem Component.tell_build (d : Definition U) (host : Option ItemRef) (source : Option Nat) :
    (Component.build d host source).tell nested w =
      (Component.found d host source >>= Component.attach d).tell nested w := by
  symm
  unfold Component.found
  rw [Act.tell_bind_assoc]
  refine Act.tell_bind_congr fun window u => ?_
  rw [Act.tell_bind_assoc]
  refine Act.tell_bind_congr fun items u => ?_
  rw [Act.tell_bind_assoc]
  refine Act.tell_bind_congr fun scope u => ?_
  rw [Act.tell_bind_assoc]
  rfl

end

/-- Runs that build and release nothing. -/
abbrev building {U X : Type} : Regime (Scene U X) (Code U) Unit := living Grows

variable {nested : SceneNested U X} {Q : Unit → SceneTale U X → α → Prop}

theorem living_lasting {le : WorldOrder U X} [hle : Onward le] {act : SceneM U X α}
    (h : lasting.Runs nested () w act Q) : (living le).Runs nested () w act Q :=
  living_mono hle.stays h

/-- A program that begins with one that releases and builds nothing. -/
theorem living_then {le : WorldOrder U X} [hle : Onward le] {x : SceneM U X β}
    {f : β → SceneM U X α} {P : Unit → SceneTale U X → β → Prop}
    (hx : lasting.Runs nested () w x P)
    (hf : ∀ w' b, Stays w.store w.host.1 w'.store w'.host.1 → w'.Sound →
      P () w' b → (living le).Runs nested () w' (f b) Q) :
    (living le).Runs nested () w (x >>= f) Q := by
  have hx' : lasting.Goes () w P (x.tell nested w) := hx
  show (living le).Goes () w Q ((x >>= f).tell nested w)
  cases hr : x.tell nested w with
  | ok b w' =>
    rw [hr] at hx'
    obtain ⟨_, hstays, hw', hp⟩ := hx'
    rw [Act.tell_bind_of_ok hr]
    exact living_ok.after (hle.stays hstays) (hf w' b hstays hw' hp)
  | error stop w' =>
    rw [hr] at hx'
    obtain ⟨g, hstays, hw'⟩ := hx'.2 trivial
    rw [Act.tell_bind_of_error hr]
    exact ⟨hx'.1, fun _ => ⟨g, hle.stays hstays, hw'⟩⟩

theorem lasting_idle {act : SceneM U X α} (h : Act.Composed (fun _ _ => False) act)
    (hw : w.Sound) : lasting.Keeps nested () w act :=
  .composed (fun _ => trivial) nofun h hw

/-- A change of models, of their peers and of what user code keeps. -/
def Act.AsideOnly (act : SceneM U X α) : Prop :=
  ∃ f : Scene U X → α × Scene U X, act = .host f ∧
    ∀ s, ∃ vectors peers user, (f s).2 = { s with vectors, peers, user }

theorem lasting_asideOnly {act : SceneM U X α} (h : act.AsideOnly) (hw : w.Sound) :
    lasting.Keeps nested () w act := by
  obtain ⟨f, rfl, hf⟩ := h
  obtain ⟨vectors, peers, user, heq⟩ := hf w.host.1
  refine .host hw fun _ => ⟨(), Stays.change _ ?_, ?_, trivial⟩
  · rw [heq]
    exact Scene.stays_aside ..
  · rw [heq]
    exact hw.aside _ vectors peers user

/-- A new instance of `d` that is being fitted out: it has not ended, and its cells are alive. -/
structure Standing (d : Definition U) (store : Store (Code U)) (s : Scene U X) (c : ComponentId) :
    Prop where
  lt : c < s.components.size
  alive : (s.component c).destroyed = false
  items : (s.component c).items.size = d.nodes.length
  cells : ∀ node, ∀ x ∈ (s.table c node).cells, (store.cell x).dropped = false

theorem Standing.grows {store' : Store (Code U)} {t : Scene U X}
    (h : Standing d store s c) (hs : Sound store s)
    (hle : Grows store s store' t) : Standing d store' t c := by
  have hlike := hle.scene.component c h.lt
  refine ⟨h.lt.trans_le hle.scene.components, hlike.destroyed.trans h.alive,
    hlike.items.trans h.items, fun node x hx => ?_⟩
  rw [hle.scene.table h.lt] at hx
  exact hle.alive (hs.motion.cells hx) (h.cells node x hx)

def MovesIn (s : Scene U X) (c : ComponentId) (a : TransitionId) : Prop :=
  a < s.transitions.size ∧ ∃ node, (s.transition a).cell ∈ (s.table c node).cells

theorem MovesIn.grows {t : Scene U X} {a : TransitionId} (h : MovesIn s c a)
    (hc : c < s.components.size) (hle : s.Grows t) : MovesIn t c a := by
  obtain ⟨ha, node, hx⟩ := h
  refine ⟨ha.trans_le hle.transitions, node, ?_⟩
  rw [hle.table hc, hle.transition a ha]
  exact hx

theorem Standing.afoot {a : TransitionId} (h : Standing d store s c) (ha : MovesIn s c a) :
    Afoot store s a := by
  obtain ⟨ha, node, hx⟩ := ha
  exact ⟨ha, h.cells node _ hx⟩

theorem lasting_spotOf (hw : w.Sound) (c : ComponentId) (node : Option Nat)
    (prop : String) : lasting.Runs nested () w (Component.spotOf c node prop) fun _ w' spot =>
      spot.component = c ∧ spot.node = node ∧ w'.host.1 = w.host.1 ∧ w'.store = w.store ∧
        spot.slot < (w.host.1.table c node).cells.length := by
  refine .ask hw fun hn => ?_
  dsimp only [Table.slot?]
  cases hslot : PropDecl.index? (w.host.1.table c node).decls prop with
  | none => exact .ask hn fun hn => .panic hn trivial
  | some slot =>
    obtain ⟨decl, hdecl, -⟩ := name_of_index? hslot
    refine .ret hn ⟨rfl, rfl, rfl, rfl, ?_⟩
    rw [hw.motion.lengths]
    exact (List.getElem?_eq_some_iff.1 hdecl).1

section Nested

variable (hN : lasting.Obeys nested)
include hN

section

variable (hw : w.Sound)
include hw

theorem building_animate {spot : Spot}
    (hin : spot.slot < (w.host.1.table spot.component spot.node).cells.length) (spec : Spec) :
    building.Keeps nested () w (Component.animate spot spec) := by
  refine .ask hw fun hn => .ask hn fun hn => ?_
  split
  · rename_i hnone
    -- reading the cell may run code, and after it the transition is entered at once
    show building.Goes () _ _ (Act.tell nested ((_ >>= _) >>= _) _)
    rw [Act.tell_bind_assoc]
    refine living_then (lasting_peek hN hn _) fun w1 target hle1 hw1 _ => ?_
    have htable : w1.host.1.table spot.component spot.node =
        w.host.1.table spot.component spot.node := hle1.scene.table ..
    have hcell : w.host.1.cellAt spot = w1.host.1.cellAt spot := by
      rw [Scene.cellAt, Scene.cellAt, htable]
    have hnone : (w.host.1.table spot.component spot.node).transition? spot.slot = none :=
      Option.isNone_iff_eq_none.1 hnone
    rw [← htable] at hin hnone
    set x : Transition U :=
      { cell := w.host.1.cellAt spot, spec, interpolate := Lerp.value, target } with hx
    set s1 : Scene U X := { w1.host.1 with transitions := w1.host.1.transitions.push x } with hs1
    refine Act.Completes.runs (Q := fun w2 _ => w2.store = w1.store ∧
      w2.host.1 = s1.addMotion spot x.cell w1.host.1.transitions.size)
      (.bind (Act.completes_host (Q := fun w2 a => a = w1.host.1.transitions.size ∧
        w2.store = w1.store ∧ w2.host.1 = s1) ⟨rfl, rfl, rfl⟩) fun w2 a h => ?_) fun w2 _ h => ?_
    · obtain ⟨rfl, hstore, hhost⟩ := h
      refine Act.completes_change ⟨hstore, ?_⟩
      show Scene.addMotion w2.host.1 _ _ _ = _
      rw [hhost]
    · obtain ⟨hstore, hhost⟩ := h
      have hsound := hw1.animate hin hnone (x := x) hcell rfl rfl
      refine ⟨(), ⟨?_, ?_, ?_⟩, ?_, trivial⟩
      · rw [hstore]
        exact .refl _
      · rw [hstore]
        exact fun _ h => h
      · rw [hhost]
        exact Scene.grows_addMotion ..
      · show Sound w2.store w2.host.1
        rw [hstore, hhost]
        exact hsound
  · exact .ret hn trivial

theorem building_animateSpot (c : ComponentId) (node : Option Nat)
    (prop : String) (spec : Spec) :
    building.Keeps nested () w (do Component.animate (← Component.spotOf c node prop) spec) := by
  refine living_then (lasting_spotOf hw c node prop) fun w1 spot _ hw1 h => ?_
  obtain ⟨rfl, rfl, hhost, -, hin⟩ := h
  exact building_animate hN hw1 (by rw [hhost]; exact hin) spec

theorem lasting_setSpot (c : ComponentId) (node : Option Nat)
    (prop : String) (v : Value) : lasting.Keeps nested () w (do
      let spot ← Component.spotOf c node prop
      .set (← Act.ask fun s => s.cellAt spot) v) :=
  .seq (lasting_spotOf hw c node prop) fun _ _ _ _ hw1 _ =>
    .ask hw1 fun hn => lasting_set hN hn _ v

theorem lasting_linkSpots (c : ComponentId) (node other : Option Nat)
    (prop otherProp : String) : lasting.Keeps nested () w (do
      let a ← Component.spotOf c node prop
      let b ← Component.spotOf c other otherProp
      let (a, b) ← Act.ask fun s => (s.cellAt a, s.cellAt b)
      discard <| Act.link a b) := by
  refine .seq (lasting_spotOf hw c node prop) fun _ w1 a _ hw1 _ => ?_
  refine .seq (lasting_spotOf hw1 c other otherProp) fun _ w2 b _ hw2 _ => ?_
  refine .ask hw2 fun hn => ?_
  exact .seq_ret (lasting_link hN hn ..)

/-- The animated bindings that are left over move cells of the instance. -/
theorem lasting_attachBindings
    (hc : c < w.host.1.components.size) (binds : List (BindDef U)) :
    lasting.Runs nested () w (Component.attachBindings c binds) fun _ w' animated =>
      ∀ x ∈ animated, MovesIn w'.host.1 c x.1 := by
  induction binds generalizing w with
  | nil => exact .ret hw nofun
  | cons b rest ih =>
    refine .seq (lasting_spotOf hw c b.node b.prop) fun _ w1 spot _ hw1 h => ?_
    obtain ⟨rfl, -, hhost, -, -⟩ := h
    rw [← hhost] at hc
    refine .ask hw1 fun hn => .view_then hn fun hn => ?_
    refine .seq (lasting_idle (.tieBinding spot.component b.template) hn)
      fun _ w2 code hle2 hw2 _ => ?_
    have hc2 : spot.component < w2.host.1.components.size :=
      hc.trans_le hle2.scene.grows.components
    split
    · rename_i a ha
      refine .seq (ih hw2 hc2) fun _ w3 animated hle3 hw3 h3 => ?_
      refine .ret hw3 (List.forall_mem_cons.2 ⟨?_, h3⟩)
      obtain ⟨hlt, hcell⟩ := hw1.motion.entry ha
      exact MovesIn.grows ⟨hlt, spot.node, List.mem_of_getElem? hcell⟩ hc
        (hle2.scene.trans hle3.scene).grows
    · refine .seq (lasting_setBinding hN hw2 ..) fun _ w3 _ hle3 hw3 _ => ?_
      exact ih hw3 (hc2.trans_le hle3.scene.grows.components)

omit hN in
theorem lasting_attachHandler
    (hlive : (w.host.1.component c).destroyed = false) (h : HandlerDef U) :
    lasting.Keeps nested () w (Component.attachHandler c h) := by
  refine .ask hw fun hn => ?_
  refine .seq (lasting_idle (.tieHandler c h.template) hn)
    fun _ w1 handler hle1 hw1 _ => ?_
  have hle1 : Stays w.store w.host.1 w1.store w1.host.1 := hle1
  have hcomponent : w1.host.1.component c = w.host.1.component c := by
    rw [Scene.component, Scene.component, hle1.scene.components]
  have hitem (n : Nat) : w1.host.1.item ⟨c, n⟩ = w.host.1.item ⟨c, n⟩ := by
    rw [Scene.item, Scene.item, hcomponent]
  split
  · rename_i cb hcb
    have hmem := List.mem_of_find?_eq_some hcb
    have hhas : w1.host.1.HasCallback c cb := by
      cases hnode : h.node with
      | none =>
        rw [hnode] at hmem
        exact .inl (by rw [hcomponent]; exact hmem)
      | some n =>
        rw [hnode] at hmem
        exact .inr ⟨n, by rw [hitem]; exact hmem⟩
    refine lasting_change hw1 (hw1.setHandler hhas (by rw [hcomponent]; exact hlive) handler) ?_
    exact Scene.stays_aside ..
  · exact .panic hw1 trivial

omit hN in
theorem building_addRepeater
    (hc : Standing d w.store w.host.1 c) {n : Nat} (hin : n < d.nodes.length) {sub : Definition U}
    (hsub : sub.Made) (model : Option (ModelTemplate U)) :
    building.Keeps nested () w (Component.addRepeater ⟨c, n⟩ sub model) := by
  refine .ask hw fun hn => ?_
  extract_lets add
  have hadd : ∀ {w1 : SceneTale U X} expression, w1.Sound →
      Standing d w1.store w1.host.1 c →
      building.Keeps nested () w1 (add expression) := by
    intro w1 expression hw1 hc1
    refine .ask hw1 fun hn => ?_
    refine Act.Completes.runs (Q := fun w2 _ => w2.Sound ∧
      Grows w1.store w1.host.1 w2.store w2.host.1) ?_ fun w2 _ h => ⟨(), h.2, h.1, trivial⟩
    refine .bind (Act.completes_new (Q := fun w2 flag => flag = w1.store.cells.size ∧
      Placid w1.store w2.store ∧ w2.store.IsProperty flag ∧ w2.host.1 = w1.host.1)
      ⟨rfl, .add .., ?_, rfl⟩) fun w2 flag h => ?_
    · exact (newCells_add ..).property _ (List.mem_singleton_self _)
    obtain ⟨rfl, hplacid2, hflag, hhost2⟩ := h
    refine .bind (Act.completes_newTracker (Q := fun w3 tracker => Placid w2.store w3.store ∧
      w3.store.IsTracker tracker ∧ w3.host.1 = w2.host.1)
      ⟨(Placid.add ..).trans (.observe _ _ fun _ => nofun), ?_, rfl⟩) fun w3 tracker h => ?_
    · exact isTracker_newTracker ..
    obtain ⟨hplacid3, htracker, hhost3⟩ := h
    have hplacid := hplacid2.trans hplacid3
    have hhost := hhost3.trans hhost2
    have hin1 : n < (w1.host.1.component c).items.size := by
      rw [hc1.items]
      exact hin
    refine Act.completes_change ?_
    rw [show w1.host.1.repeaters.size = w3.host.1.repeaters.size by rw [hhost]]
    rw [hhost]
    refine ⟨(hw1.placid hplacid).addRepeater hc1.lt hin1 rfl hc1.alive rfl
      (hflag.kept hplacid3.kept) (fun e node hy => ?_) htracker hsub,
      (Stays.placid hplacid _).grows.and_then
        ⟨.refl _, fun _ h => h, Scene.grows_addRepeater hc1.lt hin1⟩⟩
    exact Nat.lt_irrefl _ (hw1.motion.cells hy).1
  have hlater : ∀ {w1 : SceneTale U X}, Stays w.store w.host.1 w1.store w1.host.1 →
      Standing d w1.store w1.host.1 c := fun hle => hc.grows hw hle.grows
  cases model with
  | none => exact .pure_then hn fun hn => hadd none hn hc
  | some template =>
    have htie : lasting.Keeps nested () w.beat (Component.tieModel c template) :=
      .composed (fun _ => trivial) lasting_asideOnly
        (.tieModel (fun vs => ⟨_, rfl, fun s => ⟨_, s.peers, s.user, rfl⟩⟩) c template) hn
    exact living_then (P := fun _ _ _ => True) (.seq htie
      fun _ _ _ _ hw' _ => .ret hw' trivial)
      fun _ expression hle hw' _ => hadd _ hw' (hlater hle)

end

variable {host : Option ItemRef}

omit hN in
theorem building_found (hw : w.Sound) (hmade : d.Made)
    (hhost : ∀ it, host = some it → it.component < w.host.1.components.size) (source : Option Nat) :
    building.Runs nested () w (Component.found d host source) fun _ w' c =>
      (Standing d w'.store w'.host.1 c ∧ (w'.host.1.component c).host = host) ∧
        w.host.1.components.size ≤ c := by
  -- the window: that of the outer instance, or a new one
  refine .seq (P := fun _ w1 window =>
    w1.host.1.components = w.host.1.components ∧
      ∀ o, host.map (·.component) = some o → window = (w1.host.1.component o).window)
    (.host hw fun _ => ?_) fun _ w1 window hle1 hw1 h1 => ?_
  · cases hout : host.map (·.component) with
    | none =>
      exact ⟨(), (Stays.change _ (Scene.stays_aside ..)).grows, Living.pushWindow
        hw, rfl, nofun⟩
    | some o =>
      refine ⟨(), living_ok.refl () _, hw, rfl, fun o' ho => ?_⟩
      cases ho
      rfl
  obtain ⟨hcomponents, hwindow⟩ := h1
  refine .seq ((buildItems_completes d.name d.nodes).keeps fun w2 items h =>
    ⟨⟨h.2.2.1.kept, h.2.2.1.alive, h.2.2.2.2.stays.grows⟩,
      h.2.2.2.2.living (hw1.placid h.2.2.1)⟩) fun _ w2 items _ hw2 hitems => ?_
  obtain ⟨hbare, hcells2, hplacid2, hsignals2, hmore2⟩ := hitems
  refine .seq ((buildTable_completes d.name d.declared).keeps fun w3 t h => by
    obtain ⟨-, -, -, -, hplacid, hhost⟩ := h
    refine ⟨⟨hplacid.kept, hplacid.alive, ?_⟩, ?_⟩
    · rw [hhost]
      exact .refl _
    · show Sound w3.store w3.host.1
      rw [hhost]
      exact hw2.placid hplacid) fun _ w3 scope _ hw3 hscope => ?_
  obtain ⟨hdecls, hlength, hstill, hcells3, hplacid3, hhost3⟩ := hscope
  refine .seq ((createCallbacks_completes d.callbacks).keeps fun w4 cbs h => by
    obtain ⟨-, -, hstore, hmore⟩ := h
    refine ⟨⟨?_, ?_, hmore.stays.grows⟩, ?_⟩
    · rw [hstore]
      exact .refl _
    · rw [hstore]
      exact fun _ h => h
    · show Sound w4.store w4.host.1
      rw [hstore]
      exact hmore.living hw3) fun _ w4 callbacks _ hw4 hcallbacks => ?_
  obtain ⟨-, hsignals4, hstore4, hmore4⟩ := hcallbacks
  have hmore : w1.host.1.MoreSignals w4.host.1 := hmore2.trans (hhost3 ▸ hmore4)
  have hcells : NewCells w1.store.cells.size w4.store
      (items.flatMap (·.table.cells) ++ scope.cells) := by
    rw [hstore4]
    exact hcells2.append hcells3 hplacid3 hplacid2.kept.size
  set x : Component U :=
    { definition := d, source, items := items.toArray, scope, callbacks,
      outer := host.map (·.component), host, window } with hx
  have hnewborn : x.Newborn w4.store w4.host.1 := by
    refine newborn_of_built rfl hbare hw1 hmore hmade.consistent
      (hlength.trans (congrArg _ hdecls.symm)) hstill hcells (fun cb hcb => ?_)
      (fun it hit cb hcb => ?_) rfl (fun it hit => ?_) hwindow rfl rfl rfl
    · obtain ⟨hsince, hlt⟩ := hsignals4 cb hcb
      exact ⟨hmore2.size.trans (hhost3 ▸ hsince), hlt⟩
    · exact (hsignals2 it hit).more (hhost3 ▸ hmore4) cb hcb
    · rw [hcomponents]
      exact hhost it hit
  have hpushed : Sound w4.store (w4.host.1.pushComponent x) := hw4.push hnewborn
  have hlast : (w4.host.1.pushComponent x).component w4.host.1.components.size = x := by
    rw [Scene.component_push, if_pos rfl]
  refine .host hw4 fun _ => ⟨(), ⟨.refl _, fun _ h => h, w4.host.1.grows_push x⟩, hw4.push hnewborn,
    ⟨⟨?_, congrArg Component.destroyed hlast, ?_, fun node y hy => ?_⟩,
      congrArg Component.host hlast⟩, ?_⟩
  · exact Nat.lt_of_lt_of_eq (Nat.lt_succ_self _) (Array.size_push ..).symm
  · show ((w4.host.1.pushComponent x).component _).items.size = _
    rw [hlast]
    simp [hx, hbare.length_eq]
  · have hy : y ∈ ((w4.host.1.pushComponent x).table w4.host.1.components.size node).cells := hy
    rw [Scene.table_push, if_pos rfl] at hy
    exact hcells.alive y (mem_of_tableOf rfl hy)
  · rw [← hcomponents]
    exact hmore.stays.grows.components

theorem building_attach (hw : w.Sound) (hmade : d.Made)
    (h : Standing d w.store w.host.1 c ∧ (w.host.1.component c).host = host) :
    building.Runs nested () w (Component.attach d c) fun _ w' c' =>
      c' = c ∧ Standing d w'.store w'.host.1 c ∧ (w'.host.1.component c).host = host := by
  have hd := hmade.consistent
  have hkeep : ∀ {u v : SceneTale U X}, u.Sound →
      Grows u.store u.host.1 v.store v.host.1 →
      Standing d u.store u.host.1 c ∧ (u.host.1.component c).host = host →
      Standing d v.store v.host.1 c ∧ (v.host.1.component c).host = host := fun hu hle h =>
    ⟨h.1.grows hu hle, (hle.scene.component c h.1.lt).host.trans h.2⟩
  refine .seq (.forM hw fun y _ _ w' _ hw' =>
    living_lasting (lasting_setSpot hN hw' c y.node y.prop y.v))
    fun _ w1 _ hle1 hw1 _ => ?_
  have h1 := hkeep hw hle1 h
  refine .seq (.forM hw1 fun y _ _ w' _ hw' =>
    building_animateSpot hN hw' c y.node y.prop y.spec) fun _ w2 _ hle2 hw2 _ => ?_
  have h2 := hkeep hw1 hle2 h1
  refine .seq (.forM hw2 fun l _ _ w' _ hw' =>
    living_lasting (lasting_linkSpots hN hw' c l.node l.other l.prop l.otherProp))
    fun _ w3 _ hle3 hw3 _ => ?_
  have h3 := hkeep hw2 hle3 h2
  refine living_then (lasting_attachBindings hN hw3 h3.1.lt d.binds)
    fun w4 animated hle4 hw4 hmoves => ?_
  have h4 := hkeep hw3 hle4.grows h3
  refine .seq (.forM hw4 fun y hy _ w' hle hw' => ?_) fun _ w5 _ hle5 hw5 _ => ?_
  · have hmove := (hmoves y hy).grows h4.1.lt hle.scene
    exact living_lasting (lasting_setTransitionBinding hN hw'
      ((hkeep hw4 hle h4).1.afoot hmove) y.2)
  have h5 := hkeep hw4 hle5 h4
  refine .seq (.forM hw5 fun y _ _ w' hle hw' =>
    living_lasting (lasting_attachHandler hw' (hkeep hw5 hle h5).1.alive y))
    fun _ w6 _ hle6 hw6 _ => ?_
  have h6 := hkeep hw5 hle6 h5
  refine .seq (.forM hw6 fun y hy _ w' hle hw' => building_addRepeater hw'
    (hkeep hw6 hle h6).1 (hd.repeats y hy).1 (hd.repeats y hy).2 y.2.2)
    fun _ w7 _ hle7 hw7 _ => ?_
  exact .ret hw7 ⟨rfl, hkeep hw6 hle7 h6⟩

/-- A build, however it ends, keeps the invariant. What it returns is a new instance, to which
there are no handles yet. -/
theorem building_build (hw : w.Sound) (hmade : d.Made)
    (hhost : ∀ it, host = some it → it.component < w.host.1.components.size) (source : Option Nat) :
    building.Runs nested () w (Component.build d host source) fun _ w' c =>
      Standing d w'.store w'.host.1 c ∧ w.host.1.components.size ≤ c ∧
        (w'.host.1.component c).host = host := by
  show building.Goes ..
  rw [Component.tell_build]
  refine Regime.Runs.seq (building_found hw hmade hhost source)
    fun _ w1 c _ hw1 h1 => ?_
  refine (building_attach hN hw1 hmade h1.1).mono fun _ w2 c' _ _ h2 => ?_
  obtain ⟨rfl, hstanding, hhost⟩ := h2
  exact ⟨hstanding, h1.2, hhost⟩

end Nested

end

end ReactiveTree
