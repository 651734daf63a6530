import ReactiveTree.Proofs.Scene.LastingMotion

/-!
# Building and lifetimes

An instance is built from new cells and new signals, so it shares none with those there are.
What is attached to it afterwards runs code, and the build may fail: what it leaves behind has
no handle and counts as no instance.
-/

namespace ReactiveTree

open Store

variable {U X : Type}
variable {c : ComponentId} {s t : Scene U X}

/-! ## New cells and signals -/

/-- Cells that were made since the store had `n` of them, and are alive. -/
structure NewCells (n : Nat) (store : Store (Code U)) (cells : List CellId) : Prop where
  nodup : cells.Nodup
  since : ∀ x ∈ cells, n ≤ x
  property : ∀ x ∈ cells, store.IsProperty x
  alive : ∀ x ∈ cells, (store.cell x).dropped = false

theorem newCells_nil (n : Nat) (store : Store (Code U)) : NewCells n store [] :=
  ⟨.nil, nofun, nofun, nofun⟩

theorem newCells_add (store : Store (Code U)) (name : String) (v : Value) :
    NewCells store.cells.size (store.add { name, value := v }).2 [store.cells.size] := by
  have hcell := store.cell_add { name, value := v } store.cells.size
  rw [if_pos rfl] at hcell
  refine ⟨List.nodup_singleton _, by simp, ?_, ?_⟩
  · simp only [List.mem_singleton, forall_eq]
    refine ⟨?_, by rw [hcell]⟩
    simp [Store.add]
  · simp only [List.mem_singleton, forall_eq]
    rw [hcell]

theorem isTracker_newTracker (store : Store (Code U)) (name : String) (code : Code U Unit) :
    ((store.add { name, tracker := true, state := .dirty }).2.observe store.cells.size
      code).2.IsTracker store.cells.size := by
  have hcontent := (store.add { name, tracker := true, state := .dirty }).2.content_observe
    store.cells.size code store.cells.size
  refine ⟨Nat.lt_of_lt_of_eq ?_ (size_modify ..).symm, (congrArg Content.tracker hcontent).trans ?_⟩
  · simp [Store.add]
  · rw [content_add, if_pos rfl]
    rfl

theorem NewCells.append {n : Nat} {store store' : Store (Code U)} {xs ys : List CellId}
    (hx : NewCells n store xs) (hy : NewCells store.cells.size store' ys) (hs : Placid store store')
    (hn : n ≤ store.cells.size) : NewCells n store' (xs ++ ys) where
  nodup := by
    refine List.nodup_append.2 ⟨hx.nodup, hy.nodup, fun x hxs y hys heq => ?_⟩
    exact (Nat.lt_of_lt_of_le (hx.property x hxs).1 (hy.since y hys)).ne heq
  since x h := by
    rcases List.mem_append.1 h with h | h
    · exact hx.since x h
    · exact hn.trans (hy.since x h)
  property x h := by
    rcases List.mem_append.1 h with h | h
    · exact (hx.property x h).kept hs.kept
    · exact hy.property x h
  alive x h := by
    rcases List.mem_append.1 h with h | h
    · exact hs.alive (hx.property x h) (hx.alive x h)
    · exact hy.alive x h

theorem Placid.trans {s t u : Store (Code U)} (h : Placid s t) (h' : Placid t u) : Placid s u where
  kept := h.kept.trans h'.kept
  gone hd := h'.gone (h.gone hd)
  alive hc hd := h'.alive (hc.kept h.kept) (h.alive hc hd)
  observer hx ha := by
    obtain ⟨x1, hx1, hcode1, hcell1⟩ := h'.observer hx ha
    obtain ⟨x0, hx0, hcode0, hcell0⟩ := h.observer hx1 (hcode1.trans ha)
    exact ⟨x0, hx0, hcode0.trans hcode1, hcell0.trans hcell1⟩

structure Scene.MoreSignals (s t : Scene U X) : Prop where
  only : t = { s with signals := t.signals }
  size : s.signals.size ≤ t.signals.size
  signal : ∀ i < s.signals.size, t.signal i = s.signal i

namespace Scene.MoreSignals

variable {s t u : Scene U X}

theorem refl (s : Scene U X) : s.MoreSignals s := ⟨rfl, Nat.le_refl _, fun _ _ => rfl⟩

theorem trans (h : s.MoreSignals t) (h' : t.MoreSignals u) : s.MoreSignals u where
  only := by
    rw [h'.only, h.only]
  size := h.size.trans h'.size
  signal i hi := (h'.signal i (hi.trans_le h.size)).trans (h.signal i hi)

theorem push (s : Scene U X) (x : Signal U) :
    s.MoreSignals { s with signals := s.signals.push x } := by
  refine ⟨rfl, by simp, fun i hi => ?_⟩
  show (s.signals.push x).getD i default = s.signals.getD i default
  rw [getD_push, if_neg hi.ne]

theorem living {falling : ComponentId → Prop} {giving : RepeaterId → Prop}
    {store : Store (Code U)} (h : s.MoreSignals t) (hs : Living falling giving store s) :
    Living falling giving store t := by
  have hsignal := h.signal
  have hsize := h.size
  rw [h.only] at hsignal hsize ⊢
  refine ⟨{ hs.tree with }, { hs.counts with }, { hs.motion with }, ?_⟩
  exact { hs.fallen with
    handlers := fun hd hf cb hcb => by
      rw [hsignal _ (hs.fallen.signal hcb)]
      exact hs.fallen.handlers hd hf cb hcb
    signal := fun hcb => (hs.fallen.signal hcb).trans_le hsize }

theorem stays (h : s.MoreSignals t) : s.Stays t := by
  rw [h.only]
  exact s.stays_aside ..

end Scene.MoreSignals

section

variable {nested : SceneNested U X} {w : SceneTale U X}

theorem buildTable_completes (owner : String) (decls : List PropDecl) :
    (Component.buildTable owner decls).Completes nested w fun w' t =>
      t.decls = decls ∧ t.cells.length = decls.length ∧ t.transitions = [] ∧
      NewCells w.store.cells.size w'.store t.cells ∧ Placid w.store w'.store ∧
      w'.host.1 = w.host.1 := by
  refine .bind (P := fun w' cells => cells.length = decls.length ∧
    NewCells w.store.cells.size w'.store cells ∧ Placid w.store w'.store ∧ w'.host.1 = w.host.1)
    ?_ fun w' cells h => Act.completes_pure ⟨rfl, h.1, rfl, h.2⟩
  refine Act.completes_mapM (I := fun done cells w' => cells.length = done.length ∧
    NewCells w.store.cells.size w'.store cells ∧ Placid w.store w'.store ∧ w'.host.1 = w.host.1)
    ⟨rfl, newCells_nil .., .refl _, rfl⟩ (fun _ _ h => h) fun done d rest _ cells w' h => ?_
  obtain ⟨hlength, hfresh, hplacid, hhost⟩ := h
  refine Act.completes_new ⟨by simp [hlength], ?_, hplacid.trans (.add ..), hhost⟩
  exact hfresh.append (newCells_add ..) (.add ..) hplacid.kept.size

/-- The callbacks of a list use signals from `m` up to the size of the scene. -/
def SignalsSince (m : Nat) (s : Scene U X) (callbacks : List Callback) : Prop :=
  ∀ cb ∈ callbacks, m ≤ cb.signal ∧ cb.signal < s.signals.size

theorem SignalsSince.more {m : Nat} {callbacks : List Callback}
    (h : SignalsSince m s callbacks) (hst : s.MoreSignals t) : SignalsSince m t callbacks :=
  fun cb hcb => ⟨(h cb hcb).1, (h cb hcb).2.trans_le hst.size⟩

theorem createCallbacks_completes (decls : List CallbackDecl) :
    (decls.mapM (Callback.create (U := U) (X := X))).Completes nested w fun w' callbacks =>
      callbacks.map (·.decl) = decls ∧ SignalsSince w.host.1.signals.size w'.host.1 callbacks ∧
      w'.store = w.store ∧ w.host.1.MoreSignals w'.host.1 := by
  refine Act.completes_mapM (I := fun done callbacks w' => callbacks.map (·.decl) = done ∧
    SignalsSince w.host.1.signals.size w'.host.1 callbacks ∧ w'.store = w.store ∧
      w.host.1.MoreSignals w'.host.1) ⟨rfl, nofun, rfl, .refl _⟩ (fun _ _ h => h)
    fun done d rest _ callbacks w' h => ?_
  obtain ⟨hdecls, hsignals, hstore, hmore⟩ := h
  have hpush := Scene.MoreSignals.push w'.host.1 { name := d.name }
  refine .bind (Act.completes_host (Q := fun w'' i => i = w'.host.1.signals.size ∧
    w''.store = w'.store ∧ w''.host.1 = { w'.host.1 with
      signals := w'.host.1.signals.push { name := d.name } }) ⟨rfl, rfl, rfl⟩) fun w'' i hi => ?_
  obtain ⟨rfl, hstore', hhost⟩ := hi
  rw [← hhost] at hpush
  refine Act.completes_pure ⟨by rw [List.map_append, hdecls]; rfl, fun cb hcb => ?_,
    hstore'.trans hstore, hmore.trans hpush⟩
  rcases List.mem_append.1 hcb with hcb | hcb
  · exact hsignals.more hpush cb hcb
  · obtain rfl := List.mem_singleton.1 hcb
    refine ⟨hmore.size, ?_⟩
    show w'.host.1.signals.size < w''.host.1.signals.size
    rw [hhost]
    simp

/-- An item as it is built from a node. -/
structure Item.Bare (node : NodeDef) (it : Item) : Prop where
  parent : it.parent = node.parent
  children : it.children = node.children
  repeaters : it.repeaters = []
  transitions : it.table.transitions = []
  lengths : it.table.cells.length = it.table.decls.length
  decls : it.table.decls = node.kind.layout.props
  id : it.id = node.id
  callbacks : it.callbacks.map (·.decl) = node.kind.layout.callbacks

theorem buildItem_completes (owner : String) (node : NodeDef) :
    (Component.buildItem owner node).Completes nested w fun w' it =>
      it.Bare node ∧ NewCells w.store.cells.size w'.store it.table.cells ∧
      Placid w.store w'.store ∧ SignalsSince w.host.1.signals.size w'.host.1 it.callbacks ∧
      w.host.1.MoreSignals w'.host.1 := by
  refine .bind (buildTable_completes ..) fun w1 t ht => ?_
  obtain ⟨hdecls, hlength, htransitions, hfresh, hplacid, hhost⟩ := ht
  refine .bind (createCallbacks_completes _) fun w2 callbacks hcallbacks => ?_
  obtain ⟨hcallbacks, hsignals, hstore, hmore⟩ := hcallbacks
  rw [hhost] at hsignals hmore
  refine Act.completes_pure ⟨⟨rfl, rfl, rfl, htransitions, ?_, hdecls, rfl, hcallbacks⟩, ?_, ?_,
    hsignals, hmore⟩
  · rw [hlength, hdecls]
  · exact hstore ▸ hfresh
  · exact hstore ▸ hplacid

theorem buildItems_completes (owner : String) (nodes : List NodeDef) :
    (nodes.mapM (Component.buildItem owner)).Completes nested w fun w' items =>
      List.Forall₂ Item.Bare nodes items ∧
      NewCells w.store.cells.size w'.store (items.flatMap (·.table.cells)) ∧
      Placid w.store w'.store ∧
      (∀ it ∈ items, SignalsSince w.host.1.signals.size w'.host.1 it.callbacks) ∧
      w.host.1.MoreSignals w'.host.1 := by
  refine Act.completes_mapM (I := fun done items w' => List.Forall₂ Item.Bare done items ∧
    NewCells w.store.cells.size w'.store (items.flatMap (·.table.cells)) ∧
    Placid w.store w'.store ∧
    (∀ it ∈ items, SignalsSince w.host.1.signals.size w'.host.1 it.callbacks) ∧
    w.host.1.MoreSignals w'.host.1) ⟨.nil, newCells_nil .., .refl _, nofun, .refl _⟩
    (fun _ _ h => h) fun done node rest _ items w1 h => ?_
  obtain ⟨hbare, hfresh, hplacid, hsignals, hmore⟩ := h
  refine (buildItem_completes owner node).mono fun w2 it hit => ?_
  obtain ⟨hbare', hfresh', hplacid', hsignals', hmore'⟩ := hit
  refine ⟨List.rel_append hbare (.cons hbare' .nil), ?_, hplacid.trans hplacid', ?_,
    hmore.trans hmore'⟩
  · rw [List.flatMap_append, List.flatMap_singleton]
    exact hfresh.append hfresh' hplacid' hplacid.kept.size
  · intro y hy
    rcases List.mem_append.1 hy with hy | hy
    · exact (hsignals y hy).more hmore'
    · obtain rfl := List.mem_singleton.1 hy
      exact fun cb hcb => ⟨hmore.size.trans (hsignals' cb hcb).1, (hsignals' cb hcb).2⟩

end

/-! ## A new instance -/

def Component.tableOf (x : Component U) : Option Nat → Table
  | none => x.scope
  | some n => (x.items.getD n default).table

/-- The id and the callbacks of an item, or those of the component. -/
def Component.outlineOf (x : Component U) : Option Nat → String × List CallbackDecl
  | none => ("", x.callbacks.map (·.decl))
  | some n => ((x.items.getD n default).id, (x.items.getD n default).callbacks.map (·.decl))

theorem Scene.table_eq (s : Scene U X) (c : ComponentId) (node : Option Nat) :
    s.table c node = (s.component c).tableOf node := by
  cases node <;> rfl

/-- An instance before anything is attached to it, which shares nothing with those of `s`. -/
structure Component.Newborn (store : Store (Code U)) (s : Scene U X) (x : Component U) : Prop where
  outer : x.outer = x.host.map (·.component)
  host : ∀ it, x.host = some it → it.component < s.components.size
  window : ∀ o, x.outer = some o → x.window = (s.component o).window
  refs : x.refs = 0
  destroyed : x.destroyed = false
  transitions : x.transitions = []
  parent : ∀ {n m}, (x.items.getD n default).parent = some m → m < n
  child : ∀ {n k}, k ∈ (x.items.getD n default).children → (x.items.getD k default).parent = some n
  children : ∀ n, (x.items.getD n default).children.Nodup
  repeaters : ∀ n, (x.items.getD n default).repeaters = []
  still : ∀ node, (x.tableOf node).transitions = []
  lengths : ∀ node, (x.tableOf node).cells.length = (x.tableOf node).decls.length
  place : ∀ {node mode} {i j : Nat} {y : CellId}, (x.tableOf node).cells[i]? = some y →
    (x.tableOf mode).cells[j]? = some y → node = mode ∧ i = j
  cells : ∀ node, ∀ y ∈ (x.tableOf node).cells, store.IsProperty y ∧
    ∀ c mode, y ∉ (s.table c mode).cells
  alive : ∀ node, ∀ y ∈ (x.tableOf node).cells, (store.cell y).dropped = false
  flags : ∀ node, ∀ r < s.repeaters.size, (s.repeater r).flag ∉ (x.tableOf node).cells
  callbacks : ∀ cb, (cb ∈ x.callbacks ∨ ∃ n, cb ∈ (x.items.getD n default).callbacks) →
    cb.signal < s.signals.size ∧ ∀ c cb', s.HasCallback c cb' → cb'.signal ≠ cb.signal

theorem Scene.openHandles_eq_nil (h : ¬s.Handed c) : s.openHandles c = [] := by
  rw [openHandles, List.filter_eq_nil_iff]
  intro k hk
  simp only [Bool.and_eq_true, beq_iff_eq, not_and]
  exact fun hc => absurd ⟨k, List.mem_range.1 hk, hc⟩ h

section Push

variable {falling : ComponentId → Prop} {giving : RepeaterId → Prop} {store : Store (Code U)}
  {s : Scene U X} {x : Component U}

def Scene.pushComponent (s : Scene U X) (x : Component U) : Scene U X :=
  { s with components := s.components.push x }

theorem Scene.component_push (s : Scene U X) (x : Component U) (c : ComponentId) :
    (s.pushComponent x).component c = if c = s.components.size then x else s.component c :=
  getD_push ..

theorem Scene.item_push (s : Scene U X) (x : Component U) (it : ItemRef) :
      (s.pushComponent x).item it = if it.component = s.components.size then x.items.getD it.index
        default else s.item it := by
  simp only [item, component_push]
  split <;> rfl

theorem Scene.table_push (s : Scene U X) (x : Component U) (c : ComponentId) (node : Option Nat) :
    (s.pushComponent x).table c node =
      if c = s.components.size then x.tableOf node else s.table c node := by
  simp only [table_eq, component_push]
  split <;> rfl

theorem Scene.component_size (s : Scene U X) : s.component s.components.size = default :=
  getD_of_size_le (Nat.le_refl _) _

theorem Scene.item_size (s : Scene U X) (n : Nat) : s.item ⟨s.components.size, n⟩ = default := by
  simp only [item, component_size]
  exact getD_of_size_le (Nat.zero_le n) _

theorem Scene.table_size (s : Scene U X) (node : Option Nat) :
    s.table s.components.size node = {} := by
  cases node with
  | none => simp only [table, component_size]; rfl
  | some n => simp only [table, item_size]; rfl

theorem Scene.Tree.push (h : s.Tree) (hx : x.Newborn store s) : (s.pushComponent x).Tree where
  outer {c o} hc := by
    rw [Scene.component_push] at hc
    split at hc
    · rename_i hlast
      rw [hx.outer] at hc
      obtain ⟨it, hit, rfl⟩ := Option.map_eq_some_iff.1 hc
      exact hlast ▸ hx.host it hit
    · exact h.outer hc
  host c := by
    rw [Scene.component_push]
    split
    · exact hx.outer
    · exact h.host c
  window {c o} hc := by
    rw [Scene.component_push] at hc ⊢
    split at hc
    · rename_i hlast
      have ho := hc
      rw [hx.outer] at ho
      obtain ⟨it, hit, rfl⟩ := Option.map_eq_some_iff.1 ho
      rw [if_pos hlast, Scene.component_push, if_neg ((hx.host it hit).ne)]
      exact hx.window _ hc
    · rename_i hlast
      have hne : o ≠ s.components.size := by
        rintro rfl
        have hlt : c < s.components.size := by
          by_contra hge
          rw [Scene.component, getD_of_size_le (not_lt.1 hge)] at hc
          cases hc
        exact Nat.lt_asymm hlt (h.outer hc)
      rw [if_neg hlast, Scene.component_push, if_neg hne]
      exact h.window hc
  parent {c n m} hp := by
    rw [Scene.item_push] at hp
    split at hp
    · exact hx.parent hp
    · exact h.parent hp
  child {c n k} hk := by
    rw [Scene.item_push] at hk ⊢
    split at hk
    · rename_i hlast
      rw [if_pos hlast]
      exact hx.child hk
    · rename_i hlast
      rw [if_neg hlast]
      exact h.child hk
  children it := by
    rw [Scene.item_push]
    split
    · exact hx.children _
    · exact h.children it
  hosted {r} hr := by
    have hmem := h.hosted hr
    show r ∈ ((s.pushComponent x).item (s.repeater r).host).repeaters
    rw [Scene.item_push, if_neg]
    · exact hmem
    · intro hlast
      rw [show (s.repeater r).host = ⟨s.components.size, (s.repeater r).host.index⟩ by
        rw [← hlast], Scene.item_size] at hmem
      cases hmem
  placed {it r} hr := by
    rw [Scene.item_push] at hr
    split at hr
    · rw [hx.repeaters] at hr
      cases hr
    · exact h.placed hr
  repeaters it := by
    rw [Scene.item_push]
    split
    · rw [hx.repeaters]
      exact .nil
    · exact h.repeaters it
  sub := h.sub
  handle {k} hk := by
    have hlt := h.handle hk
    show (s.handle k).component < (s.components.push x).size
    rw [Array.size_push]
    exact Nat.lt_succ_of_lt hlt
  single {k l} hk hl heq houter := by
    refine h.single hk hl heq ?_
    have houter : ((s.pushComponent x).component (s.handle k).component).outer ≠ none := houter
    rwa [Scene.component_push, if_neg ((h.handle hk).ne)] at houter

theorem Scene.Tree.not_handed (h : s.Tree) (hc : s.components.size ≤ c) : ¬s.Handed c := by
  rintro ⟨k, hk, rfl⟩
  exact (h.handle hk).not_ge hc

theorem Scene.Counts.push (h : s.Counts falling giving) (ht : s.Tree) (hx : x.Newborn store s) :
    (s.pushComponent x).Counts falling giving := by
  have hcomp {c : ComponentId} (hc : c < s.components.size) :
      (s.pushComponent x).component c = s.component c := by
    rw [Scene.component_push, if_neg hc.ne]
  have hsize : (s.pushComponent x).components.size = s.components.size + 1 := Array.size_push ..
  have hlast : (s.pushComponent x).component s.components.size = x := by
    rw [Scene.component_push, if_pos rfl]
  have hnone := ht.not_handed (Nat.le_refl s.components.size)
  constructor
  case refs =>
    intro c hc
    show _ = ((s.openHandles c).length : Int)
    rw [hsize] at hc
    rcases Nat.lt_succ_iff_lt_or_eq.1 hc with hc | rfl
    · rw [hcomp hc]
      exact h.refs hc
    · rw [hlast, hx.refs, Scene.openHandles_eq_nil hnone]
      rfl
  case destroyed =>
    intro c hc hf
    rw [hsize] at hc
    rcases Nat.lt_succ_iff_lt_or_eq.1 hc with hc | rfl
    · rw [hcomp hc]
      exact h.destroyed hc hf
    · rw [hlast, hx.destroyed]
      exact ⟨nofun, fun hh => absurd hh.1 hnone⟩
  case falling => exact h.falling
  case row =>
    intro r k hk
    obtain ⟨hlt, hhost⟩ := h.row hk
    refine ⟨hlt, ?_⟩
    show ((s.pushComponent x).component (s.handle k).component).host = _
    rw [hcomp (ht.handle hlt)]
    exact hhost
  case unreleased => exact h.unreleased
  case nodup => exact h.nodup
  case apart => exact h.apart
  case rowed =>
    intro k hk hreleased houter
    have houter : ((s.pushComponent x).component (s.handle k).component).outer ≠ none := houter
    rw [hcomp (ht.handle hk)] at houter
    exact h.rowed hk hreleased houter
  case pointer =>
    intro i it hit
    obtain ⟨hlt, hd, hw⟩ := h.pointer hit
    rw [hcomp hlt, hsize]
    exact ⟨Nat.lt_succ_of_lt hlt, hd, hw⟩

theorem Scene.Motion.push (h : s.Motion store) (hx : x.Newborn store s) :
    (s.pushComponent x).Motion store := by
  -- a table that has something in it is not where the new ones go
  have hold {c : ComponentId} {node : Option Nat} {i : Nat} {a : TransitionId}
      (ha : (s.table c node).transition? i = some a) :
      (s.pushComponent x).table c node = s.table c node := by
    rw [Scene.table_push, if_neg]
    rintro rfl
    rw [Scene.table_size] at ha
    cases ha
  constructor
  case cells =>
    intro c node y hy
    rw [Scene.table_push] at hy
    split at hy
    · exact (hx.cells node y hy).1
    · exact h.cells hy
  case lengths =>
    intro c node
    rw [Scene.table_push]
    split
    · exact hx.lengths node
    · exact h.lengths c node
  case place =>
    intro c node d mode i j y hi hj
    rw [Scene.table_push] at hi hj
    split at hi
    · split at hj
      · rename_i hc hd
        exact ⟨hc.trans hd.symm, hx.place hi hj⟩
      · exact absurd (List.mem_of_getElem? hj)
          ((hx.cells node y (List.mem_of_getElem? hi)).2 d mode)
    · split at hj
      · exact absurd (List.mem_of_getElem? hi)
          ((hx.cells mode y (List.mem_of_getElem? hj)).2 c node)
      · exact h.place hi hj
  case entry =>
    intro c node i a ha
    rw [Scene.table_push] at ha ⊢
    split at ha
    · rw [Table.transition?, hx.still] at ha
      cases ha
    · rename_i hc
      rw [if_neg hc]
      exact h.entry ha
  case registered =>
    intro a ha
    obtain ⟨c, node, i, hi⟩ := h.registered ha
    exact ⟨c, node, i, by rw [hold hi]; exact hi⟩
  case moved =>
    intro c y a ha
    rw [Scene.component_push] at ha
    split at ha
    · rw [hx.transitions] at ha
      cases ha
    · rename_i hc
      obtain ⟨hlt, hcell, node, hy⟩ := h.moved ha
      refine ⟨hlt, hcell, node, ?_⟩
      rw [Scene.table_push, if_neg hc]
      exact hy
  case tracker => exact h.tracker
  case still => exact h.still
  case retarget => exact h.retarget
  case running => exact h.running

theorem Scene.hasCallback_push {cb : Callback} : (s.pushComponent x).HasCallback c cb ↔
      if c = s.components.size then cb ∈ x.callbacks ∨ ∃ n, cb ∈ (x.items.getD n default).callbacks
      else s.HasCallback c cb := by
  simp only [HasCallback, component_push, item_push]
  split <;> rfl

theorem Scene.Fallen.push (h : s.Fallen falling store) (hx : x.Newborn store s) :
    (s.pushComponent x).Fallen falling store := by
  have hne {c : ComponentId} (hd : ((s.pushComponent x).component c).destroyed = true) :
      c ≠ s.components.size := by
    rintro rfl
    rw [Scene.component_push, if_pos rfl, hx.destroyed] at hd
    cases hd
  constructor
  case flag =>
    intro r hr
    refine ⟨(h.flag hr).1, fun c node hy => ?_⟩
    rw [Scene.table_push] at hy
    split at hy
    · exact hx.flags node r hr hy
    · exact (h.flag hr).2 c node hy
  case tracker => exact h.tracker
  case ended => exact h.ended
  case cells =>
    intro c hd hf node y hy
    have hc := hne hd
    rw [Scene.component_push, if_neg hc] at hd
    rw [Scene.table_push, if_neg hc] at hy
    exact h.cells hd hf node y hy
  case upright =>
    intro c hd node y hy
    rw [Scene.table_push] at hy
    split at hy
    · exact hx.alive node y hy
    · rename_i hc
      rw [Scene.component_push, if_neg hc] at hd
      exact h.upright hd node y hy
  case repeaters =>
    intro c hd hf n r hr
    have hc := hne hd
    rw [Scene.component_push, if_neg hc] at hd
    rw [Scene.item_push, if_neg hc] at hr
    exact h.repeaters hd hf n r hr
  case handlers =>
    intro c hd hf cb hcb
    have hc := hne hd
    rw [Scene.component_push, if_neg hc] at hd
    rw [Scene.hasCallback_push, if_neg hc] at hcb
    exact h.handlers hd hf cb hcb
  case signal =>
    intro c cb hcb
    rw [Scene.hasCallback_push] at hcb
    split at hcb
    · exact (hx.callbacks cb hcb).1
    · exact h.signal hcb
  case owned =>
    intro c d cb cb' hcb hcb' heq
    rw [Scene.hasCallback_push] at hcb hcb'
    split at hcb
    · split at hcb'
      · rename_i hc hd
        exact hc.trans hd.symm
      · exact absurd heq.symm ((hx.callbacks cb hcb).2 d cb' hcb')
    · split at hcb'
      · exact absurd heq ((hx.callbacks cb' hcb').2 c cb hcb)
      · exact h.owned hcb hcb' heq

theorem Living.push (h : Living falling giving store s) (hx : x.Newborn store s) :
    Living falling giving store (s.pushComponent x) :=
  ⟨h.tree.push hx, h.counts.push h.tree hx, h.motion.push hx, h.fallen.push hx⟩

theorem Scene.grows_push (s : Scene U X) (x : Component U) : s.Grows (s.pushComponent x) := by
  refine { Scene.Grows.refl s with
    components := by simp [pushComponent], component := fun c hc => ?_, item := fun it hit => ?_ }
  · rw [component_push, if_neg hc.ne]
    exact ⟨rfl, rfl, rfl, rfl, rfl, rfl, rfl, rfl⟩
  · rw [item_push, if_neg hit.ne]
    exact ⟨rfl, rfl, rfl, rfl⟩

end Push

/-! ## Transitions of a table -/

/-- The scenes differ in nothing but the transitions of tables, the clock and user state. -/
structure Scene.Alike (s t : Scene U X) : Prop where
  size : t.components.size = s.components.size
  component : ∀ c, (s.component c).Like (t.component c)
  item : ∀ it, (s.item it).Like (t.item it)
  repeatersOf : ∀ it, (t.item it).repeaters = (s.item it).repeaters
  handles : t.handles = s.handles
  repeaters : t.repeaters = s.repeaters
  windows : t.windows = s.windows
  signals : t.signals = s.signals

namespace Scene.Alike

variable {falling : ComponentId → Prop} {giving : RepeaterId → Prop} {store : Store (Code U)}
  {s t : Scene U X} (h : s.Alike t)
include h

theorem repeater (r : RepeaterId) : t.repeater r = s.repeater r := by
  simp only [Scene.repeater, h.repeaters]

theorem handle (k : HandleId) : t.handle k = s.handle k := by
  simp only [Scene.handle, h.handles]

theorem table (c : ComponentId) (node : Option Nat) :
    (t.table c node).cells = (s.table c node).cells := by
  cases node with
  | none => exact (h.component c).scope
  | some n => exact (h.item ⟨c, n⟩).table

theorem hasCallback {cb : Callback} : t.HasCallback c cb ↔ s.HasCallback c cb := by
  simp only [HasCallback, (h.component c).callbacks, fun n => (h.item ⟨c, n⟩).callbacks]

theorem openHandles (c : ComponentId) : t.openHandles c = s.openHandles c := by
  simp only [Scene.openHandles, h.handle, h.handles]

theorem handed : t.Handed c ↔ s.Handed c := by
  simp only [Scene.Handed, h.handle, h.handles]

theorem rows (r : RepeaterId) : t.rows r = s.rows r := by
  simp only [Scene.rows, h.repeater]

theorem tree (hs : s.Tree) : t.Tree := by
  have hcomponent c := h.component c
  have hitem it := h.item it
  rw [tree_iff] at hs ⊢
  simpa only [fun c => (hcomponent c).outer, fun c => (hcomponent c).host,
    fun c => (hcomponent c).window, fun it => (hitem it).parent, fun it => (hitem it).children,
    h.repeatersOf, h.repeater, h.repeaters, h.handle, h.handles, h.size] using hs

theorem counts (hs : s.Counts falling giving) : t.Counts falling giving := by
  have hcomponent c := h.component c
  rw [counts_iff] at hs ⊢
  simpa only [fun c => (hcomponent c).outer, fun c => (hcomponent c).host,
    fun c => (hcomponent c).window, fun c => (hcomponent c).refs,
    fun c => (hcomponent c).destroyed, h.openHandles, h.handed, h.rows, h.repeater, h.handle,
    h.handles, h.size, windowAt, h.windows] using hs

theorem fallen (hs : s.Fallen falling store) : t.Fallen falling store := by
  have hdestroyed c := (h.component c).destroyed
  rw [fallen_iff] at hs ⊢
  simpa only [hdestroyed, h.table, h.hasCallback, h.rows, h.repeater, h.repeaters, h.repeatersOf,
    Scene.signal, h.signals] using hs

end Scene.Alike

theorem Scene.Stays.table (h : s.Stays t) (c : ComponentId) (node : Option Nat) :
    t.table c node = s.table c node := by
  have hcomponent (e : ComponentId) : t.component e = s.component e := by
    rw [Scene.component, Scene.component, h.components]
  cases node with
  | none => exact congrArg Component.scope (hcomponent c)
  | some n => simp only [Scene.table, Scene.item, hcomponent]

theorem Scene.Alike.grows (h : s.Alike t) (hsize : s.transitions.size ≤ t.transitions.size)
    (hcell : ∀ a < s.transitions.size, (t.transition a).cell = (s.transition a).cell) :
    s.Grows t where
  components := Nat.le_of_eq h.size.symm
  component c _ := h.component c
  item it _ := h.item it
  handles := h.handles
  repeaters := Nat.le_of_eq (by rw [h.repeaters])
  repeater r _ := by
    rw [h.repeater]
    exact ⟨rfl, rfl, rfl, rfl, rfl, rfl⟩
  transitions := hsize
  transition := hcell

theorem Scene.alike_addMotion (s : Scene U X) (spot : Spot) (cell : CellId) (a : TransitionId) :
    s.Alike (s.addMotion spot cell a) := by
  obtain ⟨c, node, slot⟩ := spot
  set s1 := s.modifyComponent c fun x => { x with transitions := x.transitions ++ [(cell, a)] }
    with hs1
  have hitem1 (it : ItemRef) : s1.item it = s.item it := by
    simp only [hs1, item, component_modify]
    split <;> rfl
  have hlike1 (e : ComponentId) : (s.component e).Like (s1.component e) := by
    rw [hs1, component_modify]
    split <;> exact ⟨rfl, rfl, rfl, rfl, rfl, rfl, rfl, rfl⟩
  have hsize1 : s1.components.size = s.components.size := Array.size_modify
  cases node with
  | none =>
    set extend : Component U → Component U := fun x => { x with scope := { x.scope with
      transitions := x.scope.transitions ++ [(slot, a)] } } with hextend
    have hitem (it : ItemRef) : (s1.modifyComponent c extend).item it = s.item it := by
      rw [← hitem1 it]
      simp only [item, component_modify]
      split <;> rfl
    refine ⟨?_, fun e => ?_, fun it => ?_, fun it => ?_, rfl, rfl, rfl, rfl⟩
    · exact Array.size_modify.trans hsize1
    · have h := hlike1 e
      show (s.component e).Like ((s1.modifyComponent c extend).component e)
      rw [component_modify]
      split
      · exact ⟨h.outer, h.host, h.window, h.refs, h.destroyed, h.callbacks, h.items, h.scope⟩
      · exact h
    · show (s.item it).Like ((s1.modifyComponent c extend).item it)
      rw [hitem]
      exact ⟨rfl, rfl, rfl, rfl⟩
    · exact congrArg Item.repeaters (hitem it)
  | some n =>
    set extend : Item → Item := fun it => { it with table := { it.table with
      transitions := it.table.transitions ++ [(slot, a)] } } with hextend
    refine ⟨?_, fun e => ?_, fun it => ?_, fun it => ?_, rfl, rfl, rfl, rfl⟩
    · exact Array.size_modify.trans hsize1
    · have h := hlike1 e
      show (s.component e).Like ((s1.modifyItem ⟨c, n⟩ extend).component e)
      rw [modifyItem, component_modify]
      split
      · exact ⟨h.outer, h.host, h.window, h.refs, h.destroyed, h.callbacks,
          Array.size_modify.trans h.items, h.scope⟩
      · exact h
    · show (s.item it).Like ((s1.modifyItem ⟨c, n⟩ extend).item it)
      rw [item_modify, hitem1]
      split <;> exact ⟨rfl, rfl, rfl, rfl⟩
    · show ((s1.modifyItem ⟨c, n⟩ extend).item it).repeaters = _
      rw [item_modify, hitem1]
      split <;> rfl

end ReactiveTree
