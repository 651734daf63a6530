import ReactiveTree.Proofs.Definition.Consistent
import ReactiveTree.Proofs.Scene.Composed
import ReactiveTree.Proofs.Scene.Objects

/-!
# Lifetimes

An instance lives from its first handle to the release of its last one. `Living` is what is true
in the meantime and after: the instances form a tree (`Tree`), their counts are those of the
handles (`Counts`), every transition is known to the table of its cell (`Motion`), and of an
instance that has ended nothing is left (`Fallen`).

The instances that are falling, step by step, and the repeaters that are giving up rows are
exceptions. Outside of a teardown there are none (`Sound`), and code that releases nothing keeps
it so (`living_ok`).
-/

namespace ReactiveTree

open Store

variable {U X : Type}

def Window.PointsAt (w : Window) (it : ItemRef) : Prop :=
  w.focus = some it ∨ w.grabber = some it ∨ w.hover = some it

namespace Scene

variable (s : Scene U X)

def windowAt (i : WindowId) : Window := s.windows.getD i default

/-- The handles to an instance that have not been released. -/
def openHandles (c : ComponentId) : List HandleId :=
  (List.range s.handles.size).filter fun h => (s.handle h).component == c && !(s.handle h).released

/-- There is, or was, a handle to the instance. What a failed build left behind never had
one. -/
def Handed (c : ComponentId) : Prop := ∃ h < s.handles.size, (s.handle h).component = c

def rows (r : RepeaterId) : List HandleId := (s.repeater r).instances.list.toList

def HasCallback (c : ComponentId) (cb : Callback) : Prop :=
  cb ∈ (s.component c).callbacks ∨ ∃ n, cb ∈ (s.item ⟨c, n⟩).callbacks

/-- The instances form a tree, and so do the items of each of them. -/
@[mk_iff]
structure Tree : Prop where
  outer : ∀ {c o}, (s.component c).outer = some o → o < c
  host : ∀ c, (s.component c).outer = (s.component c).host.map (·.component)
  window : ∀ {c o}, (s.component c).outer = some o →
    (s.component c).window = (s.component o).window
  parent : ∀ {c n m}, (s.item ⟨c, n⟩).parent = some m → m < n
  child : ∀ {c n k}, k ∈ (s.item ⟨c, n⟩).children → (s.item ⟨c, k⟩).parent = some n
  children : ∀ it, (s.item it).children.Nodup
  /-- A repeater is known to the item that hosts it, and to no other. -/
  hosted : ∀ {r}, r < s.repeaters.size → r ∈ (s.item (s.repeater r).host).repeaters
  placed : ∀ {it r}, r ∈ (s.item it).repeaters → r < s.repeaters.size ∧ (s.repeater r).host = it
  repeaters : ∀ it, (s.item it).repeaters.Nodup
  sub : ∀ r, (s.repeater r).sub.Made
  handle : ∀ {h}, h < s.handles.size → (s.handle h).component < s.components.size
  /-- Of a repeated instance there is only one handle. -/
  single : ∀ {h k}, h < s.handles.size → k < s.handles.size →
    (s.handle h).component = (s.handle k).component →
    (s.component (s.handle h).component).outer ≠ none → h = k

/-- The counts are those of the handles, and a repeater holds the handles of its rows. -/
@[mk_iff]
structure Counts (falling : ComponentId → Prop) (giving : RepeaterId → Prop) : Prop where
  refs : ∀ {c}, c < s.components.size → (s.component c).refs = (s.openHandles c).length
  destroyed : ∀ {c}, c < s.components.size → ¬falling c →
    ((s.component c).destroyed = true ↔ s.Handed c ∧ s.openHandles c = [])
  falling : ∀ {c}, falling c → s.Handed c ∧ s.openHandles c = []
  row : ∀ {r h}, h ∈ s.rows r →
    h < s.handles.size ∧ (s.component (s.handle h).component).host = some (s.repeater r).host
  unreleased : ∀ {r h}, ¬giving r → h ∈ s.rows r → (s.handle h).released = false
  nodup : ∀ r, (s.rows r).Nodup
  apart : ∀ {r q h}, h ∈ s.rows r → h ∈ s.rows q → r = q
  rowed : ∀ {h}, h < s.handles.size → (s.handle h).released = false →
    (s.component (s.handle h).component).outer ≠ none → ∃ r, h ∈ s.rows r
  pointer : ∀ {i it}, (s.windowAt i).PointsAt it → it.component < s.components.size ∧
    (s.component it.component).destroyed = false ∧ (s.component it.component).window = i

/-- Every transition is known to the table of its cell. It keeps still once the cell is
dropped, and of the trackers it ever had only the last one can be alive. -/
@[mk_iff]
structure Motion (store : Store (Code U)) : Prop where
  cells : ∀ {c node x}, x ∈ (s.table c node).cells → store.IsProperty x
  lengths : ∀ c node, (s.table c node).cells.length = (s.table c node).decls.length
  place : ∀ {c node d mode} {i j : Nat} {x : CellId}, (s.table c node).cells[i]? = some x →
    (s.table d mode).cells[j]? = some x → c = d ∧ node = mode ∧ i = j
  entry : ∀ {c node i a}, (s.table c node).transition? i = some a →
    a < s.transitions.size ∧ (s.table c node).cells[i]? = some (s.transition a).cell
  registered : ∀ {a}, a < s.transitions.size → ∃ c node i, (s.table c node).transition? i = some a
  moved : ∀ {c x a}, (x, a) ∈ (s.component c).transitions → a < s.transitions.size ∧
    (s.transition a).cell = x ∧ ∃ node, x ∈ (s.table c node).cells
  tracker : ∀ {a t}, (s.transition a).tracker = some t → store.IsTracker t
  still : ∀ {a}, a < s.transitions.size → (store.cell (s.transition a).cell).dropped = true →
    (s.transition a).running = false ∧ (s.transition a).tracker = none
  retarget : ∀ {o : ObserverId} {x a}, store.observers[o]? = some x → x.code = .retarget a →
    a < s.transitions.size ∧
      ((s.transition a).tracker = some x.cell ∨ (store.cell x.cell).dropped = true)
  running : ∀ a ∈ s.clock.running, a < s.transitions.size

/-- What is left of instances that have ended: dropped cells, repeaters without rows and
callbacks without handlers. The others have all their cells. -/
@[mk_iff]
structure Fallen (falling : ComponentId → Prop) (store : Store (Code U)) : Prop where
  flag : ∀ {r}, r < s.repeaters.size →
    store.IsProperty (s.repeater r).flag ∧ ∀ c node, (s.repeater r).flag ∉ (s.table c node).cells
  tracker : ∀ {r}, r < s.repeaters.size → store.IsTracker (s.repeater r).tracker
  ended : ∀ {r}, (s.repeater r).released = true → s.rows r = [] ∧
    (store.cell (s.repeater r).flag).dropped = true ∧
    (store.cell (s.repeater r).tracker).dropped = true
  cells : ∀ {c}, (s.component c).destroyed = true → ¬falling c →
    ∀ node, ∀ x ∈ (s.table c node).cells, (store.cell x).dropped = true
  /-- An instance that has not ended has its cells. -/
  upright : ∀ {c}, (s.component c).destroyed = false →
    ∀ node, ∀ x ∈ (s.table c node).cells, (store.cell x).dropped = false
  repeaters : ∀ {c}, (s.component c).destroyed = true → ¬falling c →
    ∀ n, ∀ r ∈ (s.item ⟨c, n⟩).repeaters, (s.repeater r).released = true
  handlers : ∀ {c}, (s.component c).destroyed = true → ¬falling c →
    ∀ cb, s.HasCallback c cb → (s.signal cb.signal).handler = none
  signal : ∀ {c cb}, s.HasCallback c cb → cb.signal < s.signals.size
  owned : ∀ {c d cb cb'}, s.HasCallback c cb → s.HasCallback d cb' → cb.signal = cb'.signal → c = d

end Scene

/-- The invariant of lifetimes, with the instances and repeaters that it leaves out. -/
structure Living (falling : ComponentId → Prop) (giving : RepeaterId → Prop)
    (store : Store (Code U)) (s : Scene U X) : Prop where
  tree : s.Tree
  counts : s.Counts falling giving
  motion : s.Motion store
  fallen : s.Fallen falling store

abbrev World.Living (w : SceneTale U X) (falling : ComponentId → Prop)
    (giving : RepeaterId → Prop) : Prop := ReactiveTree.Living falling giving w.store w.host.1

/-- The invariant without exceptions. -/
abbrev Sound (store : Store (Code U)) (s : Scene U X) : Prop :=
  Living (fun _ => False) (fun _ => False) store s

/-- The scene of a world fits its store. -/
abbrev World.Sound (w : SceneTale U X) : Prop := ReactiveTree.Sound w.store w.host.1

/-! ## Changes of the store -/

theorem lt_of_dropped {s : Store (Code U)} {c : CellId} (h : (s.cell c).dropped = true) :
    c < s.cells.size := by
  by_contra hge
  rw [cell_of_size_le (not_lt.1 hge)] at h
  cases h

/-- From `s` to `t` no property was dropped, and no transition got an observer. -/
structure Placid (s t : Store (Code U)) : Prop where
  kept : Kept s t
  gone : ∀ {c}, (s.cell c).dropped = true → (t.cell c).dropped = true
  alive : ∀ {c}, s.IsProperty c → (s.cell c).dropped = false → (t.cell c).dropped = false
  observer : ∀ {o : ObserverId} {x : Observer (Code U)} {a : TransitionId},
    t.observers[o]? = some x → x.code = .retarget a →
    ∃ x0 : Observer (Code U), s.observers[o]? = some x0 ∧ x0.code = x.code ∧ x0.cell = x.cell

namespace Placid

variable {s t : Store (Code U)}

theorem of_dropped (kept : Kept s t)
    (h : ∀ c < s.cells.size, (t.cell c).dropped = (s.cell c).dropped)
      (observers : t.observers = s.observers) : Placid s t where
  kept := kept
  gone hd := (h _ (lt_of_dropped hd)).trans hd
  alive hc hd := (h _ hc.1).trans hd
  observer hx _ := ⟨_, observers ▸ hx, rfl, rfl⟩

theorem refl (s : Store (Code U)) : Placid s s := of_dropped (.refl s) (fun _ _ => rfl) rfl

theorem akin (h : Akin s t) : Placid s t := of_dropped h.kept (fun c _ => h.dropped c) h.observers

theorem amended {c : CellId} (h : Amended s t c) : Placid s t :=
  of_dropped (.of_size h.size h.tracker_all) (fun d _ => h.dropped_all d) h.observers

theorem add (s : Store (Code U)) (cell : Cell (Code U)) : Placid s (s.add cell).2 := by
  refine of_dropped (kept_add ..) (fun c hc => ?_) rfl
  rw [cell_add, if_neg hc.ne]

theorem rebind (s : Store (Code U)) (c : CellId) (b : Binding (Code U)) : Placid s (s.rebind c b) :=
  of_dropped (kept_rebind ..) (fun d _ => proj_modify Cell.dropped (fun _ => by rfl) s c d) rfl

theorem pair (s : Store (Code U)) (c root : CellId) : Placid s (s.pair c root) :=
  of_dropped (kept_modify _ _ fun _ => rfl)
    (fun d _ => proj_modify Cell.dropped (fun _ => by rfl) s c d) rfl

theorem observe (s : Store (Code U)) (c : CellId) {code : Code U Unit}
    (hcode : ∀ a, code ≠ .retarget a) : Placid s (s.observe c code).2 := by
  have hcontent := s.content_observe c code
  have hdropped d := congrArg Content.dropped (hcontent d)
  refine ⟨.of_size (size_modify ..) fun d => congrArg Content.tracker (hcontent d),
    fun h => (hdropped _).trans h, fun _ h => (hdropped _).trans h, fun {o x a} hx hretarget => ?_⟩
  have hpush : (s.observers.push ⟨c, code, false⟩)[o]? = some x := hx
  rw [Array.getElem?_push] at hpush
  split at hpush
  · cases hpush
    exact absurd hretarget (hcode a)
  · exact ⟨x, hpush, rfl, rfl⟩

theorem unobserve (s : Store (Code U)) (o : ObserverId) : Placid s (s.unobserve o) := by
  have hcontent := s.content_unobserve o
  have hdropped d := congrArg Content.dropped (hcontent d)
  exact ⟨.of_size (sameAround_unobserve ..).size fun d => congrArg Content.tracker (hcontent d),
    fun h => (hdropped _).trans h, fun _ h => (hdropped _).trans h,
    fun hx _ => observer_of_unobserve hx⟩

theorem drop {c : CellId} (hc : s.IsTracker c) : Placid s (s.drop c) := by
  have hdropped d : ((s.drop c).cell d).dropped = if d = c then true else (s.cell d).dropped := by
    have h := congrArg Content.dropped (content_drop hc.1 d)
    split at h
    · rw [if_pos ‹_›]
      exact h
    · rw [if_neg ‹_›]
      exact h
  refine ⟨kept_drop hc.1, fun {d} hd => ?_, fun {d} hd h => ?_,
    fun hx _ => ⟨_, observers_drop s c ▸ hx, rfl, rfl⟩⟩
  · rw [hdropped]
    split
    · rfl
    · exact hd
  · have hne : d ≠ c := by
      rintro rfl
      rw [IsProperty, hc.2] at hd
      cases hd.2
    rw [hdropped, if_neg hne]
    exact h

end Placid

section

variable {falling : ComponentId → Prop} {giving : RepeaterId → Prop}
  {store store' : Store (Code U)} {s t : Scene U X}

theorem Scene.Motion.cell (h : s.Motion store) {a : TransitionId} (ha : a < s.transitions.size) :
    store.IsProperty (s.transition a).cell := by
  obtain ⟨c, node, i, hi⟩ := h.registered ha
  exact h.cells (List.mem_of_getElem? (h.entry hi).2)

theorem Scene.Motion.known (h : s.Motion store) {o : ObserverId} {x : Observer (Code U)}
    (hx : store.observers[o]? = some x) : x.code.Known s.transitions.size :=
  Code.known_of_retarget fun _ ha => (h.retarget hx ha).1

theorem Scene.Motion.placid (h : s.Motion store) (hs : Placid store store') : s.Motion store' where
  cells hx := (h.cells hx).kept hs.kept
  lengths := h.lengths
  place := h.place
  entry := h.entry
  registered := h.registered
  moved := h.moved
  tracker ht := by
    exact (h.tracker ht).kept hs.kept
  still {a} ha hd := by
    refine h.still ha ?_
    by_contra hlive
    rw [hs.alive (h.cell ha) (by simpa using hlive)] at hd
    cases hd
  retarget hx ha := by
    obtain ⟨x0, hx0, hcode, hcell⟩ := hs.observer hx ha
    obtain ⟨hlt, htr | hd⟩ := h.retarget hx0 (hcode.trans ha)
    · exact ⟨hlt, .inl (hcell ▸ htr)⟩
    · exact ⟨hlt, .inr (hcell ▸ hs.gone hd)⟩
  running := h.running

theorem Scene.Fallen.placid (h : s.Fallen falling store) (hm : s.Motion store)
    (hs : Placid store store') : s.Fallen falling store' where
  flag hr := ⟨(h.flag hr).1.kept hs.kept, (h.flag hr).2⟩
  tracker hr := (h.tracker hr).kept hs.kept
  ended hr := ⟨(h.ended hr).1, hs.gone (h.ended hr).2.1, hs.gone (h.ended hr).2.2⟩
  cells hd hf node x hx := hs.gone (h.cells hd hf node x hx)
  upright hd node x hx := hs.alive (hm.cells hx) (h.upright hd node x hx)
  repeaters := h.repeaters
  handlers := h.handlers
  signal := h.signal
  owned := h.owned

theorem Living.placid (h : Living falling giving store s) (hs : Placid store store') :
    Living falling giving store' s :=
  ⟨h.tree, h.counts, h.motion.placid hs, h.fallen.placid h.motion hs⟩

end

/-! ## Later worlds -/

/-- What stays of an instance as long as nothing is released. -/
structure Component.Like (x y : Component U) : Prop where
  outer : y.outer = x.outer
  host : y.host = x.host
  window : y.window = x.window
  refs : y.refs = x.refs
  destroyed : y.destroyed = x.destroyed
  callbacks : y.callbacks = x.callbacks
  items : y.items.size = x.items.size
  scope : y.scope.cells = x.scope.cells

structure Item.Like (x y : Item) : Prop where
  parent : y.parent = x.parent
  children : y.children = x.children
  callbacks : y.callbacks = x.callbacks
  table : y.table.cells = x.table.cells

structure Repeater.Like (x y : Repeater U) : Prop where
  host : y.host = x.host
  sub : y.sub = x.sub
  flag : y.flag = x.flag
  tracker : y.tracker = x.tracker
  instances : y.instances = x.instances
  released : y.released = x.released

/-- The second scene is a later one, and nothing was released since the first. -/
structure Scene.Grows (s t : Scene U X) : Prop where
  components : s.components.size ≤ t.components.size
  component : ∀ c < s.components.size, (s.component c).Like (t.component c)
  item : ∀ it : ItemRef, it.component < s.components.size → (s.item it).Like (t.item it)
  handles : t.handles = s.handles
  repeaters : s.repeaters.size ≤ t.repeaters.size
  repeater : ∀ r < s.repeaters.size, (s.repeater r).Like (t.repeater r)
  transitions : s.transitions.size ≤ t.transitions.size
  transition : ∀ a < s.transitions.size, (t.transition a).cell = (s.transition a).cell

namespace Scene.Grows

variable {s t u : Scene U X}

theorem refl (s : Scene U X) : s.Grows s where
  components := Nat.le_refl _
  component _ _ := ⟨rfl, rfl, rfl, rfl, rfl, rfl, rfl, rfl⟩
  item _ _ := ⟨rfl, rfl, rfl, rfl⟩
  handles := rfl
  repeaters := Nat.le_refl _
  repeater _ _ := ⟨rfl, rfl, rfl, rfl, rfl, rfl⟩
  transitions := Nat.le_refl _
  transition _ _ := rfl

theorem trans (h : s.Grows t) (h' : t.Grows u) : s.Grows u where
  components := h.components.trans h'.components
  component c hc := by
    have x := h.component c hc
    have y := h'.component c (hc.trans_le h.components)
    exact ⟨y.outer.trans x.outer, y.host.trans x.host, y.window.trans x.window,
      y.refs.trans x.refs, y.destroyed.trans x.destroyed, y.callbacks.trans x.callbacks,
      y.items.trans x.items, y.scope.trans x.scope⟩
  item it hit := by
    have x := h.item it hit
    have y := h'.item it (hit.trans_le h.components)
    exact ⟨y.parent.trans x.parent, y.children.trans x.children, y.callbacks.trans x.callbacks,
      y.table.trans x.table⟩
  handles := h'.handles.trans h.handles
  repeaters := h.repeaters.trans h'.repeaters
  repeater r hr := by
    have x := h.repeater r hr
    have y := h'.repeater r (hr.trans_le h.repeaters)
    exact ⟨y.host.trans x.host, y.sub.trans x.sub, y.flag.trans x.flag,
      y.tracker.trans x.tracker, y.instances.trans x.instances, y.released.trans x.released⟩
  transitions := h.transitions.trans h'.transitions
  transition a ha :=
    (h'.transition a (ha.trans_le h.transitions)).trans (h.transition a ha)

theorem table (h : s.Grows t) {c : ComponentId} (hc : c < s.components.size) (node : Option Nat) :
    (t.table c node).cells = (s.table c node).cells := by
  cases node with
  | none => exact (h.component c hc).scope
  | some n => exact (h.item ⟨c, n⟩ hc).table

end Scene.Grows

/-- The second scene is a later one, and since the first nothing was released or built. -/
structure Scene.Stays (s t : Scene U X) : Prop where
  components : t.components = s.components
  handles : t.handles = s.handles
  repeaters : t.repeaters.size = s.repeaters.size
  repeater : ∀ r < s.repeaters.size, (s.repeater r).Like (t.repeater r)
  transitions : s.transitions.size ≤ t.transitions.size
  transition : ∀ a < s.transitions.size, (t.transition a).cell = (s.transition a).cell

namespace Scene.Stays

variable {s t u : Scene U X}

theorem refl (s : Scene U X) : s.Stays s :=
  ⟨rfl, rfl, rfl, fun _ _ => ⟨rfl, rfl, rfl, rfl, rfl, rfl⟩, Nat.le_refl _, fun _ _ => rfl⟩

theorem grows (h : s.Stays t) : s.Grows t where
  components := Nat.le_of_eq (by rw [h.components])
  component c _ := by
    rw [show t.component c = s.component c by simp only [component, h.components]]
    exact ⟨rfl, rfl, rfl, rfl, rfl, rfl, rfl, rfl⟩
  item it _ := by
    rw [show t.item it = s.item it by simp only [item, component, h.components]]
    exact ⟨rfl, rfl, rfl, rfl⟩
  handles := h.handles
  repeaters := Nat.le_of_eq h.repeaters.symm
  repeater := h.repeater
  transitions := h.transitions
  transition := h.transition

theorem trans (h : s.Stays t) (h' : t.Stays u) : s.Stays u where
  components := h'.components.trans h.components
  handles := h'.handles.trans h.handles
  repeaters := h'.repeaters.trans h.repeaters
  repeater := (h.grows.trans h'.grows).repeater
  transitions := h.transitions.trans h'.transitions
  transition := (h.grows.trans h'.grows).transition

end Scene.Stays

/-- The second world is a later one: its scene comes after the first in an order, and of the
cells only trackers were dropped. -/
structure Lasts (order : Scene U X → Scene U X → Prop) (store : Store (Code U)) (s : Scene U X)
    (store' : Store (Code U)) (t : Scene U X) : Prop where
  kept : Kept store store'
  alive : ∀ {c}, store.IsProperty c → (store.cell c).dropped = false →
    (store'.cell c).dropped = false
  scene : order s t

namespace Lasts

variable {order : Scene U X → Scene U X → Prop} {store store' store'' : Store (Code U)}
  {s t u : Scene U X}

theorem trans (horder : ∀ {s t u}, order s t → order t u → order s u)
    (h : Lasts order store s store' t) (h' : Lasts order store' t store'' u) :
    Lasts order store s store'' u where
  kept := h.kept.trans h'.kept
  alive hc hd := h'.alive (hc.kept h.kept) (h.alive hc hd)
  scene := horder h.scene h'.scene

theorem mono {order' : Scene U X → Scene U X → Prop} (horder : ∀ {s t}, order s t → order' s t)
    (h : Lasts order store s store' t) : Lasts order' store s store' t :=
  ⟨h.kept, h.alive, horder h.scene⟩

end Lasts

abbrev Grows (store : Store (Code U)) (s : Scene U X) (store' : Store (Code U))
    (t : Scene U X) : Prop := Lasts Scene.Grows store s store' t

abbrev Stays (store : Store (Code U)) (s : Scene U X) (store' : Store (Code U))
    (t : Scene U X) : Prop := Lasts Scene.Stays store s store' t

namespace Stays

variable {store store' store'' : Store (Code U)} {s t u : Scene U X}

theorem refl (store : Store (Code U)) (s : Scene U X) : Stays store s store s :=
  ⟨.refl _, fun _ h => h, .refl _⟩

theorem placid (h : Placid store store') (s : Scene U X) : Stays store s store' s :=
  ⟨h.kept, h.alive, .refl _⟩

theorem change (store : Store (Code U)) (h : s.Stays t) : Stays store s store t :=
  ⟨.refl _, fun _ h => h, h⟩

theorem and_then (h : Stays store s store' t) (h' : Stays store' t store'' u) :
    Stays store s store'' u := h.trans Scene.Stays.trans h'

theorem grows (h : Stays store s store' t) : Grows store s store' t := h.mono Scene.Stays.grows

end Stays

theorem Grows.and_then {store store' store'' : Store (Code U)} {s t u : Scene U X}
    (h : Grows store s store' t) (h' : Grows store' t store'' u) : Grows store s store'' u :=
  h.trans Scene.Grows.trans h'

/-! ## The regime -/

/-- A relation between a world and a later one. -/
abbrev WorldOrder (U X : Type) :=
  Store (Code U) → Scene U X → Store (Code U) → Scene U X → Prop

/-- An order of worlds in which a world with nothing released or built is a later one. -/
class Onward (le : WorldOrder U X) : Prop where
  stays : ∀ {store s store' t}, Stays store s store' t → le store s store' t
  trans : ∀ {store s store' t store'' u}, le store s store' t → le store' t store'' u →
    le store s store'' u
  kept : ∀ {store s store' t}, le store s store' t → Kept store store'

instance onward_stays : Onward (U := U) (X := X) Stays := ⟨fun h => h, Stays.and_then, Lasts.kept⟩

instance onward_grows : Onward (U := U) (X := X) Grows := ⟨Stays.grows, Grows.and_then, Lasts.kept⟩

/-- Runs that keep the invariant and end in a world that is later in a given order. -/
def living (le : WorldOrder U X) : Regime (Scene U X) (Code U) Unit where
  holds _ w := w.Sound
  le _ w _ w' := le w.store w.host.1 w'.store w'.host.1
  admits _ w code := code.Known w.host.1.transitions.size
  returns _ _ _ _ := True
  fits _ _ _ _ := True
  stops _ := True

instance living_ok {le : WorldOrder U X} [h : Onward le] : (living le).Lawful where
  refl _ _ := h.stays (.refl ..)
  trans h1 h2 := h.trans h1 h2
  kept := h.kept
  note _ _ hw := ⟨hw, h.stays (.refl ..)⟩
  akin hw hs := ⟨Living.placid hw (.akin hs), h.stays (.placid (.akin hs) _)⟩
  amend hw hs _ _ := ⟨Living.placid hw (.amended hs), h.stays (.placid (.amended hs) _)⟩
  code _ _ := ⟨Code.known .., fun _ _ => trivial⟩
  observer hw ho := Scene.Motion.known hw.motion ho

theorem living_mono {α : Type} {nested : SceneNested U X} {w : SceneTale U X}
    {le le' : WorldOrder U X} (h : ∀ {store s store' t}, le store s store' t → le' store s store' t)
    {act : SceneM U X α} {Q : Unit → SceneTale U X → α → Prop}
    (hact : (living le).Runs nested () w act Q) : (living le').Runs nested () w act Q := by
  exact Regime.Goes.weaken hact (fun _ _ hle hw' => ⟨h hle, hw'⟩)
    (fun _ _ => trivial) fun _ => trivial

/-- Runs that neither release nor build anything. -/
abbrev lasting {U X : Type} : Regime (Scene U X) (Code U) Unit := living Stays

section

variable {nested : SceneNested U X} {w : SceneTale U X}

theorem lasting_store (hw : w.Sound) {s : Store (Code U)} (hs : Placid w.store s) :
    Sound s w.host.1 ∧ Stays w.store w.host.1 s w.host.1 :=
  ⟨hw.placid hs, Stays.placid hs _⟩

theorem lasting_observe (hw : w.Sound) (c : CellId) {code : Code U Unit}
    (hcode : ∀ a, code ≠ .retarget a) : lasting.Keeps nested () w (.observe c code) :=
  .observe hw (fun _ => trivial) fun _ =>
    lasting_store hw (.observe w.store c hcode)

theorem lasting_unobserve (hw : w.Sound) (o : ObserverId) :
    lasting.Keeps nested () w (.unobserve o) :=
  .unobserve hw fun _ => lasting_store hw (.unobserve w.store o)

variable (hN : lasting.Obeys nested)
include hN

theorem lasting_get (hw : w.Sound) (c : CellId) :
    lasting.Keeps nested () w (.get c) :=
  .get hN hw (.inr trivial)

theorem lasting_peek (hw : w.Sound) (c : CellId) :
    lasting.Keeps nested () w (Act.peek c) :=
  .untracked hw (fun _ _ hw' => lasting_get hN hw' c) Regime.stable_true

theorem lasting_set (hw : w.Sound) (c : CellId) (v : Value) :
    lasting.Keeps nested () w (.set c v) :=
  .set hN hw (.inr trivial) trivial trivial

theorem lasting_setBinding (hw : w.Sound) (c : CellId) (code : Code U Value) :
    lasting.Keeps nested () w (.setBinding c code) := by
  refine .setBinding hN hw (.inr trivial) trivial fun w' _ hw' hstore _ _ => ?_
  have hs := Placid.rebind w.store c (.code code)
  rw [← hstore] at hs ⊢
  exact ⟨Living.placid hw' hs, Stays.placid hs _⟩

theorem lasting_link (hw : w.Sound) (a b : CellId) :
    lasting.Keeps nested () w (.link a b) := by
  refine .link hw (fun _ => trivial) trivial fun hn _ =>
    living_ok.linkTo hN hn (fun _ => trivial) (fun _ _ => ?_) fun _ _ w' _ hw' => ?_
  · exact ⟨Living.placid hn (.rebind ..), Stays.placid (.rebind ..) _⟩
  · exact ⟨(), Living.placid hw' (.pair ..), Stays.placid (.pair ..) _, trivial⟩

end

end ReactiveTree
