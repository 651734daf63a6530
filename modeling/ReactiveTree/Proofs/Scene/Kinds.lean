import ReactiveTree.Proofs.Definition.Consistent
import ReactiveTree.Proofs.Scene.Composed
import ReactiveTree.Proofs.Scene.Objects

/-!
# Kinds in a scene

Every cell has a role, given to it when it is made: it holds values of a kind, or tracks something.
The list of roles is a ghost; no program sees it. That a scene and its store agree with the roles
is a regime. A value that is not written comes from code, a link or a transition, so the invariant
says of the code bound to a cell that it converts to the kind of the cell, of links that they join
equal kinds, and of a transition that it moves between values of the kind of its cell.
-/

namespace ReactiveTree

open Store

variable {U X : Type}
variable {c : CellId} {s : Store (Code U)} {v : Value}

/-! ## Roles -/

inductive Role where
  /-- It holds values of a kind. -/
  | holds (kind : Kind)
  /-- It tracks the binding of a transition. -/
  | follows (a : TransitionId)
  /-- It tracks the model of a repeater. -/
  | counts

def Role.kind : Role → Kind
  | .holds k => k
  | _ => .void

/-- The role of a cell. Numbers without a cell take anything. -/
def roleAt (g : List Role) (c : CellId) : Role := g.getD c (.holds .void)

def kindAt (g : List Role) (c : CellId) : Kind := (roleAt g c).kind

theorem roleAt_extend {g g' : List Role} (h : g <+: g') (hc : c < g.length) :
    roleAt g' c = roleAt g c := by
  obtain ⟨more, rfl⟩ := h
  simp [roleAt, List.getElem?_append_left hc]

theorem kindAt_extend {g g' : List Role} (h : g <+: g') (hc : c < g.length) :
    kindAt g' c = kindAt g c := congrArg Role.kind (roleAt_extend h hc)

def FitsAt (g : List Role) (c : CellId) (v : Value) : Prop := c < g.length ∧ v.Fits (kindAt g c)

theorem FitsAt.mono {g g' : List Role} (h : g <+: g') (hv : FitsAt g c v) : FitsAt g' c v := by
  refine ⟨hv.1.trans_le h.length_le, ?_⟩
  rw [kindAt_extend h hv.1]
  exact hv.2

theorem roleAt_append (g : List Role) (x : Role) : roleAt (g ++ [x]) g.length = x := by
  simp [roleAt]

/-! ## Code -/

namespace Code

/-- What it computes has kind `k`. -/
def Yields (code : Code U Value) (k : Kind) : Prop :=
  k = .void ∨ ∃ name body, code = .coerced name k body

theorem Yields.fits {code : Code U Value} {k : Kind} (h : code.Yields k)
    (hv : code.Returns v) : v.Fits k := by
  rcases h with rfl | ⟨name, body, rfl⟩
  · exact v.fits_void
  · exact hv

end Code

/-! ## The store -/

structure Content.Kinded (g : List Role) (c : CellId) (x : Content (Code U)) : Prop where
  value : x.value.Fits (kindAt g c)
  code : ∀ code, x.binding = some (.code code) → code.Yields (kindAt g c)
  follow : ∀ r, x.binding = some (.follow r) → r < g.length ∧ kindAt g r = kindAt g c
  partner : ∀ r, x.partner = some r → r < g.length ∧ kindAt g r = kindAt g c

theorem Content.Kinded.mono {g g' : List Role} (hg : g <+: g') (hc : c < g.length)
    {x : Content (Code U)} (h : x.Kinded g c) : x.Kinded g' c := by
  have hk := kindAt_extend hg hc
  have hle := hg.length_le
  constructor
  · rw [hk]
    exact h.value
  · intro code hcode
    rw [hk]
    exact h.code code hcode
  · intro r hr
    obtain ⟨hlt, heq⟩ := h.follow r hr
    exact ⟨hlt.trans_le hle, by rw [kindAt_extend hg hlt, hk, heq]⟩
  · intro r hr
    obtain ⟨hlt, heq⟩ := h.partner r hr
    exact ⟨hlt.trans_le hle, by rw [kindAt_extend hg hlt, hk, heq]⟩

/-- A cell without binding and partner is in order if its value is. -/
theorem Content.Kinded.plain {g : List Role} {x : Content (Code U)}
    (hv : x.value.Fits (kindAt g c)) (hb : x.binding = none) (hp : x.partner = none) :
    x.Kinded g c :=
  ⟨hv, by simp [hb], by simp [hb], by simp [hp]⟩

structure Store.Kinded (g : List Role) (s : Store (Code U)) : Prop where
  length : g.length = s.cells.size
  /-- The cell of the clock. -/
  clock : g[0]? = some (.holds .void)
  cells : ∀ c < s.cells.size, (s.cell c).content.Kinded g c

namespace Store.Kinded

variable {g g' : List Role} {s t : Store (Code U)}

theorem pos (h : s.Kinded g) : 0 < g.length := by
  have := h.clock
  by_contra hlt
  simp [Nat.le_zero.1 (not_lt.1 hlt)] at this

theorem roleAt_zero (h : s.Kinded g) : roleAt g 0 = .holds .void := by
  simp [roleAt, h.clock]

theorem change (h : s.Kinded g) (hsize : t.cells.size = s.cells.size)
    (hcell : ∀ c < s.cells.size, (s.cell c).content.Kinded g c → (t.cell c).content.Kinded g c) :
    t.Kinded g := by
  refine ⟨h.length.trans hsize.symm, h.clock, ?_⟩
  intro c hc
  rw [hsize] at hc
  exact hcell c hc (h.cells c hc)

theorem akin (h : s.Kinded g) (hk : Akin s t) : t.Kinded g :=
  h.change hk.size fun c _ hc => hk.content c ▸ hc

/-- A cell loses its binding and its partner, or keeps them, and may take a value that fits. -/
theorem amend (h : s.Kinded g) (ha : Amended s t c)
    (hv : (t.cell c).value.Fits (kindAt g c) ∨ (t.cell c).value = (s.cell c).value) :
    t.Kinded g := by
  refine h.change ha.size fun d hd hold => ?_
  by_cases hdc : d = c
  · subst hdc
    have hv : (t.cell d).value.Fits (kindAt g d) := hv.elim id fun h => h ▸ hold.value
    rcases ha.detached with ⟨hb, hp⟩ | ⟨hb, hp⟩
    · exact .plain hv hb hp
    · refine ⟨hv, fun code hcode => ?_, fun r hr => ?_, fun r hr => ?_⟩
      · exact hold.code code (hb.symm.trans hcode)
      · exact hold.follow r (hb.symm.trans hr)
      · exact hold.partner r (hp.symm.trans hr)
  · rw [ha.other d hdc]
    exact hold

theorem add (h : s.Kinded g) (cell : Cell (Code U)) (x : Role)
    (hcell : cell.content.Kinded (g ++ [x]) s.cells.size) : (s.add cell).2.Kinded (g ++ [x]) := by
  have hsize : (s.add cell).2.cells.size = s.cells.size + 1 := Array.size_push _
  have hpos := h.pos
  refine ⟨by simp [hsize, h.length], ?_, fun c hc => ?_⟩
  · rw [List.getElem?_append_left hpos]
    exact h.clock
  · rw [hsize] at hc
    rw [s.cell_add cell c]
    split
    · subst c
      exact hcell
    · rename_i hne
      have hlt : c < s.cells.size := Nat.lt_of_le_of_ne (Nat.le_of_lt_succ hc) hne
      exact (h.cells c hlt).mono (List.prefix_append g [x]) (h.length ▸ hlt)

theorem drop (h : s.Kinded g) {c : CellId} (hc : c < s.cells.size) : (s.drop c).Kinded g := by
  refine h.change (s.size_drop c) fun d _ hold => ?_
  rw [content_drop hc]
  split
  · subst d
    exact .plain hold.value rfl rfl
  · exact hold

theorem rebind (h : s.Kinded g) {c : CellId} (hc : c < s.cells.size) {b : Binding (Code U)}
    (hcode : ∀ code, b = .code code → code.Yields (kindAt g c))
    (hfollow : ∀ r, b = .follow r → r < g.length ∧ kindAt g r = kindAt g c) :
    (s.rebind c b).Kinded g := by
  refine h.change (size_modify ..) fun d _ hold => ?_
  rw [content_rebind hc]
  split
  · subst d
    exact ⟨hold.value, fun code h => hcode code (Option.some.inj h),
      fun r h => hfollow r (Option.some.inj h), nofun⟩
  · exact hold

theorem pair (h : s.Kinded g) {c root : CellId} (hc : c < s.cells.size) (hroot : root < g.length)
    (hkind : kindAt g root = kindAt g c) : (s.pair c root).Kinded g := by
  refine h.change (size_modify ..) fun d _ hold => ?_
  rw [content_pair hc]
  split
  · subst d
    refine ⟨hold.value, hold.code, hold.follow, ?_⟩
    intro r hr
    cases hr
    exact ⟨hroot, hkind⟩
  · exact hold

end Store.Kinded

/-! ## The scene -/

/-- The cells of a table hold what it declares, and the transitions in it move its cells. -/
structure Table.Kinded (g : List Role) (transitions : Array (Transition U)) (t : Table) : Prop where
  length : t.cells.length = t.decls.length
  cells : ∀ (i : Nat) cell decl, t.cells[i]? = some cell → t.decls[i]? = some decl →
    cell < g.length ∧ roleAt g cell = .holds decl.kind
  moves : ∀ i a, (i, a) ∈ t.transitions →
    a < transitions.size ∧ t.cells[i]? = some (transitions.getD a default).cell

structure Transition.Kinded (g : List Role) (a : TransitionId) (t : Transition U) : Prop where
  cell : t.cell < g.length
  interpolate : t.interpolate = Lerp.value
  target : t.target.Fits (kindAt g t.cell)
  source : t.running = true → t.source.Fits (kindAt g t.cell)
  binding : ∀ code, t.binding = some code → code.Yields (kindAt g t.cell)
  tracker : ∀ c, t.tracker = some c → c < g.length ∧ roleAt g c = .follows a

/-- The declarations of a row: its data is untyped and its number an int. -/
def RowDecls (decls : List PropDecl) : Prop :=
  ∀ decl ∈ decls, (decl.name = "model_data" → decl.kind = .void) ∧
    (decl.name = "index" → decl.kind = .int)

/-- All that a definition repeats declares its rows so. -/
inductive Definition.Rowed : Definition U → Prop where
  | intro {d : Definition U} (declared : ∀ x ∈ d.repeats, RowDecls x.2.1.declared)
      (rows : ∀ x ∈ d.repeats, Rowed x.2.1) : Rowed d

theorem Definition.Rowed.rows {d : Definition U} (h : d.Rowed) :
    ∀ x ∈ d.repeats, RowDecls x.2.1.declared ∧ x.2.1.Rowed := by
  cases h with
  | intro declared rows => exact fun x hx => ⟨declared x hx, rows x hx⟩

structure Repeater.Kinded (g : List Role) (isRow : HandleId → Prop) (x : Repeater U) : Prop where
  flag : x.flag < g.length ∧ roleAt g x.flag = .holds .void
  tracker : x.tracker < g.length ∧ ∀ a, roleAt g x.tracker ≠ .follows a
  made : x.sub.Made
  declared : RowDecls x.sub.declared
  rowed : x.sub.Rowed
  instances : ∀ h ∈ x.instances.list, isRow h

namespace Scene

/-- A handle of an instance that declares its row. -/
def IsRow (s : Scene U X) (h : HandleId) : Prop :=
  h < s.handles.size ∧ (s.handle h).component < s.components.size ∧
    RowDecls (s.component (s.handle h).component).scope.decls

structure Kinded (g : List Role) (s : Scene U X) : Prop where
  clock : s.clock.cell = 0
  running : ∀ a ∈ s.clock.running, a < s.transitions.size
  tables : ∀ c node, (s.table c node).Kinded g s.transitions
  moves : ∀ c x a, (x, a) ∈ (s.component c).transitions →
    a < s.transitions.size ∧ (s.transition a).cell = x
  transitions : ∀ a, (s.transition a).Kinded g a
  repeaters : ∀ r, (s.repeater r).Kinded g s.IsRow

/-- What stays as it is while a scene goes on: the cells that transitions move and the tables
of components. A transition that once moved between values of its kind keeps doing so. -/
structure Later (g : List Role) (s t : Scene U X) : Prop where
  transitions : s.transitions.size ≤ t.transitions.size
  cell : ∀ a < s.transitions.size, (t.transition a).cell = (s.transition a).cell
  source : ∀ a < s.transitions.size, (s.transition a).cell < g.length →
    (s.transition a).source.Fits (kindAt g (s.transition a).cell) →
    (t.transition a).source.Fits (kindAt g (s.transition a).cell)
  components : s.components.size ≤ t.components.size
  decls : ∀ c < s.components.size, ∀ node, (t.table c node).decls = (s.table c node).decls
  cells : ∀ c < s.components.size, ∀ node, (t.table c node).cells = (s.table c node).cells
  handles : s.handles.size ≤ t.handles.size
  component : ∀ h < s.handles.size, (t.handle h).component = (s.handle h).component

namespace Later

variable {g g' : List Role} {s t u : Scene U X}

theorem refl (g : List Role) (s : Scene U X) : Later g s s where
  transitions := Nat.le_refl _
  cell _ _ := rfl
  source _ _ _ h := h
  components := Nat.le_refl _
  decls _ _ _ := rfl
  cells _ _ _ := rfl
  handles := Nat.le_refl _
  component _ _ := rfl

theorem trans (hg : g <+: g') (h : Later g s t) (h' : Later g' t u) : Later g s u where
  transitions := h.transitions.trans h'.transitions
  cell a ha := (h'.cell a (ha.trans_le h.transitions)).trans (h.cell a ha)
  source a ha hc hs := by
    have hlt := ha.trans_le h.transitions
    have hcell := h.cell a ha
    have hkind := kindAt_extend hg hc
    have hlater := h'.source a hlt
    rw [hcell, hkind] at hlater
    exact hlater (hc.trans_le hg.length_le) (h.source a ha hc hs)
  components := h.components.trans h'.components
  decls c hc node := (h'.decls c (hc.trans_le h.components) node).trans
    (h.decls c hc node)
  cells c hc node := (h'.cells c (hc.trans_le h.components) node).trans
    (h.cells c hc node)
  handles := h.handles.trans h'.handles
  component x hx :=
    (h'.component x (hx.trans_le h.handles)).trans (h.component x hx)

theorem isRow (h : Later g s t) {x : HandleId} (hx : s.IsRow x) : t.IsRow x := by
  obtain ⟨hlt, hc, hrow⟩ := hx
  have hcomp := h.component x hlt
  refine ⟨hlt.trans_le h.handles, ?_, ?_⟩
  · rw [hcomp]
    exact hc.trans_le h.components
  · rw [hcomp]
    have hdecls : (t.component (s.handle x).component).scope.decls = _ := h.decls _ hc none
    rw [hdecls]
    exact hrow

end Later

end Scene

section

variable {g g' : List Role} (hg : g <+: g')
include hg

theorem Table.Kinded.mono {ts ts' : Array (Transition U)} {t : Table} (h : t.Kinded g ts)
    (hsize : ts.size ≤ ts'.size)
    (hcell : ∀ a < ts.size, (ts'.getD a default).cell = (ts.getD a default).cell) :
    t.Kinded g' ts' := by
  refine ⟨h.length, fun i cell decl hcell hdecl => ?_, fun i a ha => ?_⟩
  · obtain ⟨hlt, hrole⟩ := h.cells i cell decl hcell hdecl
    exact ⟨hlt.trans_le hg.length_le, (roleAt_extend hg hlt).trans hrole⟩
  · obtain ⟨hlt, hmove⟩ := h.moves i a ha
    exact ⟨hlt.trans_le hsize, hmove.trans (by rw [hcell a hlt])⟩

theorem Transition.Kinded.mono {a : TransitionId} {t : Transition U} (h : t.Kinded g a) :
    t.Kinded g' a := by
  have hk := kindAt_extend hg h.cell
  refine ⟨h.cell.trans_le hg.length_le, h.interpolate, ?_, ?_, ?_, fun c hc => ?_⟩
  · rw [hk]
    exact h.target
  · rw [hk]
    exact h.source
  · rw [hk]
    exact h.binding
  · obtain ⟨hlt, hrole⟩ := h.tracker c hc
    exact ⟨hlt.trans_le hg.length_le, (roleAt_extend hg hlt).trans hrole⟩

theorem Repeater.Kinded.mono {isRow isRow' : HandleId → Prop} {x : Repeater U}
    (h : x.Kinded g isRow) (hrow : ∀ i, isRow i → isRow' i) : x.Kinded g' isRow' where
  flag := ⟨h.flag.1.trans_le hg.length_le,
    (roleAt_extend hg h.flag.1).trans h.flag.2⟩
  tracker := ⟨h.tracker.1.trans_le hg.length_le, fun a => by
    rw [roleAt_extend hg h.tracker.1]
    exact h.tracker.2 a⟩
  made := h.made
  declared := h.declared
  rowed := h.rowed
  instances i hi := hrow i (h.instances i hi)

end

namespace Scene

variable {g g' : List Role} {s t : Scene U X}

theorem Kinded.mono (h : s.Kinded g) (hg : g <+: g') : s.Kinded g' where
  clock := h.clock
  running := h.running
  tables c node := (h.tables c node).mono hg (Nat.le_refl _) fun _ _ => rfl
  moves := h.moves
  transitions a := (h.transitions a).mono hg
  repeaters r := (h.repeaters r).mono hg fun _ h => h

/-- A scene goes on: each object stays as it is, or is in order. -/
theorem Kinded.change (h : s.Kinded g) (hl : s.Later g t) (hclock : t.clock.cell = s.clock.cell)
    (hrunning : ∀ a ∈ t.clock.running, a < t.transitions.size)
    (htables : ∀ c node, t.table c node = s.table c node ∨ (t.table c node).Kinded g t.transitions)
    (hmoves : ∀ c x a, (x, a) ∈ (t.component c).transitions →
      (x, a) ∈ (s.component c).transitions ∨ a < t.transitions.size ∧ (t.transition a).cell = x)
    (htransitions : ∀ a, t.transition a = s.transition a ∨ (t.transition a).Kinded g a)
    (hrepeaters : ∀ r, t.repeater r = s.repeater r ∨ (t.repeater r).Kinded g t.IsRow) :
    t.Kinded g := by
  have hcells : ∀ a < s.transitions.size, (t.transition a).cell = (s.transition a).cell := hl.cell
  refine ⟨hclock.trans h.clock, hrunning, fun c node => ?_, fun c x a ha => ?_, fun a => ?_,
    fun r => ?_⟩
  · rcases htables c node with heq | hkinded
    · rw [heq]
      exact (h.tables c node).mono (List.prefix_refl g) hl.transitions hcells
    · exact hkinded
  · rcases hmoves c x a ha with hold | hnew
    · obtain ⟨hlt, hx⟩ := h.moves c x a hold
      exact ⟨hlt.trans_le hl.transitions, (hcells a hlt).trans hx⟩
    · exact hnew
  · rcases htransitions a with heq | hkinded
    · rw [heq]
      exact h.transitions a
    · exact hkinded
  · rcases hrepeaters r with heq | hkinded
    · rw [heq]
      exact (h.repeaters r).mono (List.prefix_refl g) fun _ => hl.isRow
    · exact hkinded

/-- Signals, models, peers, windows, the state of user code and whether the clock ticks have
nothing to do with kinds. -/
theorem Kinded.aside (h : s.Kinded g) (ticking : Bool) (signals : Array (Signal U))
    (vectors : Array VectorModel) (peers : Array (UserPeer U)) (windows : Array Window) (user : X) :
    Kinded g { s with clock := { s.clock with ticking }, signals, vectors, peers, windows, user } :=
  ⟨h.clock, h.running, h.tables, h.moves, h.transitions, h.repeaters⟩

theorem later_aside (g : List Role) (s : Scene U X) (ticking : Bool) (signals : Array (Signal U))
    (vectors : Array VectorModel) (peers : Array (UserPeer U)) (windows : Array Window) (user : X) :
    s.Later g
      { s with clock := { s.clock with ticking }, signals, vectors, peers, windows, user } :=
  ⟨Nat.le_refl _, fun _ _ => rfl, fun _ _ _ h => h, Nat.le_refl _, fun _ _ _ => rfl,
    fun _ _ _ => rfl, Nat.le_refl _, fun _ _ => rfl⟩

end Scene

/-! ## The regime -/

/-- A scene and a store in which every cell holds what its role says, now and at every moment
of the past. -/
structure KindedTale (g : List Role) (w : Tale (Scene U X) (Code U)) : Prop where
  store : w.store.Kinded g
  scene : w.host.1.Kinded g
  /-- The binding of a transition is tracked while there is one. -/
  alive : ∀ a c, (w.host.1.transition a).tracker = some c → (w.store.cell c).dropped = false
  observers : ∀ (o : ObserverId) x, w.store.observers[o]? = some x →
    x.code.Known w.host.1.transitions.size
  past : ∀ m ∈ w.past, m.store.cells.size ≤ g.length ∧
    ∀ c < m.store.cells.size, (m.store.cell c).value.Fits (kindAt g c)

structure KindedLater (g : List Role) (w : Tale (Scene U X) (Code U)) (g' : List Role)
    (w' : Tale (Scene U X) (Code U)) : Prop where
  roles : g <+: g'
  kept : Kept w.store w'.store
  scene : w.host.1.Later g w'.host.1

def kinding : Regime (Scene U X) (Code U) (List Role) where
  holds := KindedTale
  le := KindedLater
  admits _ w code := code.Known w.host.1.transitions.size
  returns _ _ code v := code.Returns v
  fits g _ c v := FitsAt g c v
  stops _ := True

theorem lt_size_of_binding {b : Binding (Code U)}
    (h : (s.cell c).binding = some b) : c < s.cells.size := by
  by_contra hlt
  rw [cell_of_size_le (not_lt.1 hlt)] at h
  cases h

section

variable {g g' : List Role} {w w' : SceneTale U X}

theorem KindedTale.withStore (hw : KindedTale g w) (hs : s.Kinded g)
    (hkept : Kept w.store s) (hdropped : ∀ a c, (w.host.1.transition a).tracker = some c →
      (w.store.cell c).dropped = false → (s.cell c).dropped = false)
    (hobs : ∀ (o : ObserverId) x, s.observers[o]? = some x →
    x.code.Known w.host.1.transitions.size) : KindedTale g (w.withStore s) ∧ KindedLater g w g
      (w.withStore s) :=
  ⟨⟨hs, hw.scene, fun a c hc => hdropped a c hc (hw.alive a c hc), hobs, hw.past⟩,
    List.prefix_refl g, hkept, .refl g _⟩

theorem KindedTale.withHost (hw : KindedTale g w) {s : Scene U X} (hs : s.Kinded g)
    (hlater : w.host.1.Later g s)
    (halive : ∀ a c, (s.transition a).tracker = some c → (w.store.cell c).dropped = false) :
    KindedTale g (w.withHost s) ∧ KindedLater g w g (w.withHost s) :=
  ⟨⟨hw.store, hs, halive, fun o x hx => (hw.observers o x hx).mono hlater.transitions, hw.past⟩,
    List.prefix_refl g, .refl _, hlater⟩

instance kinding_ok : (kinding (U := U) (X := X)).Lawful where
  refl g w := ⟨List.prefix_refl g, .refl _, .refl g _⟩
  trans h h' := ⟨h.roles.trans h'.roles, h.kept.trans h'.kept, h.scene.trans h.roles h'.scene⟩
  kept h := h.kept
  note {g w} e _ hw := by
    refine ⟨⟨hw.store, hw.scene, hw.alive, hw.observers, ?_⟩, List.prefix_refl g, .refl _,
      .refl g _⟩
    refine List.forall_mem_cons.2 ⟨⟨Nat.le_of_eq hw.store.length.symm, ?_⟩, hw.past⟩
    exact fun c hc => (hw.store.cells c hc).value
  akin hw hk := hw.withStore (hw.store.akin hk) hk.kept (fun _ c _ h => hk.dropped c ▸ h)
    (hk.observers ▸ hw.observers)
  amend hw ha hv _ := hw.withStore (hw.store.amend ha (hv.imp_left And.right))
    (.of_size ha.size ha.tracker_all) (fun _ c _ h => ha.dropped_all c ▸ h)
      (ha.observers ▸ hw.observers)
  code {g w c code} hw hb := by
    have hlt := lt_size_of_binding hb
    have hcode := (hw.store.cells c hlt).code code hb
    have hg : c < g.length := hw.store.length ▸ hlt
    refine ⟨code.known _, fun {g' w' v} hle hv => ?_⟩
    have hroles : g <+: g' := hle.roles
    refine ⟨hg.trans_le hroles.length_le, ?_⟩
    rw [kindAt_extend hroles hg]
    exact hcode.fits hv
  follow {g w c r} hw hb := by
    have hlt := lt_size_of_binding hb
    have hg : c < g.length := hw.store.length ▸ hlt
    obtain ⟨hr, hkind⟩ := (hw.store.cells c hlt).follow r hb
    refine ⟨.inr trivial, fun {g' w' v} hle hv => ?_⟩
    have hroles : g <+: g' := hle.roles
    refine ⟨hg.trans_le hroles.length_le, ?_⟩
    rw [kindAt_extend hroles hg, ← hkind, ← kindAt_extend hroles hr]
    exact hv.2
  partner {g w c p v} hw hp hv := by
    have hlt : c < w.store.cells.size := hw.store.length ▸ hv.1
    obtain ⟨hr, hkind⟩ := (hw.store.cells c hlt).partner p (partner?_eq_some hp).1
    exact ⟨hr, hkind ▸ hv.2⟩
  value {g w c} hw hc := ⟨hw.store.length ▸ hc, (hw.store.cells c hc).value⟩
  observer hw ho := hw.observers _ _ ho
  fits_mono h hv := hv.mono h.roles
  shows_mono h hv := hv.mono h.roles

/-! ## Steps of programs -/

theorem KindedTale.grow (hw : KindedTale g w) (x : Role)
    (hs : s.Kinded (g ++ [x])) (hkept : Kept w.store s)
    (hdropped : ∀ c < w.store.cells.size, (s.cell c).dropped = (w.store.cell c).dropped)
    (hobs : ∀ (o : ObserverId) x, s.observers[o]? = some x →
    x.code.Known w.host.1.transitions.size) : KindedTale (g ++ [x]) (w.withStore s) ∧
      KindedLater g w (g ++ [x]) (w.withStore s) := by
  have hg : g <+: g ++ [x] := List.prefix_append g [x]
  refine ⟨⟨hs, hw.scene.mono hg, fun a c hc => ?_, hobs, fun m hm => ?_⟩, hg, hkept, .refl g _⟩
  · have hlt : c < w.store.cells.size := hw.store.length ▸ ((hw.scene.transitions a).tracker c hc).1
    exact (hdropped c hlt).trans (hw.alive a c hc)
  · obtain ⟨hsize, hfits⟩ := hw.past m hm
    refine ⟨hsize.trans hg.length_le, fun c hc => ?_⟩
    rw [kindAt_extend hg (hc.trans_le hsize)]
    exact hfits c hc

variable {nested : SceneNested U X}

section

variable (hw : KindedTale g w)
include hw

theorem kinding_new (name : String) {k : Kind} (hv : v.Fits k) :
    kinding.Runs nested g w (.new name v) fun g' _ c =>
      c < g'.length ∧ roleAt g' c = .holds k := by
  refine .step rfl hw fun hn => ?_
  have hlen := hw.store.length
  have hrole : roleAt (g ++ [.holds k]) w.store.cells.size = .holds k := by
    rw [← hlen, roleAt_append]
  have hkind : kindAt (g ++ [.holds k]) w.store.cells.size = k := congrArg Role.kind hrole
  have hcell : ({ name, value := v } : Cell (Code U)).content.Kinded (g ++ [.holds k])
      w.store.cells.size := .plain (by rw [hkind]; exact hv) rfl rfl
  have hdropped : ∀ c < w.store.cells.size, ((w.store.add { name, value := v }).2.cell c).dropped =
      (w.store.cell c).dropped := by
    intro c hc
    rw [Store.cell_add, if_neg hc.ne]
  obtain ⟨hs, hle⟩ := KindedTale.grow hn (.holds k)
    (hn.store.add { name, value := v } (.holds k) hcell) (kept_add ..) hdropped hn.observers
  refine ⟨_, hle, hs, ?_, hrole⟩
  simp [Store.add, ← hlen]

theorem KindedTale.observe (c : CellId) {code : Code U Unit}
    (hcode : code.Known w.host.1.transitions.size) :
    KindedTale g (w.withStore (w.store.observe c code).2) ∧
      KindedLater g w g (w.withStore (w.store.observe c code).2) := by
  have hcontent := w.store.content_observe c code
  have hsize : (w.store.observe c code).2.cells.size = w.store.cells.size := size_modify ..
  refine hw.withStore (hw.store.change hsize fun d _ h => hcontent d ▸ h)
    (.of_size hsize fun d => congrArg Content.tracker (hcontent d))
    (fun _ d _ h => (congrArg Content.dropped (hcontent d)).trans h) fun o x hx => ?_
  have hpush : (w.store.observers.push ⟨c, code, false⟩)[o]? = some x := hx
  rw [Array.getElem?_push] at hpush
  split at hpush
  · cases hpush
    exact hcode
  · exact hw.observers o x hpush

theorem kinding_unobserve (o : ObserverId) :
    kinding.Keeps nested g w (.unobserve o) := by
  refine .unobserve hw fun hn => ?_
  have hcontent := w.store.content_unobserve o
  have hsize : (w.store.unobserve o).cells.size = w.store.cells.size :=
    (sameAround_unobserve ..).size
  refine KindedTale.withStore hn (hw.store.change hsize fun d _ h => hcontent d ▸ h)
    (.of_size hsize fun d => congrArg Content.tracker (hcontent d))
    (fun _ d _ h => (congrArg Content.dropped (hcontent d)).trans h) fun i x hx => ?_
  obtain ⟨x0, hx0, hcode, -⟩ := observer_of_unobserve hx
  exact hcode ▸ hw.observers i x0 hx0

theorem kinding_newTracker (name : String) {code : Code U Unit} {x : Role}
    (hx : x.kind = .void) (hcode : code.Known w.host.1.transitions.size) :
    kinding.Runs nested g w (.newTracker name (some code)) fun g' w' c =>
      g' = g ++ [x] ∧ w'.host.1 = w.host.1 ∧ c = g.length ∧ (w'.store.cell c).dropped = false := by
  refine .step rfl hw fun hn => ?_
  have hlen := hw.store.length
  set blank : Cell (Code U) := { name, tracker := true, state := .dirty }
  have hkind : kindAt (g ++ [x]) w.store.cells.size = .void := by
    rw [← hlen, kindAt, roleAt_append, hx]
  have hcell : blank.content.Kinded (g ++ [x]) w.store.cells.size :=
    .plain (by rw [hkind]; exact Value.fits_void _) rfl rfl
  have hdropped : ∀ c < w.store.cells.size, ((w.store.add blank).2.cell c).dropped =
      (w.store.cell c).dropped := by
    intro c hc
    rw [Store.cell_add, if_neg hc.ne]
  obtain ⟨hs, hle⟩ := KindedTale.grow hn x (hn.store.add blank x hcell) (kept_add ..) hdropped
    hn.observers
  obtain ⟨ho, hle'⟩ := KindedTale.observe hs w.store.cells.size hcode
  refine ⟨_, kinding_ok.trans hle hle', ho, rfl, rfl, hlen.symm, ?_⟩
  have hcontent := (w.store.add blank).2.content_observe w.store.cells.size code w.store.cells.size
  refine (congrArg Content.dropped hcontent).trans ?_
  rw [Store.cell_add, if_pos rfl]
  rfl

theorem KindedTale.drop {c : CellId} (hlt : c < w.store.cells.size)
    (hc : ∀ a, (w.host.1.transition a).tracker ≠ some c) :
      KindedTale g (w.withStore (w.store.drop c)) ∧ KindedLater g w g
        (w.withStore (w.store.drop c)) := by
  refine hw.withStore (hw.store.drop hlt) (kept_drop hlt) (fun a d hd hlive => ?_)
    (observers_drop w.store c ▸ hw.observers)
  have hne : d ≠ c := by
    rintro rfl
    exact hc a hd
  have hcontent := congrArg Content.dropped (content_drop hlt d)
  rw [if_neg hne] at hcontent
  exact hcontent.trans hlive

theorem kinding_drop (hc : ∀ a, roleAt g c ≠ .follows a) :
    kinding.Keeps nested g w (.drop c) :=
  .drop hw (fun _ => trivial) fun hlt hn => KindedTale.drop hn hlt fun a ha =>
    hc a ((hn.scene.transitions a).tracker c ha).2

theorem KindedTale.rebind {c : CellId} (hlt : c < w.store.cells.size)
    {b : Binding (Code U)} (hcode : ∀ code, b = .code code → code.Yields (kindAt g c))
    (hfollow : ∀ r, b = .follow r → r < g.length ∧ kindAt g r = kindAt g c) :
    KindedTale g (w.withStore (w.store.rebind c b)) ∧
      KindedLater g w g (w.withStore (w.store.rebind c b)) := by
  refine hw.withStore (hw.store.rebind hlt hcode hfollow) (kept_rebind ..) (fun _ d _ h => ?_)
    hw.observers
  have hdropped := congrArg Content.dropped (content_rebind hlt b d)
  split at hdropped
  · rename_i heq
    subst heq
    exact hdropped.trans h
  · exact hdropped.trans h

theorem KindedTale.pair {c root : CellId} (hlt : c < w.store.cells.size)
    (hroot : root < g.length) (hkind : kindAt g root = kindAt g c) :
    KindedTale g (w.withStore (w.store.pair c root)) ∧ KindedLater g w g
        (w.withStore (w.store.pair c root)) :=
  hw.withStore (hw.store.pair hlt hroot hkind) (kept_modify _ _ fun _ => rfl)
    (fun _ d _ h => (proj_modify Cell.dropped (fun _ => by rfl) w.store c d).trans h) hw.observers

end

theorem Store.Kinded.linkRoot (h : s.Kinded g)
    (hc : c < g.length) : s.linkRoot c < g.length ∧ kindAt g (s.linkRoot c) = kindAt g c := by
  suffices hfollow : ∀ limit d, d < g.length → kindAt g d = kindAt g c →
      s.follow limit d < g.length ∧ kindAt g (s.follow limit d) = kindAt g c from
    hfollow _ c hc rfl
  intro limit
  induction limit with
  | zero => exact fun d hd hk => ⟨hd, hk⟩
  | succ limit ih =>
    intro d hd hk
    unfold Store.follow
    cases hp : s.partner? d with
    | none => exact ⟨hd, hk⟩
    | some p =>
      obtain ⟨hp', hkp⟩ := (h.cells d (h.length ▸ hd)).partner p (partner?_eq_some hp).1
      exact ih p hp' (hkp.trans hk)

variable (hN : kinding.Obeys nested)
include hN

section

variable (hw : KindedTale g w)
include hw

theorem kinding_get (c : CellId) :
    kinding.Runs nested g w (.get c) fun g' _ v => FitsAt g' c v :=
  .get hN hw (.inr trivial)

theorem kinding_peek (c : CellId) :
    kinding.Runs nested g w (Act.peek c) fun g' _ v => FitsAt g' c v :=
  .untracked hw (fun _ _ hw' => kinding_get hN hw' c)
    fun _ _ _ _ _ hle hv => kinding_ok.fits_mono hle hv

theorem kinding_set (hv : FitsAt g c v) :
    kinding.Keeps nested g w (.set c v) :=
  .set hN hw (.inr trivial) trivial hv

theorem kinding_setBinding {code : Code U Value}
    (hcode : code.Yields (kindAt g c)) : kinding.Keeps nested g w (.setBinding c code) := by
  refine .setBinding hN hw (.inr trivial) trivial fun w' _ hw' hstore hc _ => ?_
  rw [← hstore]
  refine KindedTale.rebind hw' (hstore ▸ hc.1) (fun _ h => ?_) nofun
  cases h
  exact hcode

theorem kinding_link {a b : CellId} (ha : a < g.length) (hb : b < g.length)
    (hkind : kindAt g a = kindAt g b) : kinding.Keeps nested g w (.link a b) := by
  obtain ⟨hroot, hkr⟩ := hw.store.linkRoot hb
  have hjoin := hkr.trans hkind.symm
  refine .link hw (fun _ => trivial) trivial fun hn _ =>
    kinding_ok.linkTo hN hn (fun _ => trivial) (fun _ _ => ?_) fun _ g' w' hle hw' => ?_
  · refine KindedTale.rebind hn (hw.store.length ▸ ha) nofun fun r h => ?_
    cases h
    exact ⟨hroot, hjoin⟩
  · -- the observers that ran in between have not changed the kinds of the two
    have hroles : g <+: g' := hle.roles
    have ha' := ha.trans_le hroles.length_le
    obtain ⟨hs, hle'⟩ := KindedTale.pair hw' (hw'.store.length ▸ ha')
      (hroot.trans_le hroles.length_le) (by
        rw [kindAt_extend hroles hroot, kindAt_extend hroles ha]
        exact hjoin)
    exact ⟨g', hs, hle', trivial⟩

end

end

end ReactiveTree
