import ReactiveTree.Proofs.Scene.KindedRepeaters

/-!
# Declared kinds

`Operation` lists what can be done with instances. Programs, and the code of bindings, handlers,
observers and models, may put operations together at will. Every cell that was declared with a kind
holds a value of this kind at every moment of such a run (`session_kinds`).
-/

namespace ReactiveTree

open Store

variable {U X : Type}

/-- The operations on instances. Definitions come from builder calls and declare their rows as
untyped data with an int number. -/
inductive Operation : ⦃α : Type⦄ → SceneM U X α → Prop where
  | instantiate {d : Definition U} (made : d.Made) (rowed : d.Rowed) (source : Option Nat) :
      Operation (Component.instantiate d source)
  | retain (h : HandleId) : Operation (Component.retain h)
  | release (h : HandleId) : Operation (Component.release h)
  | upgrade (c : ComponentId) : Operation (Component.upgrade c)
  /-- Reads a cell, which evaluates its binding if that is needed. -/
  | read (c : CellId) : Operation (.get c)
  | tryRead (c : CellId) : Operation (.tryGet c)
  | set (c : ComponentId) (name : String) (v : Value) : Operation (Component.set c name v)
  | setItem (it : ItemRef) (name : String) (v : Value) : Operation (Item.set it name v)
  | invoke (c : ComponentId) (name : String) (args : List Value) :
      Operation (Component.invoke c name args)
  | emit (it : ItemRef) (name : String) (args : List Value) : Operation (Item.emit it name args)
  | observe (c : CellId) (u : U) (self : Option ComponentId) :
      Operation (.observe c (.effect u self))
  | unobserve (o : ObserverId) : Operation (.unobserve o)
  | update (r : RepeaterId) : Operation (Repeater.ensureUpdated r)
  | setRow (m : VectorId) (row : Int) (v : Value) : Operation (VectorModel.setRow m row v)
  | pushRows (m : VectorId) (vs : List Value) : Operation (VectorModel.push m vs)
  | insertRow (m : VectorId) (index : Int) (v : Value) : Operation (VectorModel.insert m index v)
  | removeRow (m : VectorId) (index : Int) : Operation (VectorModel.remove m index)
  | activate (c : ComponentId) : Operation (Window.activate c)
  | setFocus (c : ComponentId) (it : Option ItemRef) : Operation (Window.setFocus c it)
  | focusNext (c : ComponentId) : Operation (Window.focusNext c)
  | pointer (c : ComponentId) (kind : Window.PointerKind) (x y : Float) :
      Operation (Window.pointer c kind x y)
  | key (c : ComponentId) (key : Window.Key) : Operation (Window.key c key)
  | tick (now : Int64) : Operation (Clock.moveTo now)
  /-- Changes handlers, models, peers, windows or the state of user code in any way. -/
  | aside {α : Type} {act : SceneM U X α} (h : act.ApartOnly) : Operation act

/-- User code that is put together from operations. -/
structure Host.Composed (host : Host U X) : Prop where
  value : ∀ u self args, Act.Composed Operation (host.value u self args)
  model : ∀ u self, Act.Composed Operation (host.model u self)
  peer : ∀ u change, Act.Composed Operation (host.peer u change)

/-- What operations are put together from. -/
inductive Basic : ⦃α : Type⦄ → SceneM U X α → Prop where
  | get (c : CellId) : Basic (.get c)
  | write (spot : Spot) (v : Value) : Basic (Component.write spot v)
  | handle (h : Handler U) (args : List Value) : Basic (.perform (.handle h args))
  | peer (u : U) (change : Change) : Basic (.perform (.peer u change))
  | update (r : RepeaterId) : Basic (Repeater.ensureUpdated r)
  | markStale (r : RepeaterId) : Basic (Repeater.markStale r)
  | staleRows (r : RepeaterId) (f : Array Bool → Array Bool) : Basic (Act.change fun s =>
      s.modifyRepeater r fun x => { x with staleRows := x.staleRows.change f })
  | apart {α : Type} {act : SceneM U X α} (h : act.ApartOnly) : Basic act

namespace Basic

theorem window (c : ComponentId) (f : Window → Window) :
    Basic (Window.modify (U := U) (X := X) c f) :=
  .apart ⟨_, rfl, fun _ => ⟨rfl, rfl, rfl, rfl, rfl, rfl⟩⟩

theorem vectors {α : Type} (f : Scene U X → α × Scene U X)
    (hf : ∀ s, ∃ vectors, (f s).2 = { s with vectors }) : Basic (.host f) := by
  refine .apart ⟨f, rfl, fun s => ?_⟩
  obtain ⟨vectors, heq⟩ := hf s
  rw [heq]
  exact ⟨rfl, rfl, rfl, rfl, rfl, rfl⟩

end Basic

section

variable {α : Type} {g g' : List Role} {w w' : SceneTale U X}
  {nested : SceneNested U X} (hN : kinding.Obeys nested)
include hN

theorem kinding_basic {act : SceneM U X α} (h : Basic act) (hw : KindedTale g w) :
    kinding.Keeps nested g w act := by
  cases h with
  | get c => exact (kinding_get hN hw c).keeps
  | write spot v => exact kinding_write hN hw spot v
  | handle h args => exact .perform hN hw fun _ => trivial
  | peer u change => exact .perform hN hw fun _ => trivial
  | update r => exact kinding_ensureUpdated hN hw r
  | markStale r => exact kinding_markStale hN hw r
  | staleRows r f => exact kinding_modifyRepeater hw r { hw.scene.repeaters r with }
  | apart h => exact runs_apartOnly h hw

theorem kinding_basics {act : SceneM U X α} (h : Act.Composed Basic act) (hw : KindedTale g w) :
    kinding.Keeps nested g w act :=
  .composed (fun _ => trivial) (fun h hw => kinding_basic hN h hw) h hw

theorem kinding_operation {act : SceneM U X α} (h : Operation act) (hw : KindedTale g w) :
    kinding.Keeps nested g w act := by
  cases h with
  | instantiate made rowed source => exact kinding_instantiate hN hw made rowed source
  | retain h => exact kinding_retain hw h
  | release h => exact kinding_release hw h
  | upgrade c => exact kinding_upgrade hw c
  | read c => exact kinding_basic hN (.get c) hw
  | tryRead c =>
    exact (Regime.Runs.tryGet hN hw (.inr trivial)).keeps
  | set c name v => exact kinding_basics hN (.component_set .write c name v) hw
  | setItem it name v => exact kinding_basics hN (.item_set .write it name v) hw
  | invoke c name args => exact kinding_basics hN (.component_invoke .handle c name args) hw
  | emit it name args => exact kinding_basics hN (.item_emit .handle it name args) hw
  | observe c u self =>
    refine (Regime.Runs.observe hw (fun _ => trivial) fun hn => ?_).mono
      fun _ _ _ _ _ _ => trivial
    exact KindedTale.observe hn c trivial
  | unobserve o => exact kinding_unobserve hw o
  | update r => exact kinding_ensureUpdated hN hw r
  | setRow m row v =>
    exact kinding_basics hN (.setRow .vectors .staleRows .markStale .peer m row v) hw
  | pushRows m vs =>
    exact kinding_basics hN (.push .vectors .staleRows .markStale .peer m vs) hw
  | insertRow m index v =>
    exact kinding_basics hN (.insert .vectors .staleRows .markStale .peer m index v) hw
  | removeRow m index =>
    exact kinding_basics hN (.remove .vectors .staleRows .markStale .peer m index) hw
  | activate c => exact kinding_basics hN (.activate .write .window c) hw
  | setFocus c it => exact kinding_basics hN (.setFocus .write .window c it) hw
  | focusNext c => exact kinding_basics hN (.focusNext .get .write .update .window c) hw
  | pointer c kind x y =>
    exact kinding_basics hN (.pointer .get .write .handle .update .window c kind x y) hw
  | key c key => exact kinding_basics hN (.key .get .write .handle .update .window c key) hw
  | tick now => exact (kinding_ticks hN).moveTo now hw
  | aside h => exact runs_apartOnly h hw

theorem kinding_composed {act : SceneM U X α} (h : Act.Composed Operation act)
    (hw : KindedTale g w) : kinding.Keeps nested g w act :=
  .composed (fun _ => trivial) (fun h hw => kinding_operation hN h hw) h hw

/-- All code keeps the kinds, and a converting binding returns what it converts to. -/
theorem kinding_meaning {host : Host U X} (hhost : host.Composed) (code : Code U α)
    (hcode : code.Known w.host.1.transitions.size) (hw : KindedTale g w) :
    kinding.Runs nested g w (code.meaning host) fun _ _ a => code.Returns a := by
  exact .meaning hhost.value hhost.model hhost.peer (fun h => kinding_composed hN h hw)
    (fun c => (kinding_get hN hw c).keeps)
    (fun a ha => kinding_retarget hw ha) (fun r _ => kinding_markStale hN hw r)
    (fun _ => kinding_basics hN (.forM fun step _ => .action_perform .get .write .handle step) hw)
    (fun _ => Code.known ..) code hcode

end

/-! ## Sessions -/

theorem toldTo_kinding {host : Host U X} (hhost : host.Composed) (depth : Nat) :
    kinding.Obeys (Act.toldTo (Code.meaning host) depth) :=
  kinding_ok.toldTo_obeys (fun hN _ code _ _ hw hcode => kinding_meaning hN hhost code hcode hw)
    depth

/-- The only cell at the start is the clock, which takes anything. -/
theorem kindedTale_start (user : X) (reports : Bool) :
    KindedTale [.holds .void] (Tale.start (U := U) user reports) where
  store := by
    refine ⟨rfl, rfl, fun c hc => .plain ?_ ?_ ?_⟩
    all_goals
      obtain rfl : c = 0 := Nat.lt_one_iff.1 hc
    · exact .inl rfl
    · rfl
    · rfl
  scene := by
    refine ⟨rfl, nofun, fun c node => ?_, nofun, fun a => ?_, fun r => ?_⟩
    · cases node <;> exact (Table.built_nil _).kinded _
    · exact ⟨Nat.one_pos, rfl, .inl rfl, nofun, nofun, nofun⟩
    · exact ⟨⟨Nat.one_pos, rfl⟩, ⟨Nat.one_pos, nofun⟩, .new "", nofun, .intro nofun nofun, nofun⟩
  alive := nofun
  observers o x hx := by simp [Tale.start, World.start] at hx
  past := nofun

theorem toldSession_kinding {host : Host U X} (hhost : host.Composed) (depth : Nat)
    {acts : List (SceneM U X Unit)} (hacts : ∀ act ∈ acts, Act.Composed Operation act)
    {g : List Role} {w : SceneTale U X} (hw : KindedTale g w) :
    ∃ g', KindedTale g' (Act.toldSession (Code.meaning host) depth acts w) := by
  induction acts generalizing g w with
  | nil => exact ⟨g, hw⟩
  | cons act acts ih =>
    obtain ⟨hact, hrest⟩ := List.forall_mem_cons.1 hacts
    obtain ⟨g', hw'⟩ := (kinding_composed (toldTo_kinding hhost depth) hact hw).outcome trivial
    exact ih hrest hw'

/-- In every session of operations on instances, every cell that was declared with a kind other
than void holds a value of this kind, when the session is over and at every moment since the
cell was made. Tables keep their cells, so the tables at the end are all there ever were. -/
theorem session_kinds (host : Host U X) (hhost : host.Composed) (depth : Nat) (user : X)
    (reports : Bool) (acts : List (SceneM U X Unit))
    (hacts : ∀ act ∈ acts, Act.Composed Operation act) :
    let told := Act.toldSession (Code.meaning host) depth acts (Tale.start user reports)
    told.untold = Act.session (Code.meaning host) depth acts (World.start user reports) ∧
      ∀ (c : ComponentId) (node : Option Nat) (i : Nat) (decl : PropDecl) (cell : CellId),
        (told.host.1.table c node).decls[i]? = some decl →
        (told.host.1.table c node).cells[i]? = some cell → decl.kind ≠ .void →
          (told.store.cell cell).value.kind = decl.kind ∧
          ∀ m ∈ told.past, cell < m.store.cells.size →
            (m.store.cell cell).value.kind = decl.kind := by
  obtain ⟨g, hend⟩ := toldSession_kinding hhost depth hacts (kindedTale_start user reports)
  refine ⟨Act.untold_toldSession .., fun c node i decl cell hdecl hcell hkind => ?_⟩
  obtain ⟨hlt, hrole⟩ := (hend.scene.tables c node).cells i cell decl hcell hdecl
  have hfits {v : Value} (hv : v.Fits (kindAt g cell)) : v.kind = decl.kind := by
    rw [kindAt, hrole] at hv
    exact hv.resolve_left hkind
  refine ⟨hfits (hend.store.cells cell (hend.store.length ▸ hlt)).value, fun m hm hsize => ?_⟩
  exact hfits ((hend.past m hm).2 cell hsize)

/-! ## A panel with rows -/

namespace Panel

def row : Definition Unit := ({ name := "Row" } : Definition Unit).root 1 "cell"

/-- As many rows as `rows` says; `shown` is linked to it, and user code computes the label. -/
def panel : Definition Unit :=
  (({ name := "Panel" } : Definition Unit).root 1 "root"
    |>.declare "rows" .int (.int 2)
    |>.declare "shown" .int .void
    |>.declare "label" .string .void
    |>.twoWay "" "shown" "" "rows"
    |>.bind "" "label" (.user ())
    |>.repeatRows "root" row (some (.countOf { prop := "rows" }))).1

/-- User code reads the cell of `rows` and returns what it finds. -/
def host : Host Unit Unit := .ofValue fun _ => .get 5

def acts : List (SceneM Unit Unit Unit) :=
  [discard (Component.instantiate panel),
    Repeater.ensureUpdated 0,
    discard (Component.set 0 "shown" (.duration 3000000)),
    Repeater.ensureUpdated 0,
    discard (Component.get 0 "label")]

theorem made : panel.Made :=
  Definition.Made.new "Panel"
    |>.root 1 "root"
    |>.declare "rows" .int _
    |>.declare "shown" .int _
    |>.declare "label" .string _
    |>.twoWay "" "shown" "" "rows"
    |>.bind "" "label" _
    |>.repeatRows "root" (.root (.new "Row") 1 "cell") _

theorem rowed : panel.Rowed := by
  have hrepeats : panel.repeats = [(0, row.asRow, some (.countOf { prop := "rows" }))] := rfl
  have hdeclared : row.asRow.declared =
      [⟨"model_data", .void, .void⟩, ⟨"index", .int, .int 0⟩] := rfl
  have hnone : row.asRow.repeats = [] := rfl
  refine .intro ?_ ?_
  · simp [hrepeats, hdeclared, RowDecls]
  · simp only [hrepeats, List.mem_singleton, forall_eq]
    exact .intro (by simp [hnone]) (by simp [hnone])

def told : Tale (Scene Unit Unit) (Code Unit) :=
  Act.toldSession (Code.meaning host) 9 acts (Tale.start () false)

end Panel

/-- A write to the linked cell converts a duration to an int, which goes to the root; the label
is computed from it and converted to a string. -/
theorem session_kinds_panel :
    (Panel.told.host.1.table 0 none).decls.map (·.kind) = [.int, .int, .string] ∧
    (Panel.told.host.1.table 0 none).cells = [5, 6, 7] ∧
    (Panel.told.store.cell 5).value.asInt = 3 ∧
    (Panel.told.store.cell 7).value.kind = .string ∧
    ∀ m ∈ Panel.told.past, 7 < m.store.cells.size → (m.store.cell 7).value.kind = .string := by
  have hhost : Panel.host.Composed :=
    ⟨fun _ _ _ => .prim (.read 5), fun _ _ => .pure _, fun _ _ => .pure _⟩
  have hacts : ∀ act ∈ Panel.acts, Act.Composed Operation act := by
    simp only [Panel.acts, List.forall_mem_cons, List.not_mem_nil, false_imp_iff, implies_true,
      and_true]
    exact ⟨.discard (.prim (.instantiate Panel.made Panel.rowed none)), .prim (.update 0),
      .discard (.prim (.set 0 ..)), .prim (.update 0), .discard (.component_get .read 0 _)⟩
  have hdecls : (Panel.told.host.1.table 0 none).decls.map (·.kind) = [.int, .int, .string] := by
    decide +kernel
  have hcells : (Panel.told.host.1.table 0 none).cells = [5, 6, 7] := by decide +kernel
  obtain ⟨decl, hdecl, hkind⟩ : ∃ decl, (Panel.told.host.1.table 0 none).decls[2]? = some decl ∧
      decl.kind = .string := by
    have hget := congrArg (·[2]?) hdecls
    rw [List.getElem?_map] at hget
    exact Option.map_eq_some_iff.1 hget
  have hcell : (Panel.told.host.1.table 0 none).cells[2]? = some 7 := congrArg (·[2]?) hcells
  have h := (session_kinds Panel.host hhost 9 () false Panel.acts hacts).2 0 none 2 decl 7 hdecl
    hcell (by rw [hkind]; nofun)
  rw [hkind] at h
  exact ⟨hdecls, hcells, by decide +kernel, h.1, h.2⟩

end ReactiveTree
