import ReactiveTree.Proofs.Scene.Deeds
import ReactiveTree.Proofs.Scene.Walking

/-!
# Reference counting and teardown

A session makes instances, takes and releases handles, updates repeaters and delivers events, in
any order; the code of bindings, handlers, observers and models does whatever it likes except
making and ending instances (`Modest`). Every count is then the number of handles that have not
been released, an instance ends with its last handle and never comes back, and nothing is left of
it nor of what was repeated below it (`session_lifespans`).
-/

namespace ReactiveTree

open Store

variable {α U X : Type}
variable {c : ComponentId} {s : Scene U X} {act : SceneM U X α}

/-- The second world is a later one, whatever ended meanwhile. -/
abbrev Elapses (store : Store (Code U)) (s : Scene U X) (store' : Store (Code U)) (t : Scene U X) :
    Prop := Passes (fun _ => True) (fun _ => True) store s store' t

instance onward_elapses : Onward (U := U) (X := X) Elapses := onward_passes ..

theorem Passes.elapses {gone : ComponentId → Prop} {turned : RepeaterId → Prop}
    {store store' : Store (Code U)} {t : Scene U X} (h : Passes gone turned store s store' t) :
    Elapses store s store' t := h.mono (fun _ _ => trivial) fun _ _ => trivial

/-! ## What a walk finds -/

section

variable {nested : SceneNested U X} {w : SceneTale U X}

theorem Scene.component_of_size_le (h : s.components.size ≤ c) :
    s.component c = default := getD_of_size_le h _

theorem Scene.top_of_size_le (h : s.components.size ≤ c) : s.top c = c := by
  unfold top
  cases s.components.size with
  | zero => rfl
  | succ limit =>
    unfold topTo
    rw [component_of_size_le h]
    rfl

variable (hN : lasting.Obeys nested)
include hN

/-- A walk through an instance that lives finds items of its window. -/
theorem walk_houses {visit : Visitor U X (List ItemRef)} (hvisit : Collects nested visit)
    (hw : w.Sound) (hlive : (w.host.1.component c).destroyed = false) :
    (living Elapses).Runs nested () w (Component.walk c visit []) fun _ w' r =>
      ∀ x ∈ r.2, c < w.host.1.components.size ∧ w'.host.1.Houses c x := by
  refine .ask hw fun hn => ?_
  by_cases hc : c < w.host.1.components.size
  · have hlives : w.host.1.Lives (w.host.1.component c).window ⟨c, 0⟩ := ⟨hc, hlive, rfl⟩
    have hwalk := walkTo_gathers hN hvisit (w.host.1.component c).definition.height
      w.beat ⟨c, 0⟩ [] hn hlives nofun
    refine living_mono Passes.elapses (hwalk.mono fun _ w' r hle _ h x hx => ⟨hc, ?_⟩)
    obtain ⟨hlives, -⟩ := h x hx
    exact ⟨hlives.1, hlives.2.1, hlives.2.2.trans (Passes.window hle c hc).symm⟩
  · rw [Scene.component_of_size_le (not_lt.1 hc)]
    exact .ret hn nofun

omit hN in
theorem visitAll_finds {test : Visitor U X (Option ItemRef)}
    (htest : ∀ (w : SceneTale U X) it hit, w.Sound →
      lasting.Runs nested () w (test it hit) fun _ _ r => ∀ x, r.2 = some x → x = it ∨ hit = some x)
    (items : List ItemRef) (hit : Option ItemRef) (hw : w.Sound) :
    lasting.Runs nested () w (Component.visitAll test items hit) fun _ _ r =>
      ∀ x, r.2 = some x → x ∈ items ∨ hit = some x := by
  induction items generalizing w hit with
  | nil => exact .ret hw fun x hx => .inr hx
  | cons it rest ih =>
    refine .seq (htest w it hit hw) fun _ w1 r _ hw1 hfound => ?_
    have hfound' : ∀ x, r.2 = some x → x ∈ it :: rest ∨ hit = some x := fun x hx =>
      (hfound x hx).imp_left fun h => by rw [h]; exact List.mem_cons_self
    dsimp only
    split
    · refine (ih r.2 hw1).mono fun _ _ r' _ _ h x hx => ?_
      rcases h x hx with hx | hx
      · exact .inl (List.mem_cons_of_mem _ hx)
      · exact hfound' x hx
    · exact .ret hw1 hfound'

theorem living_itemAt (hw : w.Sound) (c : ComponentId) (x y : Float) :
    (living Elapses).Runs nested () w (Window.itemAt c x y) fun _ w' target =>
      ∀ it, target = some it → w'.host.1.Houses c it := by
  unfold Window.itemAt
  extract_lets test
  have htest (w : SceneTale U X) (it : ItemRef) (hit : Option ItemRef)
      (hw : w.Sound) : lasting.Runs nested () w (test it hit) fun _ _ r =>
        ∀ x, r.2 = some x → x = it ∨ hit = some x := by
    have hmiss {w : SceneTale U X} (hw : w.Sound) :
        lasting.Runs nested () w (return (true, hit)) fun _ _ r =>
          ∀ x, r.2 = some x → x = it ∨ hit = some x :=
      .ret hw fun x hx => .inr hx
    refine .ask hw fun hn => ?_
    split
    · refine .seq (lasting_gently hN (.isEnabled .get it) hn)
        fun _ _ enabled _ hw1 _ => ?_
      split
      · refine .seq (lasting_gently hN (.absolute .get it) hw1)
          fun _ _ r _ hw2 _ => ?_
        split
        · refine .ask hw2 fun hn => ?_
          refine .seq (lasting_gently hN (.isClipped .get x y _) hn)
            fun _ _ clipped _ hw3 _ => ?_
          split
          · exact hmiss hw3
          · exact .ret hw3 fun x hx => .inl (Option.some.inj hx).symm
        · exact hmiss hw2
      · exact hmiss hw1
    · exact hmiss hn
  refine .ask hw fun hn => ?_
  set top := w.host.1.top c with htop
  refine .seq
    (.ask hn fun hn => ?_) fun _ w1 r _ hw1 h => .ret hw1 h
  split
  · exact .ret hn nofun
  rename_i hlive
  have hcollects : Collects nested fun it all => return (true, it :: all) := by
    intro w a b hw
    exact .ret hw fun x hx => List.mem_cons.1 hx
  refine .seq ((walk_houses hN hcollects hn (Bool.eq_false_iff.2 hlive)).mono
    fun _ w1 r hle _ h => And.intro hle h) fun _ w1 r _ hw1 h => ?_
  obtain ⟨hle, hhoused⟩ := h
  refine living_mono onward_elapses.stays ((visitAll_finds htest r.2 none hw1).mono
    fun _ w2 found hstays _ h it hit => ?_)
  obtain ⟨htoplt, hhouse⟩ := hhoused it ((h it hit).resolve_right nofun)
  refine Scene.Houses.stays ⟨hhouse.1, hhouse.2.1, hhouse.2.2.trans ?_⟩ hstays.scene
  by_cases hc : c < w.host.1.components.size
  · rw [hle.window _ htoplt, hle.window _ hc]
    exact hw.tree.window_top c
  · rw [htop, Scene.top_of_size_le (not_lt.1 hc)]

theorem living_focusables (hw : w.Sound) (c : ComponentId) :
    (living Elapses).Keeps nested () w (Window.focusables c) := by
  unfold Window.focusables
  extract_lets gather
  have hcollects : Collects nested gather := by
    intro w a b hw
    have hskip {w : SceneTale U X} (hw : w.Sound) :
        lasting.Runs nested () w (return (true, b)) fun _ _ r => ∀ x ∈ r.2, x = a ∨ x ∈ b :=
      .ret hw fun x hx => .inr hx
    refine .ask hw fun hn => ?_
    split
    · refine .seq (lasting_gently hN (.isEnabled .get a) hn)
        fun _ _ enabled _ hw1 _ => ?_
      split
      · exact .ret hw1 fun x hx => List.mem_cons.1 hx
      · exact hskip hw1
    · exact hskip hn
  refine .seq_ret (P := fun _ _ _ => True) (.ask hw fun hn => ?_)
  split
  · exact .ret hn trivial
  · rename_i hlive
    exact (walk_houses hN hcollects hn (Bool.eq_false_iff.2 hlive)).keeps

end

/-! ## Code that neither makes nor ends instances -/

/-- What user code may do, and what a program at the top does beside the handles. -/
inductive Modest : ⦃α : Type⦄ → SceneM U X α → Prop where
  | get (c : CellId) : Modest (.get c)
  | tryGet (c : CellId) : Modest (.tryGet c)
  | set (c : CellId) (v : Value) : Modest (.set c v)
  | setBinding (c : CellId) (u : U) (self : Option ComponentId) :
      Modest (.setBinding c (.value u self))
  | link (a b : CellId) : Modest (.link a b)
  | new (name : String) (v : Value) : Modest (.new name v)
  | newBound (name : String) (u : U) (self : Option ComponentId) :
      Modest (.newBound name (.value u self))
  | observe (c : CellId) (u : U) (self : Option ComponentId) : Modest (.observe c (.effect u self))
  | unobserve (o : ObserverId) : Modest (.unobserve o)
  | setProperty (c : ComponentId) (name : String) (v : Value) : Modest (Component.set c name v)
  | setItem (it : ItemRef) (name : String) (v : Value) : Modest (Item.set it name v)
  | invoke (c : ComponentId) (name : String) (args : List Value) :
      Modest (Component.invoke c name args)
  | emit (it : ItemRef) (name : String) (args : List Value) : Modest (Item.emit it name args)
  | setRow (m : VectorId) (row : Int) (v : Value) : Modest (VectorModel.setRow m row v)
  | pushRows (m : VectorId) (vs : List Value) : Modest (VectorModel.push m vs)
  | insertRow (m : VectorId) (index : Int) (v : Value) : Modest (VectorModel.insert m index v)
  | removeRow (m : VectorId) (index : Int) : Modest (VectorModel.remove m index)
  | activate (c : ComponentId) : Modest (Window.activate c)
  | setFocus (c : ComponentId) (it : Option ItemRef) : Modest (Window.setFocus c it)
  | tick (now : Int64) : Modest (Clock.moveTo now)
  /-- Changes models, their peers or the state of user code in any way. -/
  | aside {α : Type} {act : SceneM U X α} (h : act.AsideOnly) : Modest act

section

variable {nested : SceneNested U X} {w : SceneTale U X} (hN : lasting.Obeys nested)

theorem lasting_add {act : SceneM U X CellId} {cell : Cell (Code U)}
    (hact : act.tell nested = Told.control (Run.step fun s => s.add cell))
    (hw : w.Sound) : lasting.Keeps nested () w act :=
  .step hact hw fun _ =>
    ⟨(), (lasting_store hw (.add w.store cell)).2, (lasting_store hw (.add w.store cell)).1,
      trivial⟩

include hN

theorem lasting_modest (h : Modest act) (hw : w.Sound) :
    lasting.Keeps nested () w act := by
  cases h with
  | get c => exact lasting_get hN hw c
  | tryGet c => exact .tryGet hN hw (.inr trivial)
  | set c v => exact lasting_set hN hw c v
  | setBinding c u self => exact lasting_setBinding hN hw c _
  | link a b => exact lasting_link hN hw a b
  | new name v => exact lasting_add rfl hw
  | newBound name u self => exact lasting_add rfl hw
  | observe c u self => exact lasting_observe hw c nofun
  | unobserve o => exact lasting_unobserve hw o
  | setProperty c name v => exact lasting_gently hN (.component_set .write c name v) hw
  | setItem it name v => exact lasting_gently hN (.item_set .write it name v) hw
  | invoke c name args => exact lasting_gently hN (.component_invoke .handle c name args) hw
  | emit it name args => exact lasting_gently hN (.item_emit .handle it name args) hw
  | setRow m row v =>
    exact lasting_gently hN (.setRow Gentle.vectors .staleRows .markStale .peer m row v) hw
  | pushRows m vs =>
    exact lasting_gently hN (.push Gentle.vectors .staleRows .markStale .peer m vs) hw
  | insertRow m index v =>
    exact lasting_gently hN (.insert Gentle.vectors .staleRows .markStale .peer m index v) hw
  | removeRow m index =>
    exact lasting_gently hN (.remove Gentle.vectors .staleRows .markStale .peer m index) hw
  | activate c => exact lasting_activate hN hw c
  | setFocus c it => exact lasting_setFocus hN hw c it
  | tick now => exact (lasting_ticks hN).moveTo now hw
  | aside h => exact lasting_asideOnly h hw

theorem lasting_modestly (h : Act.Composed Modest act)
    (hw : w.Sound) : lasting.Keeps nested () w act :=
  .composed (fun _ => trivial) (fun h hw => lasting_modest hN h hw) h hw

theorem lasting_meaning {host : Host U X} (hhost : host.Uses Modest) (code : Code U α)
    (hcode : code.Known w.host.1.transitions.size) (hw : w.Sound) :
    lasting.Keeps nested () w (code.meaning host) := by
  refine (Regime.Runs.meaning hhost.value hhost.model hhost.peer (fun h => lasting_modestly hN h hw)
    (fun c => lasting_get hN hw c) (fun a ha => lasting_retarget hw ha)
    (fun r _ => lasting_markStale hN hw r)
    (fun _ => lasting_gently hN (.forM fun step _ => .action_perform .get .write .handle step) hw)
    (fun _ => Code.known ..) code hcode).keeps

end

theorem toldTo_lasting {host : Host U X} (hhost : host.Uses Modest) (depth : Nat) :
    lasting.Obeys (Act.toldTo (Code.meaning host) depth) :=
  living_ok.toldTo_obeys (fun hN _ code _ _ hw hcode => lasting_meaning hN hhost code hcode hw)
    depth

/-! ## Sessions -/

section

variable {nested : SceneNested U X} {w : SceneTale U X}

/-- A new handle to an instance that lives and that no repeater made. -/
theorem living_newHandle (hw : w.Sound)
    (hc : c < w.host.1.components.size) (hlive : (w.host.1.component c).destroyed = false)
    (houter : (w.host.1.component c).outer = none) :
    (living Elapses).Keeps nested () w (Component.newHandle c) :=
  .host hw fun _ =>
    ⟨(), .of_addHandle w.store w.host.1 c, hw.addHandle hc hlive (fun h => h) houter, trivial⟩

theorem living_retain (hw : w.Sound) {h : HandleId} (held : w.host.1.Held h) :
    (living Elapses).Keeps nested () w (Component.retain h) := by
  refine .ask hw fun hn => .ask hn fun hn => ?_
  split
  · exact .panic hn trivial
  · rename_i hopen
    simp only [Bool.or_eq_true, not_or] at hopen
    exact living_newHandle hn (hw.tree.handle held.1) (Bool.eq_false_iff.2 hopen.2) held.2

theorem living_upgrade (hw : w.Sound)
    (hc : c < w.host.1.components.size) (houter : (w.host.1.component c).outer = none) :
    (living Elapses).Keeps nested () w (Component.upgrade c) := by
  refine .ask hw fun hn => ?_
  split
  · rename_i halive
    simp only [Bool.and_eq_true, Bool.not_eq_true'] at halive
    exact .seq_ret (living_newHandle hn hc halive.1 houter)
  · exact .ret hn trivial

theorem living_release (hw : w.Sound) {h : HandleId} (held : w.host.1.Held h) :
    (living Elapses).Keeps nested () w (Component.release h) := by
  refine (release_releases w.host.1.components.size w h _ _ held.1 (fun r hr => ?_)
    (Nat.le_add_right ..) hw).runs fun w' _ h => ⟨(), ?_, h.1, trivial⟩
  · have hhost := hw.tree.host_component (hw.counts.row hr).2
    rw [held.2] at hhost
    cases hhost
  · exact (Passes.of_ebbs h.2.1 fun _ _ => trivial).elapses

variable (hN : lasting.Obeys nested)
include hN

theorem living_instantiate (hw : w.Sound) {d : Definition U} (made : d.Made)
    (source : Option Nat) :
    (living Elapses).Keeps nested () w (Component.instantiate d source) := by
  unfold Component.instantiate
  split
  · exact .ret hw trivial
  split
  · exact .ret hw trivial
  refine .seq
    (living_mono Passes.of_grows (building_build hN hw made (fun _ h => by cases h) source))
      fun _ w1 c _ hw1 h => ?_
  have houter : (w1.host.1.component c).outer = none := by
    rw [hw1.tree.host, h.2.2]
    rfl
  exact .seq_ret (living_newHandle hw1 h.1.lt h.1.alive houter)

theorem living_deed {act : SceneM U X Unit} (h : Deed Modest w.host.1 act) (hw : w.Sound) :
    (living Elapses).Keeps nested () w act := by
  cases h with
  | instantiate made source => exact .seq_ret (living_instantiate hN hw made source)
  | retain held => exact .seq_ret (living_retain hw held)
  | release held => exact living_release hw held
  | upgrade held => exact .seq_ret (living_upgrade hw (hw.tree.handle held.1) held.2)
  | update hr => exact living_mono Passes.elapses (living_ensureUpdated hN hw hr)
  | focusNext c =>
    exact .seq_ret (living_focusNext hN (fun c hw => living_focusables hN hw c) hw c)
  | pointer c kind x y =>
    exact .seq_ret (living_pointer hN x y (fun c hw => living_itemAt hN hw c x y) hw c kind)
  | key c key =>
    exact .seq_ret (living_key hN (fun c hw => living_focusables hN hw c) hw c key)
  | other h => exact living_lasting (lasting_modestly hN h hw)

end

theorem toldSession_sound {host : Host U X} (hhost : host.Uses Modest) (depth : Nat)
    {acts : List (SceneM U X Unit)} {w : SceneTale U X} (hw : w.Sound)
    (hacts : Deeds Modest host depth acts w.untold) :
    let w' := Act.toldSession (Code.meaning host) depth acts w
    w'.Sound ∧ Elapses w.store w.host.1 w'.store w'.host.1 := by
  induction acts generalizing w with
  | nil => exact ⟨hw, onward_elapses.stays (.refl ..)⟩
  | cons act acts ih =>
    obtain ⟨_, hle, hw'⟩ := (living_deed (toldTo_lasting hhost depth) hacts.1 hw).later trivial
    obtain ⟨hend, hle'⟩ := ih hw' hacts.told
    exact ⟨hend, onward_elapses.trans hle hle'⟩

theorem sound_start (user : X) (reports : Bool) :
    Sound (World.start (U := U) user reports).store (World.start (U := U) user reports).host := by
  refine ⟨?_, ?_, ?_, ?_⟩
  · constructor
    case outer => nofun
    case host => exact fun _ => rfl
    case window => nofun
    case parent => nofun
    case child => nofun
    case children => exact fun _ => List.nodup_nil
    case hosted => nofun
    case placed => nofun
    case repeaters => exact fun _ => List.nodup_nil
    case sub => exact fun _ => .new ""
    case handle => nofun
    case single => nofun
  · constructor
    case refs => nofun
    case destroyed => nofun
    case falling => nofun
    case row => nofun
    case unreleased => nofun
    case nodup => exact fun _ => List.nodup_nil
    case apart => nofun
    case rowed => nofun
    case pointer => rintro i it (h | h | h) <;> cases h
  · constructor
    case cells => rintro c (_ | n) x hx <;> cases hx
    case lengths => rintro c (_ | n) <;> rfl
    case place => rintro c (_ | n) d mode i j x hx <;> cases hx
    case entry => rintro c (_ | n) i a hx <;> cases hx
    case registered => nofun
    case moved => nofun
    case tracker => nofun
    case still => nofun
    case retarget => nofun
    case running => nofun
  · constructor
    case flag => nofun
    case tracker => nofun
    case ended => nofun
    case cells => nofun
    case upright => rintro c _ (_ | n) x hx <;> cases hx
    case repeaters => nofun
    case handlers => nofun
    case signal => rintro c cb (h | ⟨n, h⟩) <;> cases h
    case owned => rintro c d cb cb' (h | ⟨n, h⟩) <;> cases h

/-! ## What is left -/

/-- The instance `e` is `c`, or was repeated somewhere below it and got a handle there. What a
failed build leaves behind is no instance. -/
def Scene.Bears (s : Scene U X) (c e : ComponentId) : Prop :=
  Relation.ReflTransGen (fun e o => (s.component e).outer = some o ∧ s.Handed e) e c

/-- A cell that was dropped and holds no slot. -/
def Store.Vacated (s : Store (Code U)) (c : CellId) : Prop :=
  (s.cell c).dropped = true ∧ (s.cell c).hasSlot = false

/-- Nothing is left of an instance. -/
structure Vanished (store : Store (Code U)) (s : Scene U X) (c : ComponentId) : Prop where
  destroyed : (s.component c).destroyed = true
  cells : ∀ node, ∀ x ∈ (s.table c node).cells, store.Vacated x
  /-- Its transitions are still, and every tracker that one of them ever had is gone. -/
  transitions : ∀ node i a, (s.table c node).transition? i = some a →
    (s.transition a).running = false ∧ ∀ (o : ObserverId) (x : Observer (Code U)),
      store.observers[o]? = some x → x.code = .retarget a → store.Vacated x.cell
  repeaters : ∀ n, ∀ r ∈ (s.item ⟨c, n⟩).repeaters, (s.repeater r).released = true ∧
    s.rows r = [] ∧ store.Vacated (s.repeater r).flag ∧ store.Vacated (s.repeater r).tracker
  handlers : ∀ cb, s.HasCallback c cb → (s.signal cb.signal).handler = none
  windows : ∀ i it, (s.windowAt i).PointsAt it → it.component ≠ c

section

variable {store : Store (Code U)} {s : Scene U X}

theorem Living.vanished (h : Sound store s) (hsane : store.Sane)
    (hd : (s.component c).destroyed = true) : Vanished store s c := by
  have hvacated {x : CellId} (hx : (store.cell x).dropped = true) : store.Vacated x :=
    ⟨hx, (hsane.dropped x hx).1⟩
  have hcells := h.fallen.cells hd fun h => h
  refine ⟨hd, fun node x hx => hvacated (hcells node x hx), fun node i a ha => ?_, fun n r hr => ?_,
    h.fallen.handlers hd fun h => h, fun i it hit hc => ?_⟩
  · obtain ⟨hlt, hcell⟩ := h.motion.entry ha
    obtain ⟨hstill, htracker⟩ := h.motion.still hlt (hcells node _ (List.mem_of_getElem? hcell))
    refine ⟨hstill, fun o x hx hcode => hvacated ?_⟩
    obtain ⟨-, htr | hdropped⟩ := h.motion.retarget hx hcode
    · rw [htracker] at htr
      cases htr
    · exact hdropped
  · have hreleased := h.fallen.repeaters hd (fun h => h) n r hr
    obtain ⟨hrows, hflag, htracker⟩ := h.fallen.ended hreleased
    exact ⟨hreleased, hrows, hvacated hflag, hvacated htracker⟩
  · rw [← hc, (h.counts.pointer hit).2.1] at hd
    cases hd

/-- With an instance end those repeated below it: a repeater that has ended holds no rows. -/
theorem Living.bears_destroyed (h : Sound store s) {e : ComponentId}
    (hd : (s.component c).destroyed = true) (he : s.Bears c e) :
    (s.component e).destroyed = true := by
  induction he using Relation.ReflTransGen.head_induction_on with
  | refl => exact hd
  | @head e o hstep _ ih =>
    obtain ⟨houter, hhanded⟩ := hstep
    have hlt : e < s.components.size := by
      obtain ⟨k, hk, rfl⟩ := hhanded
      exact h.tree.handle hk
    refine (h.counts.destroyed hlt fun h => h).2 ⟨hhanded, ?_⟩
    refine List.eq_nil_iff_forall_not_mem.2 fun k hk => ?_
    obtain ⟨hklt, hkc, hopen⟩ := Scene.mem_openHandles.1 hk
    obtain ⟨r, hr⟩ := h.counts.rowed hklt hopen (by rw [hkc, houter]; nofun)
    have hhost := (h.counts.row hr).2
    rw [hkc] at hhost
    have howner : (s.repeater r).host.component = o :=
      Option.some.inj ((h.tree.host_component hhost).symm.trans houter)
    have hrlt : r < s.repeaters.size := by
      by_contra hge
      rw [Scene.rows, Scene.repeater, getD_of_size_le (not_lt.1 hge)] at hr
      cases hr
    have hmem := h.tree.hosted hrlt
    have hreleased := h.fallen.repeaters ih (fun h => h) (s.repeater r).host.index r
      (by rw [← howner]; exact hmem)
    rw [(h.fallen.ended hreleased).1] at hr
    cases hr

end

/-- In every session, the count of an instance is the number of handles to it that were not
released, and an instance has ended exactly when it had handles and all of them are released. Of an
instance that has ended, and of all that was repeated below it, nothing is left; it takes no more
handles, and it stays like this in every session that goes on from there. -/
theorem session_lifespans (host : Host U X) (hhost : host.Uses Modest) (depth : Nat) (user : X)
    (reports : Bool) (acts : List (SceneM U X Unit))
    (hacts : Deeds Modest host depth acts (World.start user reports)) :
    let w := Act.session (Code.meaning host) depth acts (World.start user reports)
    ∀ c < w.host.components.size,
      (w.host.component c).refs = (w.host.openHandles c).length ∧
      ((w.host.component c).destroyed = true ↔ w.host.Handed c ∧ w.host.openHandles c = []) ∧
      ((w.host.component c).destroyed = true →
        (∀ e, w.host.Bears c e → Vanished w.store w.host e) ∧
        (Component.upgrade c).runTo (Code.meaning host) depth w = .ok none w ∧
        (∀ h, (w.host.handle h).component = c → (Component.retain h).runTo
          (Code.meaning host) depth w = .error (.panic "itemtree: retain of released handle") w) ∧
        ∀ later, Deeds Modest host depth later w →
          ((Act.session (Code.meaning host) depth later w).host.component c).destroyed = true) := by
  intro w c hc
  set told := Act.toldSession (Code.meaning host) depth acts (Tale.start user reports) with htold
  have hw : told.untold = w := Act.untold_toldSession ..
  have hsound : Sound w.store w.host := by
    rw [← hw]
    exact (toldSession_sound hhost depth (sound_start user reports) hacts).1
  have hsane : w.store.Sane := by
    obtain ⟨hpath, -⟩ := Act.toldSession_path (Code.meaning host) depth acts
      (w := Tale.start (U := U) user reports)
      (Path.sane (path_start (U := U) user reports) (sane_empty reports)) rfl
    rw [← hw]
    exact Path.sane hpath (Path.sane (path_start (U := U) user reports) (sane_empty reports))
  refine ⟨hsound.counts.refs hc, hsound.counts.destroyed hc fun h => h, fun hd => ?_⟩
  refine ⟨fun e he => hsound.vanished hsane (hsound.bears_destroyed hd he), ?_, fun h hh => ?_,
    fun later hlater => ?_⟩
  · show Act.interpret _
      (if (!(w.host.component c).destroyed && decide (0 < (w.host.component c).refs)) = true then
        _ else _) w = _
    rw [if_neg (by simp [hd])]
    rfl
  · show Act.interpret _ (if ((w.host.handle h).released ||
      (w.host.component (w.host.handle h).component).destroyed) = true then _ else _) w = _
    rw [if_pos (by simp [hh, hd])]
    rfl
  · obtain ⟨-, hle⟩ := toldSession_sound (w := ⟨w.store, w.host, []⟩) hhost depth hsound hlater
    have huntold := Act.untold_toldSession (Code.meaning host) depth later ⟨w.store, w.host, []⟩
    rw [← show (Act.toldSession (Code.meaning host) depth later ⟨w.store, w.host, []⟩).untold =
      Act.session (Code.meaning host) depth later w from huntold]
    exact hle.destroyed c hc hd

namespace Roster

def row : Definition Unit := ({ name := "Row" } : Definition Unit).root 1 "cell"

/-- Two rows under one element. -/
def roster : Definition Unit :=
  (({ name := "Roster" } : Definition Unit).root 1 "root"
    |>.declare "rows" .int (.int 2)
    |>.repeatRows "root" row (some (.countOf { prop := "rows" }))).1

def host : Host Unit Unit := .ofValue fun _ => pure .void

def acts : List (SceneM Unit Unit Unit) :=
  [discard (Component.instantiate roster),
    Repeater.ensureUpdated 0,
    discard (Component.retain 0),
    Component.release 0,
    Component.release 3]

theorem made : roster.Made :=
  Definition.Made.new "Roster"
    |>.root 1 "root"
    |>.declare "rows" .int _
    |>.repeatRows "root" (.root (.new "Row") 1 "cell") _

def ended : World (Scene Unit Unit) (Code Unit) :=
  Act.session (Code.meaning host) 9 acts (World.start () false)

theorem deeds : Deeds Modest host 9 acts (World.start () false) :=
  ⟨.instantiate made none, .update (by decide +kernel), .retain (by decide +kernel),
    .release (by decide +kernel), .release (by decide +kernel), trivial⟩

end Roster

/-- The second release ends the instance, and its rows with it. -/
theorem session_lifespans_roster :
    (Roster.ended.host.component 0).refs = 0 ∧
    (Roster.ended.host.component 0).destroyed = true ∧
    Vanished Roster.ended.store Roster.ended.host 0 ∧
    Vanished Roster.ended.store Roster.ended.host 2 := by
  have hhost :
      Roster.host.Uses Modest := ⟨fun _ _ _ => .pure _, fun _ _ => .pure _, fun _ _ => .pure _⟩
  have hlife := session_lifespans Roster.host hhost 9 () false Roster.acts Roster.deeds 0
    (by decide +kernel)
  have hdestroyed : (Roster.ended.host.component 0).destroyed = true := by decide +kernel
  have hhanded : Roster.ended.host.Handed 2 := ⟨2, by decide +kernel, by decide +kernel⟩
  have hbears : Roster.ended.host.Bears 0 2 := .single ⟨by decide +kernel, hhanded⟩
  obtain ⟨hrefs, -, hgone⟩ := hlife
  refine ⟨hrefs.trans (by decide +kernel), hdestroyed, (hgone hdestroyed).1 0 .refl, ?_⟩
  exact (hgone hdestroyed).1 2 hbears

end ReactiveTree
