import ReactiveTree.Proofs.Scene.Weaving

/-!
# Runs keep instances linked

Whatever a scene does keeps the partners of the cells of its instances along the links of their
definitions (`woven`). The links of an instance are tied one after the other as it is built, each
while nothing else can tie them, so when the first handle to it is taken all of them are.
-/

namespace ReactiveTree

open Store Definition

variable {α β U X : Type} {W T V g : CellId → Prop}
variable {c : ComponentId} {act : SceneM U X α} {store : Store (Code U)}

abbrev World.Woven (w : SceneTale U X) (W g : CellId → Prop) : Prop :=
  ReactiveTree.Woven W g w.store w.host.1

/-- Runs in which only cells of `T`, and new ones, are tied. -/
def woven {U X : Type} (W T : CellId → Prop) : Regime (Scene U X) (Code U) (CellId → Prop) where
  holds g w := w.Woven W g
  le g w g' w' := Weft T g w.store w.host.1 g' w'.store w'.host.1
  admits _ _ _ := True
  returns _ _ _ _ := True
  fits _ _ _ _ := True
  stops _ := True

section

variable {w : SceneTale U X}

section

variable (hw : w.Woven W g)
include hw

theorem woven_change (hk : Kept w.store store)
    (hdrop : ∀ x, (w.store.cell x).dropped = true → (store.cell x).dropped = true)
    (hpartner : ∀ x, (store.cell x).partner = (w.store.cell x).partner ∨
      (store.cell x).partner = none ∧ (g x → ∃ c, (∃ k, w.host.1.cellOf c k = some x) ∧
        w.host.1.Worn store c)) :
    (woven W T).Lets g w store :=
  ⟨hw.change hk hdrop hpartner, .of_kept hk⟩

theorem woven_content
    (hsize : store.cells.size = w.store.cells.size)
    (hcontent : ∀ x, (store.cell x).content = (w.store.cell x).content) :
    (woven W T).Lets g w store :=
  woven_change hw (.of_size hsize fun x => congrArg Content.tracker (hcontent x))
    (fun x hx => (congrArg Content.dropped (hcontent x)).trans hx)
    fun x => .inl (congrArg Content.partner (hcontent x))

omit hw in
instance woven_ok : (woven (U := U) (X := X) W T).Lawful where
  refl _ _ := Weft.refl
  trans h h' := Weft.trans h h'
  kept h := Weft.kept h
  note _ _ hw := ⟨hw, Weft.refl⟩
  akin hw hs := woven_content hw hs.size hs.content
  amend {g w s x} hw hs _ hroot := by
    refine woven_change hw (.of_size hs.size hs.tracker_all)
      (fun y hy => (hs.dropped_all y).trans hy) fun y => ?_
    by_cases hy : y = x
    swap
    · exact .inl (congrArg Content.partner (hs.other y hy))
    subst hy
    rcases hroot with hsame | ⟨d, rfl⟩
    · exact .inl hsame
    · rcases hs.detached with ⟨-, hnone⟩ | ⟨-, hsame⟩
      · refine .inr ⟨hnone, fun hg => ?_⟩
        obtain ⟨c, hc, node, z, hz, hdropped⟩ := Woven.worn_of_linkRoot hw hg
        exact ⟨c, hc, node, z, hz, (hs.dropped_all z).trans hdropped⟩
      · exact .inl hsame
  code _ _ := ⟨trivial, fun _ _ => trivial⟩
  observer _ _ := trivial

theorem woven_samePlan {s : Scene U X} (hs : w.host.1.SamePlan s) :
    (woven W T).holds g (w.withHost s) ∧ (woven W T).le g w g (w.withHost s) :=
  ⟨hw.tables hs.toSameTables fun hc => .inl (hs.handed hc), .of_tables hs.toSameTables⟩

theorem woven_add {cell : Cell (Code U)} (hcell : cell.partner = none) :
    (woven W T).Lets g w (w.store.add cell).2 := by
  have hcontent := w.store.content_add cell
  have hout : w.store.cell w.store.cells.size = {} := cell_of_size_le (Nat.le_refl _)
  refine woven_change hw (kept_add ..) (fun x hx => ?_) fun x => .inl ?_
  · have h := congrArg Content.dropped (hcontent x)
    split at h
    · rename_i heq
      rw [heq, hout] at hx
      cases hx
    · exact h.trans hx
  · have h := congrArg Content.partner (hcontent x)
    split at h
    · rename_i heq
      rw [heq, hout]
      exact (heq ▸ h).trans hcell
    · exact h

theorem woven_observe (c : CellId) (code : Code U Unit) :
    (woven W T).Lets g w (w.store.observe c code).2 :=
  woven_content hw (size_modify ..) (w.store.content_observe c code)

theorem woven_drop {c : CellId} (hc : c < w.store.cells.size) :
    (woven W T).Lets g w (w.store.drop c) := by
  have hcontent := content_drop hc
  refine woven_change hw (kept_drop hc) (fun x hx => ?_) fun x => ?_
  · have h := congrArg Content.dropped (hcontent x)
    split at h
    · exact h
    · exact h.trans hx
  · have h := congrArg Content.partner (hcontent x)
    split at h
    · rename_i heq
      subst heq
      refine .inr ⟨h, fun hg => ?_⟩
      obtain ⟨e, -, -, ⟨l, -, hl⟩, -⟩ := hw.tied hg
      refine ⟨e, ⟨_, hl⟩, _, x, Scene.mem_of_cellOf hl, ?_⟩
      have hdropped := congrArg Content.dropped (hcontent x)
      rw [if_pos rfl] at hdropped
      exact hdropped
    · exact .inl h

theorem woven_rebind {c : CellId} (hg : ¬g c) (b : Binding (Code U)) :
    (woven W T).Lets g w (w.store.rebind c b) := by
  have hdropped (x : CellId) : ((w.store.rebind c b).cell x).dropped = (w.store.cell x).dropped :=
    proj_modify Cell.dropped (fun _ => by rfl) w.store c x
  refine woven_change hw (kept_rebind ..) (fun x hx => (hdropped x).trans hx) fun x => ?_
  by_cases hx : x = c
  · subst hx
    rw [rebind, cell_modify]
    split
    · exact .inr ⟨rfl, fun h => absurd h hg⟩
    · exact .inl rfl
  · rw [rebind, cell_modify_ne hx]
    exact .inl rfl

end

theorem woven_mono {nested : SceneNested U X}
    {Q : (CellId → Prop) → SceneTale U X → α → Prop} (hT : ∀ x, T x → V x ∨ w.store.cells.size ≤ x)
    (h : (woven W T).Runs nested g w act Q) : (woven W V).Runs nested g w act Q := by
  exact Regime.Goes.weaken h (fun _ _ hle hw' => ⟨Weft.mono hle hT, hw'⟩) (fun _ _ => trivial)
    fun _ => trivial

end

/-! ## Programs -/

section

variable {nested : SceneNested U X} {w : SceneTale U X}

theorem woven_obeys (hN : (woven W fun _ => False).Obeys nested) : (woven W T).Obeys nested := by
  have hweaken {g : CellId → Prop} {w : SceneTale U X} :
      ∀ g' w', (woven W fun _ => False).le g w g' w' →
        (woven W fun _ => False).holds g' w' →
        (woven W T).le g w g' w' ∧ (woven W T).holds g' w' :=
    fun _ _ hle hw' => ⟨Weft.mono hle nofun, hw'⟩
  exact ⟨fun hw hc => (hN.code hw hc).weaken hweaken (fun _ _ => trivial) fun _ => trivial,
    fun hw hc => (hN.get hw hc).weaken hweaken (fun _ _ => trivial) fun _ => trivial⟩

/-- The steps over cells and over the plan, with which everything is done but building. -/
inductive Weaves (W : CellId → Prop) : ⦃α : Type⦄ → SceneM U X α → Prop where
  | get (c : CellId) : Weaves W (.get c)
  | tryGet (c : CellId) : Weaves W (.tryGet c)
  | set (c : CellId) (v : Value) : Weaves W (.set c v)
  | setBinding {c : CellId} (hc : W c) (code : Code U Value) : Weaves W (.setBinding c code)
  | link {a : CellId} (ha : W a) (b : CellId) : Weaves W (.link a b)
  | drop (c : CellId) : Weaves W (.drop c)
  | new (name : String) (v : Value) : Weaves W (.new name v)
  | newBound (name : String) (code : Code U Value) : Weaves W (.newBound name code)
  | newTracker (name : String) (code : Code U Unit) : Weaves W (.newTracker name (some code))
  | observe (c : CellId) (code : Code U Unit) : Weaves W (.observe c code)
  | unobserve (o : ObserverId) : Weaves W (.unobserve o)
  | track {α : Type} (t : CellId) (code : Code U α) : Weaves W (.track t (.perform code))
  | perform {α : Type} (code : Code U α) : Weaves W (.perform code)
  | host {α : Type} (f : Scene U X → α × Scene U X) (h : ∀ s : Scene U X, s.SamePlan (f s).2) :
      Weaves W (.host f)

theorem Weaves.tweak (f : Scene U X → α × Scene U X)
    (hf : ∀ s : Scene U X, s.Tweaks (f s).2) : Weaves W (.host f) :=
  .host f fun s => (hf s).samePlan

theorem woven_step {act : SceneM U X CellId} {cell : Cell (Code U)}
    (hact : act.tell nested = Told.control (Run.step fun s => s.add cell))
    (hcell : cell.partner = none) (hw : w.Woven W g) :
    (woven W T).Keeps nested g w act :=
  .step hact hw fun hn =>
    ⟨g, (woven_add hn hcell).2, (woven_add hn hcell).1, trivial⟩

theorem woven_newTracker (hw : w.Woven W g) (name : String) (code : Code U Unit) :
    (woven W T).Keeps nested g w (.newTracker name (some code)) := by
  refine .step rfl hw fun hn => ?_
  have hnone : ({ name, tracker := true, state := .dirty } : Cell (Code U)).partner = none := rfl
  obtain ⟨hadd, hle⟩ := woven_add hn hnone
  obtain ⟨hobserve, hle'⟩ := woven_observe hadd w.store.cells.size code
  exact ⟨g, Weft.trans hle hle', hobserve, trivial⟩

variable (hN : (woven W fun _ => False).Obeys nested)
include hN

theorem woven_setBinding (hw : w.Woven W g) {c : CellId} (hg : ¬g c)
    (code : Code U Value) : (woven W T).Keeps nested g w (.setBinding c code) := by
  refine .setBinding (woven_obeys hN) hw (.inr trivial) trivial
    fun w' _ hw' hstore _ _ => ?_
  rw [← hstore]
  exact woven_rebind hw' hg (.code code)

/-- A link of a cell that is not tied. What it leads to has to be in order, and then the cell may
be tied. -/
theorem woven_link (hw : w.Woven W g) {a b : CellId} (hg : ¬g a)
    {Q : (CellId → Prop) → SceneTale U X → Bool → Prop}
    (hsame : ∀ w' : SceneTale U X, w'.store = w.store → w'.host.1 = w.host.1 →
      w.store.linkRoot b = a → Q g w' false)
    (hp : w.store.linkRoot b ≠ a → ∀ g' (w' : SceneTale U X),
      Weft T g w.store w.host.1 g' w'.store w'.host.1 → w'.Woven W g' → w.store.IsProperty a →
      ∃ g'', Woven W g'' (w'.store.pair a (w.store.linkRoot b)) w'.host.1 ∧
        (∀ x, g' x → g'' x) ∧ (∀ x, g'' x → g' x ∨ T x) ∧
        Q g'' (w'.withStore (w'.store.pair a (w.store.linkRoot b))) true) :
    (woven W T).Runs nested g w (.link a b) Q := by
  refine .link hw (fun _ => trivial) trivial fun hn ha =>
    woven_ok.linkTo (woven_obeys hN) hn (hsame _ rfl rfl)
      (fun _ _ => woven_rebind hn hg _) fun hne g' w' hle hw' => ?_
  obtain ⟨g'', hwoven, hmore, honly, hq⟩ := hp hne g' w' hle hw' ha
  refine ⟨g'', hwoven, ⟨kept_modify _ _ fun _ => rfl, hmore, fun x hx => ?_, Nat.le_refl _,
    fun _ _ => rfl, fun _ _ _ => rfl, fun _ _ _ => rfl⟩, hq⟩
  exact (honly x hx).imp_right .inl

theorem woven_weaves (h : Weaves W act) (hw : w.Woven W g) :
    (woven W T).Keeps nested g w act := by
  have hN' := woven_obeys (T := T) hN
  cases h with
  | get c => exact .get hN' hw (.inr trivial)
  | tryGet c => exact .tryGet hN' hw (.inr trivial)
  | set c v => exact .set hN' hw (.inr trivial) trivial trivial
  | setBinding hc code => exact woven_setBinding hN hw (hw.not_tied_of_own hc) code
  | link ha b =>
    exact woven_link hN hw (hw.not_tied_of_own ha) (fun _ _ _ _ => trivial)
      fun _ g' w' _ hw' _ => ⟨g', hw'.pair (.inl ha), fun _ h => h, fun _ h => .inl h, trivial⟩
  | drop c => exact .drop hw (fun _ => trivial) fun hc hn => woven_drop hn hc
  | new name v => exact woven_step rfl rfl hw
  | newBound name code => exact woven_step rfl rfl hw
  | newTracker name code => exact woven_newTracker hw name code
  | observe c code => exact .observe hw (fun _ => trivial) fun hn => woven_observe hn c code
  | unobserve o =>
    exact .unobserve hw fun hn =>
      woven_content hn (sameAround_unobserve ..).size (w.store.content_unobserve o)
  | track t code =>
    exact (Regime.Runs.track hw (fun _ => trivial) trivial
      (fun w' _ hw' => .perform hN' hw' fun _ => trivial) Regime.stable_true).mono
        fun _ _ _ _ _ _ => trivial
  | perform code => exact .perform hN' hw fun _ => trivial
  | host f hf =>
    exact .host hw fun hn =>
      ⟨g, (woven_samePlan hn (hf _)).2, (woven_samePlan hn (hf _)).1, trivial⟩

theorem woven_composed (h : Act.Composed (Weaves W) act)
    (hw : w.Woven W g) : (woven W T).Keeps nested g w act :=
  .composed (fun _ => trivial) (woven_weaves hN) h hw

/-! ## Building -/

omit hN in
theorem woven_spotOf (hw : w.Woven W g) (c : ComponentId) (node : Option Nat)
    (prop : String) : (woven W T).Runs nested g w (Component.spotOf c node prop) fun g' w' spot =>
      g = g' ∧ w'.store = w.store ∧ w'.host.1 = w.host.1 ∧ spot.component = c ∧ spot.node = node ∧
        w.host.1.cellOf c (node, prop) = some (w.host.1.cellAt spot) := by
  refine .ask hw fun hn => ?_
  cases hslot : (w.host.1.table c node).slot? prop with
  | none => exact .ask hn fun hn => .panic hn trivial
  | some slot =>
    obtain ⟨decl, hdecl, -⟩ := name_of_index? hslot
    have hlt : slot < (w.host.1.table c node).cells.length := by
      rw [hw.laid.lengths]
      exact (List.getElem?_eq_some_iff.1 hdecl).1
    have hcell := List.getElem?_eq_getElem hlt
    refine .ret hn ⟨rfl, rfl, rfl, rfl, rfl, ?_⟩
    rw [Scene.cellAt, Table.cell?, hcell]
    exact Scene.cellOf_eq_some.2 ⟨slot, hslot, hcell⟩

/-- One link of an instance. It is tied, unless the instance is not free or has bindings in the
way. -/
theorem woven_linkSpots (hw : w.Woven W g) {l : LinkDef}
    (hl : l ∈ (w.host.1.component c).definition.links) {a : CellId}
    (ha : w.host.1.cellOf c l.source = some a) (hg : ¬g a) : (woven W (· = a)).Runs nested g w (do
      let a ← Component.spotOf c l.node l.prop
      let b ← Component.spotOf c l.other l.otherProp
      let (a, b) ← Act.ask fun s => (s.cellAt a, s.cellAt b)
      discard <| Act.link a b) fun g' _ _ =>
        w.host.1.Free W c → (w.host.1.component c).definition.Unbound → g' a := by
  refine .seq (woven_spotOf hw c l.node l.prop) fun _ w1 spot _ hw1 h => ?_
  obtain ⟨rfl, hstore1, hhost1, -, -, hspot⟩ := h
  refine .seq (woven_spotOf hw1 c l.other l.otherProp) fun _ w2 other _ hw2 h => ?_
  obtain ⟨rfl, hstore2, hhost2, -, -, hother⟩ := h
  have hhost2 := hhost2.trans hhost1
  refine .ask hw2 fun hn => ?_
  have hacell : w2.host.1.cellAt spot = a := by
    rw [hhost2]
    exact Option.some.inj (hspot.symm.trans ha)
  have hbcell : w.host.1.cellOf c l.target = some (w2.host.1.cellAt other) := by
    rw [hhost2, ← hhost1]
    exact hother
  rw [hacell]
  generalize w2.host.1.cellAt other = b at hbcell
  have hstore : w2.beat.store = w.store := hstore2.trans hstore1
  have hhost : w2.beat.host.1 = w.host.1 := hhost2
  generalize w2.beat = w3 at hn hstore hhost ⊢
  rw [← hhost] at hl ha hbcell ⊢
  -- in a free instance the root at the other end is further along the chain
  have hroot (hfree : w3.host.1.Free W c) :
      ∃ k', w3.host.1.cellOf c k' = some (w3.store.linkRoot b) ∧ Follows
        (w3.host.1.component c).definition.links l.source k' := by
    obtain ⟨k', hk', hreach⟩ := hn.linkRoot hfree hbcell
    exact ⟨k', hk', .head' ⟨l, hl, rfl, rfl⟩ hreach⟩
  have hc := Scene.lt_of_cellOf ha
  refine .seq (woven_link hN hn hg (fun w' _ _ heq hfree _ => ?_)
    fun _ g' w' hle hw' _ => ?_) fun g' w' _ _ hw' h => .ret hw' h
  · obtain ⟨k', hk', hfollows⟩ := hroot hfree
    rw [heq] at hk'
    obtain ⟨-, rfl⟩ := hn.laid.cellOf_inj hk' ha
    exact absurd hfollows ((hn.laid.made c).forest.acyclic _)
  · have hpaired : Woven W g' (w'.store.pair a (w3.store.linkRoot b)) w'.host.1 := by
      refine hw'.pair (.inr ⟨c, l.source, (hle.cellOf hc _).trans ha, fun hfree => ?_⟩)
      obtain ⟨k', hk', hfollows⟩ := hroot ((hle.free hc).1 hfree)
      rw [hle.definition c hc]
      exact ⟨k', (hle.cellOf hc k').trans hk', hfollows⟩
    by_cases htie : w3.host.1.Free W c ∧ (w3.host.1.component c).definition.Unbound
    · have hlt : a < w'.store.cells.size :=
        (hn.laid.property (Scene.mem_of_cellOf ha)).1.trans_le hle.kept.size
      refine ⟨fun x => g' x ∨ x = a, hpaired.tie ((hle.free hc).2 htie.1) ?_ ?_
        ((hle.cellOf hc _).trans ha) ?_, fun _ h => .inl h, fun _ h => h, fun _ _ => .inr rfl⟩
      · rw [hle.definition c hc]
        exact htie.2
      · rw [hle.definition c hc]
        exact hl
      · rw [cell_modify_self hlt]
        exact nofun
    · exact ⟨g', hpaired, fun _ h => h, fun _ h => .inl h, fun hfree hunbound =>
        absurd ⟨hfree, hunbound⟩ htie⟩

def Ties (W g : CellId → Prop) (s : Scene U X) (c : ComponentId) (links : List LinkDef) : Prop :=
  s.Free W c → (s.component c).definition.Unbound →
    ∀ l ∈ links, ∃ x, s.cellOf c l.source = some x ∧ g x

omit hN in
theorem Ties.later {g' : CellId → Prop} {store' : Store (Code U)} {s t : Scene U X}
    {links : List LinkDef} (h : Ties W g s c links) (hc : c < s.components.size)
    (hle : Weft T g store s g' store' t) : Ties W g' t c links := by
  intro hfree hunbound l hl
  rw [hle.definition c hc] at hunbound
  obtain ⟨x, hx, hg⟩ := h ((hle.free hc).1 hfree) hunbound l hl
  exact ⟨x, (hle.cellOf hc _).trans hx, hle.tied x hg⟩

theorem woven_links (hc : c < w.host.1.components.size)
    (hT : ∀ node, ∀ x ∈ (w.host.1.table c node).cells, T x) {links : List LinkDef}
    (hlinks : ∀ l ∈ links, l ∈ (w.host.1.component c).definition.links)
    (hnodup : (links.map LinkDef.source).Nodup) (hw : w.Woven W g)
    (hopen : ∀ l ∈ links, ∀ x, w.host.1.cellOf c l.source = some x → ¬g x) :
    (woven W T).Runs nested g w (links.forM fun l => do
      let a ← Component.spotOf c l.node l.prop
      let b ← Component.spotOf c l.other l.otherProp
      let (a, b) ← Act.ask fun s => (s.cellAt a, s.cellAt b)
      discard <| Act.link a b) fun g' w' _ => Ties W g' w'.host.1 c links := by
  induction links generalizing g w with
  | nil => exact .ret hw fun _ _ => nofun
  | cons l links ih =>
    obtain ⟨hl, hlinks⟩ := List.forall_mem_cons.1 hlinks
    obtain ⟨hopenL, hopen⟩ := List.forall_mem_cons.1 hopen
    obtain ⟨hlnew, hnodup⟩ := List.nodup_cons.1 hnodup
    obtain ⟨_, _, hdecl, -⟩ := (hw.laid.made c).consistent.links l hl
    obtain ⟨a, ha⟩ := hw.laid.cellOf_of_decl? hdecl
    have hstep : (woven W (· = a)).Runs nested g w _ fun g' w' _ =>
        (w.host.1.Free W c → (w.host.1.component c).definition.Unbound → g' a) ∧
          Weft (· = a) g w.store w.host.1 g' w'.store w'.host.1 :=
      (woven_linkSpots hN hw hl ha (hopenL a ha)).mono fun _ _ _ hle _ h => ⟨h, hle⟩
    refine .seq (woven_mono (fun x (hx : x = a) =>
      .inl (hx ▸ hT _ a (Scene.mem_of_cellOf ha))) hstep) fun g1 w1 _ _ hw1 h => ?_
    obtain ⟨htied, hle⟩ := h
    have hrest := ih (hc.trans_le hle.size) (fun node x hx => by
        rw [hle.cells c hc] at hx
        exact hT node x hx) (fun m hm => by
        rw [hle.definition c hc]
        exact hlinks m hm) hnodup hw1 fun m hm x hx => by
      rw [hle.cellOf hc] at hx
      intro hg
      rcases hle.only x hg with hg | rfl | hsize
      · exact hopen m hm x hx hg
      · obtain ⟨-, heq⟩ := hw.laid.cellOf_inj hx ha
        have hsource : m.source = l.source := heq
        exact hlnew (hsource ▸ List.mem_map_of_mem hm)
      · exact hsize.not_gt (hw.laid.property (Scene.mem_of_cellOf hx)).1
    refine hrest.mono fun g2 w2 _ hle2 _ h hfree hunbound m hm => ?_
    rcases List.mem_cons.1 hm with rfl | hm
    · have hall := (hle.mono fun x hx =>
        .inl (hx ▸ hT _ a (Scene.mem_of_cellOf ha))).trans hle2
      rw [hall.definition c hc] at hunbound
      exact ⟨a, (hall.cellOf hc _).trans ha,
        Weft.tied hle2 a (htied ((hall.free hc).1 hfree) hunbound)⟩
    · exact h hfree hunbound m hm

theorem woven_attachBindings (hc : c < w.host.1.components.size)
    {binds : List (BindDef U)} (hbinds : ∀ b ∈ binds, b ∈ (w.host.1.component c).definition.binds)
    (hw : w.Woven W g) :
    (woven W T).Keeps nested g w (Component.attachBindings c binds) := by
  induction binds generalizing g w with
  | nil => exact .ret hw trivial
  | cons b rest ih =>
    obtain ⟨hb, hrest⟩ := List.forall_mem_cons.1 hbinds
    have hlater {g' : CellId → Prop} {w' : SceneTale U X}
        (hle : Weft T g w.store w.host.1 g' w'.store w'.host.1)
        (hw' : w'.Woven W g') :
        (woven W T).Keeps nested g' w' (Component.attachBindings c rest) :=
      ih (hc.trans_le hle.size) (fun y hy => by
        rw [hle.definition c hc]
        exact hrest y hy) hw'
    refine .seq (woven_spotOf hw c b.node b.prop) fun g1 w1 spot hle1 hw1 h => ?_
    obtain ⟨rfl, -, hhost1, -, -, hspot⟩ := h
    refine .ask hw1 fun hn => .view_then hn fun hn => ?_
    refine .seq (woven_composed hN (.tieBinding c b.template) hn) fun g2 w2 code hle2 hw2 _ => ?_
    have hle : Weft T g w.store w.host.1 g2 w2.store w2.host.1 := Weft.trans hle1 hle2
    split
    · exact .seq_ret (hlater hle hw2)
    · have hcell : w2.host.1.cellOf c (b.node, b.prop) = some (w1.host.1.cellAt spot) := by
        rw [hle.cellOf hc, hhost1]
        exact hspot
      have hbind : b ∈ (w2.host.1.component c).definition.binds := by
        rw [hle.definition c hc]
        exact hb
      exact .seq (woven_setBinding hN hw2 (hw2.not_tied_of_bind hbind hcell) _)
        fun _ _ _ hle3 hw3 _ => hlater (hle.trans hle3) hw3

theorem woven_addRepeater (hw : w.Woven W g) (host : ItemRef) {sub : Definition U}
    (hsub : sub.Made) (model : Option (ModelTemplate U)) :
    (woven W T).Keeps nested g w (Component.addRepeater host sub model) := by
  refine .ask hw fun hn => ?_
  extract_lets add
  have hadd {g1 : CellId → Prop} {w1 : SceneTale U X} (expression) (hw1 : w1.Woven W g1) :
      (woven W T).Keeps nested g1 w1 (add expression) := by
    refine .ask hw1 fun hn => ?_
    refine .seq (woven_weaves hN (.new ..) hn) fun g2 w2 flag _ hw2 _ => ?_
    refine .seq (woven_newTracker hw2 ..) fun g3 w3 tracker _ hw3 _ => ?_
    refine .change hw3 fun hn => ?_
    obtain ⟨hitem, hle⟩ := woven_samePlan hn (.modifyItem _ host
      (f := fun it => { it with repeaters := it.repeaters ++ [w1.host.1.repeaters.size] })
      (fun _ => ⟨rfl, rfl⟩) fun _ => ⟨rfl, rfl⟩)
    refine ⟨hitem.pushRepeater hsub, hle.trans ⟨.refl _, fun _ h => h, fun _ h => .inl h,
      Nat.le_refl _, fun _ _ => rfl, fun _ _ _ => rfl, fun _ _ _ => rfl⟩⟩
  cases model with
  | none => exact .pure_then hn fun hn => hadd none hn
  | some template =>
    have htie : Act.Composed (Weaves W) (Component.tieModel (X := X) host.component template) :=
      .tieModel (fun _ => .host _ fun _ => .of_eq rfl rfl fun _ => rfl) _ _
    exact .seq (woven_composed hN (.bind htie fun _ => .pure _) hn)
      fun _ _ expression _ hw' _ => hadd _ hw'

end

end ReactiveTree
