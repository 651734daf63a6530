import ReactiveTree.Proofs.Cell.Links
import ReactiveTree.Proofs.Definition.Forest
import ReactiveTree.Proofs.Scene.Plans

/-!
# Linked cells of instances

A link of a definition becomes, in each instance, a partner of the cell it starts from: the cell
that was the root of its other end when the link was made. `Woven` says that the partners of the
cells of an instance lead along the chains of its definition, and that cells which have been tied
stay so. Nothing is said about the instances of the cells `W` that user code binds and links.
-/

namespace ReactiveTree

open Store Definition

variable {α U X : Type}

/-- No property that a link starts from has a binding. -/
def Definition.Unbound (d : Definition U) : Prop :=
  ∀ b ∈ d.binds, ∀ l ∈ d.links, l.source ≠ (b.node, b.prop)

namespace Scene

variable (s : Scene U X)

def cellOf (c : ComponentId) (k : Key) : Option CellId :=
  ((s.table c k.1).slot? k.2).bind (s.table c k.1).cell?

/-- None of the cells of an instance is among `W`. -/
def Free (W : CellId → Prop) (c : ComponentId) : Prop := ∀ node, ∀ x ∈ (s.table c node).cells, ¬W x

/-- A cell of the instance is dropped. -/
def Worn (store : Store (Code U)) (c : ComponentId) : Prop :=
  ∃ node, ∃ x ∈ (s.table c node).cells, (store.cell x).dropped = true

variable {s} {t : Scene U X} {store : Store (Code U)} {c e : ComponentId} {k k' : Key} {x : CellId}

theorem cellOf_eq_some : s.cellOf c k = some x ↔
    ∃ i, (s.table c k.1).slot? k.2 = some i ∧ (s.table c k.1).cells[i]? = some x :=
  Option.bind_eq_some_iff

theorem mem_of_cellOf (h : s.cellOf c k = some x) : x ∈ (s.table c k.1).cells := by
  obtain ⟨i, -, hi⟩ := cellOf_eq_some.1 h
  exact List.mem_of_getElem? hi

theorem lt_of_cellOf (h : s.cellOf c k = some x) : c < s.components.size := by
  by_contra hc
  have hmem := mem_of_cellOf h
  rw [table_eq, component, getD_of_size_le (not_lt.1 hc)] at hmem
  obtain ⟨node, prop⟩ := k
  cases node <;> cases hmem

theorem cellOf_congr (hdecls : (t.table c k.1).decls = (s.table c k.1).decls)
    (hcells : (t.table c k.1).cells = (s.table c k.1).cells) : t.cellOf c k = s.cellOf c k := by
  rw [cellOf, cellOf, Table.slot?, Table.slot?, hdecls]
  congr 1
  funext i
  rw [Table.cell?, Table.cell?, hcells]

theorem SameTables.cellOf (h : s.SameTables t) (c : ComponentId) (k : Key) :
    t.cellOf c k = s.cellOf c k := cellOf_congr (h.decls c k.1) (h.cells c k.1)

theorem Laid.cellOf_inj (h : s.Laid store) (hx : s.cellOf c k = some x)
    (hx' : s.cellOf e k' = some x) : c = e ∧ k = k' := by
  obtain ⟨i, hslot, hi⟩ := cellOf_eq_some.1 hx
  obtain ⟨j, hslot', hj⟩ := cellOf_eq_some.1 hx'
  obtain ⟨rfl, hnode, rfl⟩ := h.place hi hj
  obtain ⟨decl, hdecl, hname⟩ := name_of_index? hslot
  obtain ⟨decl', hdecl', hname'⟩ := name_of_index? hslot'
  rw [← hnode, hdecl] at hdecl'
  cases hdecl'
  exact ⟨rfl, Prod.ext hnode (hname.symm.trans hname')⟩

theorem Laid.cellOf_of_decl? (h : s.Laid store) {node : Option Nat} {prop : String}
    {decl : PropDecl} (hdecl : (s.component c).definition.decl? node prop = some decl) :
    ∃ x, s.cellOf c (node, prop) = some x := by
  rw [decl?_eq_find?, ← h.decls c node] at hdecl
  obtain ⟨i, hslot, hi⟩ := index?_of_find? hdecl
  have hlt : i < (s.table c node).cells.length := by
    rw [h.lengths]
    exact (List.getElem?_eq_some_iff.1 hi).1
  exact ⟨_, cellOf_eq_some.2 ⟨i, hslot, List.getElem?_eq_getElem hlt⟩⟩

end Scene

/-! ## The invariant -/

/-- The partners of cells lead along the links of definitions. The tied cells `g` have partners,
as long as their instance is whole, and with the first handle to an instance all its links are
tied. -/
structure Woven (W g : CellId → Prop) (store : Store (Code U)) (s : Scene U X) : Prop where
  laid : s.Laid store
  along : ∀ {x p}, (store.cell x).partner = some p → W x ∨ ∃ c k, s.cellOf c k = some x ∧
    (s.Free W c → ∃ k', s.cellOf c k' = some p ∧ Follows (s.component c).definition.links k k')
  tied : ∀ {x}, g x → ∃ c, s.Free W c ∧ (s.component c).definition.Unbound ∧
    (∃ l ∈ (s.component c).definition.links, s.cellOf c l.source = some x) ∧
    ((store.cell x).partner ≠ none ∨ s.Worn store c)
  linked : ∀ {c}, s.Handed c → s.Free W c → (s.component c).definition.Unbound →
    ∀ l ∈ (s.component c).definition.links, ∃ x, s.cellOf c l.source = some x ∧ g x

/-- The second world is a later one, in which only cells of `T` and new ones have been tied. -/
structure Weft (T g : CellId → Prop) (store : Store (Code U)) (s : Scene U X) (g' : CellId → Prop)
    (store' : Store (Code U)) (t : Scene U X) : Prop where
  kept : Kept store store'
  tied : ∀ x, g x → g' x
  only : ∀ x, g' x → g x ∨ T x ∨ store.cells.size ≤ x
  size : s.components.size ≤ t.components.size
  definition : ∀ c < s.components.size, (t.component c).definition = (s.component c).definition
  decls : ∀ c < s.components.size, ∀ node, (t.table c node).decls = (s.table c node).decls
  cells : ∀ c < s.components.size, ∀ node, (t.table c node).cells = (s.table c node).cells

section

variable {W g g' T V : CellId → Prop} {store store' store'' : Store (Code U)} {s t u : Scene U X}
  {c : ComponentId} {k : Key} {x : CellId}

namespace Weft

theorem refl : Weft T g store s g store s :=
  ⟨.refl _, fun _ h => h, fun _ h => .inl h, Nat.le_refl _, fun _ _ => rfl, fun _ _ _ => rfl,
    fun _ _ _ => rfl⟩

theorem trans {g'' : CellId → Prop} (h : Weft T g store s g' store' t)
    (h' : Weft T g' store' t g'' store'' u) : Weft T g store s g'' store'' u where
  kept := h.kept.trans h'.kept
  tied x hx := h'.tied x (h.tied x hx)
  only x hx := by
    rcases h'.only x hx with hx | hT | hsize
    · exact h.only x hx
    · exact .inr (.inl hT)
    · exact .inr (.inr (h.kept.size.trans hsize))
  size := h.size.trans h'.size
  definition c hc := (h'.definition c (hc.trans_le h.size)).trans (h.definition c hc)
  decls c hc node := (h'.decls c (hc.trans_le h.size) node).trans (h.decls c hc node)
  cells c hc node := (h'.cells c (hc.trans_le h.size) node).trans (h.cells c hc node)

theorem of_kept (hk : Kept store store') : Weft T g store s g store' s := { refl with kept := hk }

theorem of_tables (hst : s.SameTables t) : Weft T g store s g store t where
  kept := .refl _
  tied _ h := h
  only _ h := .inl h
  size := Nat.le_of_eq hst.size.symm
  definition c _ := hst.definition c
  decls c _ := hst.decls c
  cells c _ := hst.cells c

theorem mono (h : Weft T g store s g' store' t) (hT : ∀ x, T x → V x ∨ store.cells.size ≤ x) :
    Weft V g store s g' store' t := by
  refine { h with only := fun x hx => ?_ }
  rcases h.only x hx with hx | hx | hx
  · exact .inl hx
  · exact .inr (hT x hx)
  · exact .inr (.inr hx)

theorem cellOf (h : Weft T g store s g' store' t) (hc : c < s.components.size) (k : Key) :
    t.cellOf c k = s.cellOf c k :=
  Scene.cellOf_congr (h.decls c hc k.1) (h.cells c hc k.1)

theorem free (h : Weft T g store s g' store' t) (hc : c < s.components.size) :
    t.Free W c ↔ s.Free W c := by
  simp only [Scene.Free, h.cells c hc]

end Weft

namespace Woven

variable (h : Woven W g store s)
include h

theorem partner (hfree : s.Free W c) (hx : s.cellOf c k = some x) {p : CellId}
    (hp : (store.cell x).partner = some p) :
    ∃ k', s.cellOf c k' = some p ∧ Follows (s.component c).definition.links k k' := by
  rcases h.along hp with hW | ⟨e, q, hq, halong⟩
  · exact absurd hW (hfree _ x (Scene.mem_of_cellOf hx))
  · obtain ⟨rfl, rfl⟩ := h.laid.cellOf_inj hq hx
    exact halong hfree

/-- The chain of partners is no longer than the chain of links. -/
theorem ends (hfree : s.Free W c) (hx : s.cellOf c k = some x) : ∃ m, store.Ends m x := by
  have hforest := (h.laid.made c).forest
  obtain ⟨n, hn⟩ := hforest.ends k
  induction n using Nat.strongRecOn generalizing k x with
  | ind n ih =>
    cases hp : store.partner? x with
    | none => exact ⟨0, hp⟩
    | some p =>
      obtain ⟨k', hk', hfollows⟩ := h.partner hfree hx (partner?_eq_some hp).1
      obtain ⟨m, hm, hends⟩ := hforest.steps_lt hn hfollows
      obtain ⟨j, hj⟩ := ih m hm hk' hends
      exact ⟨j + 1, p, hp, hj⟩

theorem linkRoot (hfree : s.Free W c) (hx : s.cellOf c k = some x) :
    ∃ k', s.cellOf c k' = some (store.linkRoot x) ∧
      Relation.ReflTransGen (Leads (s.component c).definition.links) k k' := by
  suffices hfollow : ∀ limit k x, s.cellOf c k = some x → ∃ k',
      s.cellOf c k' = some (store.follow limit x) ∧
        Relation.ReflTransGen (Leads (s.component c).definition.links) k k' from hfollow _ k x hx
  intro limit
  induction limit with
  | zero => exact fun k x hx => ⟨k, hx, .refl⟩
  | succ limit ih =>
    intro k x hx
    unfold Store.follow
    cases hp : store.partner? x with
    | none => exact ⟨k, hx, .refl⟩
    | some p =>
      obtain ⟨k', hk', hfollows⟩ := h.partner hfree hx (partner?_eq_some hp).1
      obtain ⟨k'', hk'', hrest⟩ := ih k' p hk'
      exact ⟨k'', hk'', hfollows.to_reflTransGen.trans hrest⟩

/-- A tied cell that is a link root has lost its partner with a part of its instance. -/
theorem worn_of_linkRoot {d : CellId} (hx : g (store.linkRoot d)) :
    ∃ c, (∃ k, s.cellOf c k = some (store.linkRoot d)) ∧ s.Worn store c := by
  obtain ⟨c, hfree, -, ⟨l, -, hl⟩, hpartner | hworn⟩ := h.tied hx
  · obtain ⟨p, hp⟩ := Option.ne_none_iff_exists'.1 hpartner
    obtain ⟨m, hm⟩ := h.ends hfree hl
    obtain ⟨k', hk', -⟩ := h.partner hfree hl hp
    have hnone := hm.partner?_linkRoot
    refine ⟨c, ⟨_, hl⟩, _, p, Scene.mem_of_cellOf hk', ?_⟩
    -- the partner is not in force, so it is dropped
    rw [partner?, hp] at hnone
    simpa using hnone
  · exact ⟨c, ⟨_, hl⟩, hworn⟩

/-- A change of the store in which cells lose partners only as their instance is damaged. -/
theorem change (hk : Kept store store')
    (hdrop : ∀ x, (store.cell x).dropped = true → (store'.cell x).dropped = true)
    (hpartner : ∀ x, (store'.cell x).partner = (store.cell x).partner ∨
      (store'.cell x).partner = none ∧
        (g x → ∃ c, (∃ k, s.cellOf c k = some x) ∧ s.Worn store' c)) :
    Woven W g store' s where
  laid := h.laid.kept hk
  along {x p} hp := by
    rcases hpartner x with heq | ⟨hnone, -⟩
    · exact h.along (heq ▸ hp)
    · rw [hnone] at hp
      cases hp
  tied {x} hx := by
    obtain ⟨c, hfree, hunbound, ⟨l, hl, hcell⟩, hstate⟩ := h.tied hx
    refine ⟨c, hfree, hunbound, ⟨l, hl, hcell⟩, ?_⟩
    rcases hstate with hsome | ⟨node, y, hy, hdropped⟩
    · rcases hpartner x with heq | ⟨-, hworn⟩
      · exact .inl (heq ▸ hsome)
      · obtain ⟨e, ⟨k, hk⟩, hworn⟩ := hworn hx
        obtain ⟨rfl, -⟩ := h.laid.cellOf_inj hk hcell
        exact .inr hworn
    · exact .inr ⟨node, y, hy, hdrop y hdropped⟩
  linked := h.linked

/-- A change of the scene that keeps the tables. Who gets a handle for the first time has its
links tied. -/
theorem tables (hst : s.SameTables t) (hhanded : ∀ {c}, t.Handed c → s.Handed c ∨
      c < s.components.size ∧ (s.Free W c → (s.component c).definition.Unbound →
        ∀ l ∈ (s.component c).definition.links, ∃ x, s.cellOf c l.source = some x ∧ g x)) :
    Woven W g store t := by
  have hfree (c : ComponentId) : t.Free W c ↔ s.Free W c := by
    simp only [Scene.Free, hst.cells]
  have hworn (c : ComponentId) : t.Worn store c ↔ s.Worn store c := by
    simp only [Scene.Worn, hst.cells]
  constructor
  case laid =>
    refine h.laid.sameTables hst fun hc => ?_
    rcases hhanded hc with hc | hc
    · exact h.laid.handed hc
    · exact hc.1
  case along =>
    intro x p hp
    simp only [hfree, hst.cellOf, hst.definition]
    exact h.along hp
  case tied =>
    intro x hx
    simp only [hfree, hworn, hst.cellOf, hst.definition]
    exact h.tied hx
  case linked =>
    intro c hc
    simp only [hfree, hst.cellOf, hst.definition]
    rcases hhanded hc with hc | hc
    · exact h.linked hc
    · exact hc.2

theorem push {x : Component U} (hlaid : (s.pushComponent x).Laid store) :
    Woven W g store (s.pushComponent x) := by
  -- what has cells is not where the new one goes
  have hne {c : ComponentId} {k : Key} {y : CellId} (hy : s.cellOf c k = some y) :
      c ≠ s.components.size := (Scene.lt_of_cellOf hy).ne
  have htable {c : ComponentId} (hc : c ≠ s.components.size) (node : Option Nat) :
      (s.pushComponent x).table c node = s.table c node := by
    rw [Scene.table_push, if_neg hc]
  have hcell {c : ComponentId} (hc : c ≠ s.components.size) (k : Key) :
      (s.pushComponent x).cellOf c k = s.cellOf c k := by
    rw [Scene.cellOf, Scene.cellOf, htable hc]
  have hcomponent {c : ComponentId} (hc : c ≠ s.components.size) :
      (s.pushComponent x).component c = s.component c := by
    rw [Scene.component_push, if_neg hc]
  have hfree {c : ComponentId} (hc : c ≠ s.components.size) :
      (s.pushComponent x).Free W c ↔ s.Free W c := by
    simp only [Scene.Free, htable hc]
  constructor
  case laid => exact hlaid
  case along =>
    intro y p hp
    rcases h.along hp with hW | ⟨c, k, hk, halong⟩
    · exact .inl hW
    · refine .inr ⟨c, k, (hcell (hne hk) k).trans hk, fun hfreeC => ?_⟩
      obtain ⟨k', hk', hfollows⟩ := halong ((hfree (hne hk)).1 hfreeC)
      rw [hcomponent (hne hk)]
      exact ⟨k', (hcell (hne hk) k').trans hk', hfollows⟩
  case tied =>
    intro y hy
    obtain ⟨c, hfreeC, hunbound, ⟨l, hl, hcellL⟩, hstate⟩ := h.tied hy
    have hc := hne hcellL
    refine ⟨c, (hfree hc).2 hfreeC, ?_, ⟨l, ?_, (hcell hc _).trans hcellL⟩, ?_⟩
    · rw [hcomponent hc]
      exact hunbound
    · rw [hcomponent hc]
      exact hl
    · simp only [Scene.Worn, htable hc]
      exact hstate
  case linked =>
    intro c hhanded
    have hc : c ≠ s.components.size := (h.laid.handed hhanded).ne
    simp only [hfree hc, hcomponent hc, hcell hc]
    exact h.linked hhanded

/-- A cell gets a partner: one that is free to, or the next along its chain. -/
theorem pair {a root : CellId} (ha : W a ∨ ∃ c k, s.cellOf c k = some a ∧ (s.Free W c →
      ∃ k', s.cellOf c k' = some root ∧ Follows (s.component c).definition.links k k')) :
    Woven W g (store.pair a root) s := by
  have hdropped (d : CellId) : ((store.pair a root).cell d).dropped = (store.cell d).dropped :=
    proj_modify Cell.dropped (fun _ => by rfl) store a d
  have hpartner (d : CellId) : ((store.pair a root).cell d).partner = (store.cell d).partner ∨
      d = a ∧ ((store.pair a root).cell d).partner = some root := by
    rw [cell_modify]
    split
    · rename_i hd
      exact .inr ⟨hd.1, rfl⟩
    · exact .inl rfl
  constructor
  case laid => exact h.laid.kept (kept_modify _ _ fun _ => rfl)
  case along =>
    intro x p hp
    rcases hpartner x with heq | ⟨rfl, heq⟩
    · exact h.along (heq ▸ hp)
    · rw [heq] at hp
      cases hp
      exact ha
  case tied =>
    intro x hx
    obtain ⟨c, hfree, hunbound, hcell, hstate⟩ := h.tied hx
    refine ⟨c, hfree, hunbound, hcell, ?_⟩
    simp only [Scene.Worn, hdropped]
    refine hstate.imp_left fun hsome => ?_
    rcases hpartner x with heq | ⟨-, heq⟩
    · exact heq ▸ hsome
    · rw [heq]
      exact nofun
  case linked => exact h.linked

theorem tie {a : CellId} (hfree : s.Free W c) (hunbound : (s.component c).definition.Unbound)
    {l : LinkDef} (hl : l ∈ (s.component c).definition.links) (ha : s.cellOf c l.source = some a)
    (hpartner : (store.cell a).partner ≠ none) : Woven W (fun x => g x ∨ x = a) store s where
  laid := h.laid
  along := h.along
  tied {x} hx := by
    rcases hx with hx | rfl
    · exact h.tied hx
    · exact ⟨c, hfree, hunbound, ⟨l, hl, ha⟩, .inl hpartner⟩
  linked hc hfree hunbound l hl := by
    obtain ⟨x, hx, hg⟩ := h.linked hc hfree hunbound l hl
    exact ⟨x, hx, .inl hg⟩

theorem pushRepeater {x : Repeater U} (hsub : x.sub.Made) :
    Woven W g store { s with repeaters := s.repeaters.push x } :=
  ⟨h.laid.pushRepeater hsub, h.along, h.tied, h.linked⟩

theorem not_tied_of_bind {b : BindDef U} (hb : b ∈ (s.component c).definition.binds)
    (hx : s.cellOf c (b.node, b.prop) = some x) : ¬g x := by
  intro hg
  obtain ⟨e, -, hunbound, ⟨l, hl, hcell⟩, -⟩ := h.tied hg
  obtain ⟨rfl, hk⟩ := h.laid.cellOf_inj hcell hx
  exact hunbound b hb l hl hk

theorem not_tied_of_own (hx : W x) : ¬g x := by
  intro hg
  obtain ⟨e, hfree, -, ⟨l, -, hcell⟩, -⟩ := h.tied hg
  exact hfree _ x (Scene.mem_of_cellOf hcell) hx

/-- In an instance with a handle that is whole, the link root is the end of the chain. -/
theorem cellOf_chainEnd (hhanded : s.Handed c) (hfree : s.Free W c)
    (hunbound : (s.component c).definition.Unbound) (hwhole : ¬s.Worn store c)
    (hx : s.cellOf c k = some x) :
    s.cellOf c ((s.component c).definition.chainEnd k) = some (store.linkRoot x) := by
  have hforest := (h.laid.made c).forest
  obtain ⟨k', hroot, hreach⟩ := h.linkRoot hfree hx
  -- a link from there would be tied, and what is tied is a root only in a damaged instance
  have hend : ∀ q, ¬Leads (s.component c).definition.links k' q := by
    rintro q ⟨l, hl, rfl, -⟩
    obtain ⟨y, hy, hg⟩ := h.linked hhanded hfree hunbound l hl
    cases hroot.symm.trans hy
    obtain ⟨e, ⟨q, hq⟩, hworn⟩ := h.worn_of_linkRoot hg
    obtain ⟨rfl, -⟩ := h.laid.cellOf_inj hq hroot
    exact hwhole hworn
  rw [hforest.chainEnd_unique hreach hend]
  exact hroot

end Woven

theorem woven_start (user : X) (reports : Bool) :
    Woven W (fun _ => False) (World.start (U := U) user reports).store
      (World.start (U := U) user reports).host := by
  refine ⟨.start user _, fun {x p} hp => ?_, nofun, fun {c} hc => ?_⟩
  · have hnone : ((World.start (U := U) user reports).store.cell x).partner = none := by
      cases x <;> rfl
    rw [hnone] at hp
    cases hp
  · obtain ⟨h, hlt, -⟩ := hc
    cases hlt

end

end ReactiveTree
