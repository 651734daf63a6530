import Mathlib.Data.List.Forall2
import Mathlib.Logic.Nontrivial.Defs
import Mathlib.Tactic.ByContra
import ReactiveTree.Scene.Component

/-!
# The objects of a scene

What is found under a number after an object was changed or added. Objects of the other kinds
stay as they are, which is so by definition.
-/

namespace ReactiveTree

theorem getD_modify {α : Type} (xs : Array α) (i j : Nat) (f : α → α) (d : α) :
    (xs.modify i f).getD j d = if j = i ∧ j < xs.size then f (xs.getD j d) else xs.getD j d := by
  simp only [Array.getD_eq_getD_getElem?, Array.getElem?_modify]
  by_cases hlt : j < xs.size
  · by_cases hij : i = j
    · simp [hij, hlt]
    · simp [hij, hlt, Ne.symm hij]
  · simp [hlt]

theorem getD_push {α : Type} (xs : Array α) (x : α) (j : Nat) (d : α) :
    (xs.push x).getD j d = if j = xs.size then x else xs.getD j d := by
  simp only [Array.getD_eq_getD_getElem?, Array.getElem?_push]
  split <;> rfl

theorem getD_of_size_le {α : Type} {xs : Array α} {j : Nat} (h : xs.size ≤ j) (d : α) :
    xs.getD j d = d := by
  simp [Array.getD_eq_getD_getElem?, h]

theorem rel_of_forall₂ {β γ : Type} {R : β → γ → Prop} {xs : List β} {ys : List γ}
    (h : List.Forall₂ R xs ys) {i : Nat} {x : β} {y : γ} (hx : xs[i]? = some x)
    (hy : ys[i]? = some y) : R x y := by
  obtain ⟨hi, rfl⟩ := List.getElem?_eq_some_iff.1 hx
  obtain ⟨hj, rfl⟩ := List.getElem?_eq_some_iff.1 hy
  exact h.get hi hj

theorem mem_of_lookup {β γ : Type} [BEq β] [LawfulBEq β] {xs : List (β × γ)} {k : β} {v : γ}
    (h : xs.lookup k = some v) : (k, v) ∈ xs := by
  obtain ⟨before, after, rfl, -⟩ := List.lookup_eq_some_iff.1 h
  simp

theorem name_of_index? {decls : List PropDecl} {name : String} {i : Nat}
    (h : PropDecl.index? decls name = some i) :
    ∃ decl, decls[i]? = some decl ∧ decl.name = name := by
  obtain ⟨hi, hname, -⟩ := List.findIdx?_eq_some_iff_getElem.1 h
  exact ⟨_, List.getElem?_eq_getElem hi, by simpa using hname⟩

theorem index?_of_find? {decls : List PropDecl} {name : String} {decl : PropDecl}
    (h : decls.find? (·.name == name) = some decl) :
    ∃ i, PropDecl.index? decls name = some i ∧ decls[i]? = some decl := by
  obtain ⟨hname, i, hi, hget, hbefore⟩ := List.find?_eq_some_iff_getElem.1 h
  refine ⟨i, List.findIdx?_eq_some_iff_getElem.2 ⟨hi, ?_, fun j hj => ?_⟩, ?_⟩
  · rw [hget]
    exact hname
  · simpa using hbefore j hj
  · rw [List.getElem?_eq_getElem hi, hget]

namespace Scene

variable {U X : Type} (s : Scene U X)

theorem transition_modify (a b : TransitionId) (f : Transition U → Transition U) :
    (s.modifyTransition a f).transition b =
      if b = a ∧ b < s.transitions.size then f (s.transition b) else s.transition b :=
  getD_modify ..

variable {s} in
theorem running_queue {a : TransitionId} (h : ∀ b ∈ s.clock.running, b < s.transitions.size)
    (ha : a < s.transitions.size) (f : Transition U → Transition U) :
    ∀ b ∈ s.clock.running ++ [a], b < (s.modifyTransition a f).transitions.size := by
  intro b hb
  show b < (s.transitions.modify a f).size
  rw [Array.size_modify]
  rcases List.mem_append.1 hb with hb | hb
  · exact h b hb
  · exact List.mem_singleton.1 hb ▸ ha

theorem repeater_modify (r q : RepeaterId) (f : Repeater U → Repeater U) :
    (s.modifyRepeater r f).repeater q =
      if q = r ∧ q < s.repeaters.size then f (s.repeater q) else s.repeater q :=
  getD_modify ..

theorem component_modify (c e : ComponentId) (f : Component U → Component U) :
    (s.modifyComponent c f).component e =
      if e = c ∧ e < s.components.size then f (s.component e) else s.component e :=
  getD_modify ..

theorem component_modifyItem (it : ItemRef) (f : Item → Item) (e : ComponentId) :
    (s.modifyItem it f).component e =
      { s.component e with items := ((s.modifyItem it f).component e).items } := by
  rw [modifyItem, component_modify]
  split <;> rfl

theorem item_modify (it jt : ItemRef) (f : Item → Item) : (s.modifyItem it f).item jt =
      if jt = it ∧ jt.component < s.components.size ∧ jt.index <
      (s.component jt.component).items.size then f (s.item jt) else s.item jt := by
  obtain ⟨c, i⟩ := it
  obtain ⟨e, j⟩ := jt
  simp only [item, modifyItem, component_modify]
  by_cases hc : e = c ∧ e < s.components.size
  · rw [if_pos hc, getD_modify]
    obtain ⟨rfl, hlt⟩ := hc
    simp [hlt]
  · rw [if_neg hc, if_neg]
    rintro ⟨heq, hlt, -⟩
    cases heq
    exact hc ⟨rfl, hlt⟩

/-- A change that leaves items and scope alone leaves the tables alone. -/
theorem table_modifyComponent (c : ComponentId) {f : Component U → Component U}
    (hitems : ∀ x, (f x).items = x.items) (hscope : ∀ x, (f x).scope = x.scope) (e : ComponentId)
    (node : Option Nat) : (s.modifyComponent c f).table e node = s.table e node := by
  cases node with
  | none =>
    simp only [table, component_modify]
    split
    · exact hscope _
    · rfl
  | some n =>
    simp only [table, item, component_modify]
    split
    · rw [hitems]
    · rfl

theorem table_modifyScope (c : ComponentId) (f : Table → Table) (e : ComponentId)
    (node : Option Nat) :
      (s.modifyComponent c fun x => { x with scope := f x.scope }).table e node = if node = none ∧
        e = c ∧ e < s.components.size then f (s.table e none) else s.table e node := by
  cases node with
  | none =>
    simp only [table, component_modify, true_and]
    split <;> rfl
  | some n =>
    rw [if_neg (by simp)]
    simp only [table, item, component_modify]
    split <;> rfl

theorem table_modifyItem (it : ItemRef) (f : Item → Item) (e : ComponentId) (node : Option Nat) :
    (s.modifyItem it f).table e node =
      if node = some it.index ∧ e = it.component ∧ e < s.components.size ∧
        it.index < (s.component e).items.size then (f (s.item it)).table else s.table e node := by
  cases node with
  | none =>
    rw [if_neg (by simp)]
    simp only [table]
    rw [component_modifyItem]
  | some n =>
    simp only [table, item_modify]
    by_cases h : (⟨e, n⟩ : ItemRef) = it
    · subst h
      by_cases hlt : e < s.components.size ∧ n < (s.component e).items.size
      · simp [hlt]
      · simp [hlt]
    · rw [if_neg (fun hc => h hc.1), if_neg]
      rintro ⟨hn, he, -⟩
      cases hn
      exact h (by rw [he])

/-! ## Transitions of a table -/

def addMotion (spot : Spot) (cell : CellId) (a : TransitionId) : Scene U X :=
  let s := s.modifyComponent spot.component fun c =>
    { c with transitions := c.transitions ++ [(cell, a)] }
  let extend (t : Table) : Table := { t with transitions := t.transitions ++ [(spot.slot, a)] }
  match spot.node with
  | none => s.modifyComponent spot.component fun c => { c with scope := extend c.scope }
  | some n => s.modifyItem ⟨spot.component, n⟩ fun it => { it with table := extend it.table }

theorem addMotion_eq (spot : Spot) (cell : CellId) (a : TransitionId) :
    s.addMotion spot cell a = { s with components := (s.addMotion spot cell a).components } := by
  unfold addMotion
  cases spot.node <;> rfl

theorem transitions_addMotion (spot : Spot) (cell : CellId) (a : TransitionId) (e : ComponentId) :
    ((s.addMotion spot cell a).component e).transitions = if e = spot.component ∧
      e < s.components.size then (s.component e).transitions ++ [(cell, a)] else
        (s.component e).transitions := by
  obtain ⟨c, mode, slot⟩ := spot
  set s1 := s.modifyComponent c fun x => { x with transitions := x.transitions ++ [(cell, a)] }
    with hs1
  have hmoves : (s1.component e).transitions = if e = c ∧ e < s.components.size
      then (s.component e).transitions ++ [(cell, a)] else (s.component e).transitions := by
    rw [hs1, component_modify]
    split <;> rfl
  rw [← hmoves]
  cases mode with
  | none =>
    show ((s1.modifyComponent c _).component e).transitions = _
    rw [component_modify]
    split <;> rfl
  | some n =>
    show ((s1.modifyItem ⟨c, n⟩ _).component e).transitions = _
    rw [component_modifyItem]

theorem lt_of_table {c : ComponentId} {node : Option Nat} (h : (s.table c node).cells ≠ []) :
    c < s.components.size ∧ ∀ n, node = some n → n < (s.component c).items.size := by
  have hsize : c < s.components.size := by
    by_contra hge
    have hdefault : s.component c = default := getD_of_size_le (Nat.le_of_not_lt hge) _
    refine h ?_
    cases node with
    | none => simp only [table, hdefault]; rfl
    | some n =>
      simp only [table, item, hdefault]
      rw [getD_of_size_le (Nat.zero_le n)]
      rfl
  refine ⟨hsize, ?_⟩
  rintro n rfl
  by_contra hge
  refine h ?_
  simp only [table, item]
  rw [getD_of_size_le (Nat.le_of_not_lt hge)]
  rfl

/-- What is in the table where a transition is entered, and in the others. -/
theorem table_addMotion {spot : Spot} (h : (s.table spot.component spot.node).cells ≠ [])
    (cell : CellId) (a : TransitionId) (e : ComponentId) (node : Option Nat) :
    (s.addMotion spot cell a).table e node = if e = spot.component ∧ node = spot.node then
        { s.table e node with transitions := (s.table e node).transitions ++ [(spot.slot, a)] }
      else s.table e node := by
  obtain ⟨hc, hn⟩ := s.lt_of_table h
  obtain ⟨c, mode, slot⟩ := spot
  set s1 := s.modifyComponent c fun x => { x with transitions := x.transitions ++ [(cell, a)] }
    with hs1
  have hsame : ∀ e node, s1.table e node = s.table e node :=
    s.table_modifyComponent c (fun _ => rfl) fun _ => rfl
  have hsize : s1.components.size = s.components.size := Array.size_modify
  cases mode with
  | none =>
    have hget := s1.table_modifyScope c
      (fun t => { t with transitions := t.transitions ++ [(slot, a)] }) e node
    refine hget.trans ?_
    rw [hsize, hsame, hsame]
    by_cases heq : e = c ∧ node = none
    · obtain ⟨rfl, rfl⟩ := heq
      simp [hc]
    · rw [if_neg fun hx => heq ⟨hx.2.1, hx.1⟩, if_neg heq]
  | some n =>
    have hget := s1.table_modifyItem ⟨c, n⟩ (fun it => { it with
      table := { it.table with transitions := it.table.transitions ++ [(slot, a)] } }) e node
    refine hget.trans ?_
    have hitems : (s1.component c).items.size = (s.component c).items.size := by
      rw [hs1, component_modify]
      split <;> rfl
    rw [hsize, hsame]
    by_cases heq : e = c ∧ node = some n
    · obtain ⟨rfl, rfl⟩ := heq
      rw [if_pos ⟨rfl, rfl, hc, by rw [hitems]; exact hn n rfl⟩, if_pos ⟨rfl, rfl⟩]
      have htable := hsame e (some n)
      simp only [table] at htable
      simp only [htable]
      rfl
    · rw [if_neg fun hx => heq ⟨hx.2.1, hx.1⟩, if_neg heq]

/-! ## Handles -/

def addHandle (c : ComponentId) : Scene U X :=
  { s.modifyComponent c fun x => { x with refs := x.refs + 1 } with
    handles := s.handles.push { component := c } }

theorem handle_addHandle (c : ComponentId) (h : HandleId) :
    (s.addHandle c).handle h = if h = s.handles.size then { component := c } else s.handle h :=
  getD_push ..

def freeHandle (h : HandleId) : Scene U X :=
  { s.modifyComponent (s.handle h).component fun c => { c with refs := c.refs - 1 } with
    handles := s.handles.modify h fun x => { x with released := true } }

theorem handle_freeHandle (h i : HandleId) : (s.freeHandle h).handle i =
      if i = h ∧ i < s.handles.size then { s.handle i with released := true } else s.handle i :=
  getD_modify ..

end Scene

/-! ## Code -/

instance : Nontrivial Value := ⟨.void, .bool true, nofun⟩

instance : Nontrivial (Option Model) := ⟨none, some (.count 0), nofun⟩

namespace Code

variable {U : Type}

/-- Code that is about one of the first `n` transitions, if about any. -/
def Known (n : Nat) : {α : Type} → Code U α → Prop
  | _, .retarget a => a < n
  | _, _ => True

theorem Known.mono {m n : Nat} (hmn : m ≤ n) {α : Type} {code : Code U α} (h : code.Known m) :
    code.Known n := by
  cases code with
  | retarget a => exact Nat.lt_of_lt_of_le h hmn
  | _ => trivial

theorem known_of_retarget {n : Nat} {code : Code U Unit}
    (h : ∀ a, code = .retarget a → a < n) : code.Known n := by
  suffices hall : ∀ {α : Type} (code : Code U α),
      (∀ a, HEq code (retarget a : Code U Unit) → a < n) → code.Known n from
    hall code fun a ha => h a (eq_of_heq ha)
  intro α code h
  cases code with
  | retarget a => exact h a HEq.rfl
  | _ => trivial

/-- Code with more than one possible result is about no transition. -/
theorem known (n : Nat) {α : Type} [Nontrivial α] (code : Code U α) : code.Known n := by
  cases code with
  | retarget a =>
    obtain ⟨x, y, hne⟩ := exists_pair_ne Unit
    exact absurd rfl hne
  | _ => trivial

end Code

end ReactiveTree
