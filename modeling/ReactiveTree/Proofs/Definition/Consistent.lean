import Mathlib.Data.List.Nodup
import ReactiveTree.Definition.Basic
import ReactiveTree.Proofs.Value.Fits

/-!
# Consistent definitions

What the builder calls guarantee of a definition, whatever their order and arguments: every
entry is about a property, callback or element that the definition has, values have the
declared kinds, links join equal kinds, and the elements form a tree. Calls after a fault
change nothing, so there is nothing to say about faults.
-/

namespace ReactiveTree.Definition

variable {U : Type} {d e sub : Definition U} {row : Definition U → Prop}

/-- The declaration that a node, and not the root element in place of the component, has under
a name. -/
def decl? (d : Definition U) (node : Option Nat) (prop : String) : Option PropDecl :=
  match node with
  | none => d.declared.find? (·.name == prop)
  | some n => d.elementProp? n prop

/-- The properties of a node of an instance. -/
def declsOf (d : Definition U) : Option Nat → List PropDecl
  | none => d.declared
  | some n =>
    match d.nodes[n]? with
    | none => []
    | some node => node.kind.layout.props

/-- The id and the callbacks of a node of an instance. -/
def outlineOf (d : Definition U) : Option Nat → String × List CallbackDecl
  | none => ("", d.callbacks)
  | some n =>
    match d.nodes[n]? with
    | none => ("", [])
    | some node => (node.id, node.kind.layout.callbacks)

theorem decl?_eq_find? (d : Definition U) (node : Option Nat) (prop : String) :
    d.decl? node prop = (d.declsOf node).find? (·.name == prop) := by
  cases node with
  | none => rfl
  | some n =>
    simp only [decl?, elementProp?, declsOf]
    cases d.nodes[n]? <;> rfl

theorem decl?_of_find? {n m : Option Nat} {prop : String} {decl : PropDecl}
    (h : d.find? n prop = some (m, decl)) : d.decl? m prop = some decl := by
  have helement {k : Nat} (h : (d.elementProp? k prop).map (fun decl => (some k, decl)) =
      some (m, decl)) : d.decl? m prop = some decl := by
    obtain ⟨_, hk, heq⟩ := Option.map_eq_some_iff.1 h
    cases heq
    exact hk
  cases n with
  | some k => exact helement h
  | none =>
    unfold find? at h
    dsimp only at h
    split at h
    · cases h
      assumption
    · exact helement h

theorem decl?_of_resolve {id prop : String} {m : Option Nat} {decl : PropDecl}
    (h : d.resolve id prop = .ok (m, decl)) : d.decl? m prop = some decl := by
  unfold resolve at h
  split at h
  · cases h
  · split at h
    · cases h
    · cases h
      exact decl?_of_find? ‹_›

/-- The children of node `n` are later nodes, each once, and know their parent. -/
structure Offspring (nodes : List NodeDef) (n : Nat) (children : List Nat) : Prop where
  parent : ∀ k ∈ children, n < k ∧ ∃ child, nodes[k]? = some child ∧ child.parent = some n
  nodup : children.Nodup

/-- The entries of a definition are in order, and `row` holds of what it repeats. -/
structure Consistent (row : Definition U → Prop) (d : Definition U) : Prop where
  declared : ∀ decl ∈ d.declared, decl.default.Fits decl.kind
  sets : ∀ x ∈ d.sets, ∃ decl, d.decl? x.node x.prop = some decl ∧ x.v.Fits decl.kind
  binds : ∀ x ∈ d.binds, ∃ decl, d.decl? x.node x.prop = some decl
  anims : ∀ x ∈ d.anims, ∃ decl, d.decl? x.node x.prop = some decl
  links : ∀ l ∈ d.links, ∃ a b, d.decl? l.node l.prop = some a ∧
    d.decl? l.other l.otherProp = some b ∧ a.kind = b.kind
  handlers : ∀ h ∈ d.handlers, ∃ decl, d.callbackDecl? h.node h.name = some decl
  repeats : ∀ x ∈ d.repeats, x.1 < d.nodes.length ∧ row x.2.1
  children : ∀ n node, d.nodes[n]? = some node → Offspring d.nodes n node.children
  parents : ∀ n (node : NodeDef), d.nodes[n]? = some node → ∀ p, node.parent = some p → p < n

/-! ## Growth -/

/-- What `d` declares, `e` declares too. -/
structure Grown (d e : Definition U) : Prop where
  decl : ∀ {n prop decl}, d.decl? n prop = some decl → e.decl? n prop = some decl
  callback : ∀ {n name decl}, d.callbackDecl? n name = some decl →
    e.callbackDecl? n name = some decl
  nodes : d.nodes.length ≤ e.nodes.length

section

variable (h : d.Consistent row)
include h

theorem Consistent.grow (hg : Grown d e)
    (hsets : e.sets = d.sets) (hbinds : e.binds = d.binds) (hanims : e.anims = d.anims)
    (hlinks : e.links = d.links) (hhandlers : e.handlers = d.handlers)
    (hrepeats : e.repeats = d.repeats)
    (hdeclared : ∀ decl ∈ e.declared, decl.default.Fits decl.kind)
    (hchildren : ∀ n node, e.nodes[n]? = some node → Offspring e.nodes n node.children)
    (hparents : ∀ n (node : NodeDef), e.nodes[n]? = some node → ∀ p, node.parent = some p →
      p < n) : e.Consistent row where
  declared := hdeclared
  sets x hx := by
    obtain ⟨decl, hdecl, hv⟩ := h.sets x (hsets ▸ hx)
    exact ⟨decl, hg.decl hdecl, hv⟩
  binds x hx := (h.binds x (hbinds ▸ hx)).imp fun _ => hg.decl
  anims x hx := (h.anims x (hanims ▸ hx)).imp fun _ => hg.decl
  links l hl := by
    obtain ⟨a, b, ha, hb, hk⟩ := h.links l (hlinks ▸ hl)
    exact ⟨a, b, hg.decl ha, hg.decl hb, hk⟩
  handlers x hx := (h.handlers x (hhandlers ▸ hx)).imp fun _ => hg.callback
  repeats x hx :=
    (h.repeats x (hrepeats ▸ hx)).imp_left fun hlt => Nat.lt_of_lt_of_le hlt hg.nodes
  children := hchildren
  parents := hparents

omit h in
theorem grown_nodes {nodes : List NodeDef} (h : ∀ (n : Nat) (node : NodeDef),
      d.nodes[n]? = some node → ∃ node' : NodeDef, nodes[n]? = some node' ∧
        node'.kind = node.kind) :
    Grown d { d with nodes } := by
  have hlen : d.nodes.length ≤ nodes.length := by
    by_contra hlt
    obtain ⟨node', hnode, -⟩ := h nodes.length _ (List.getElem?_eq_getElem (Nat.lt_of_not_le hlt))
    simp at hnode
  refine ⟨fun {n prop decl} hdecl => ?_, fun {n name decl} hdecl => ?_, hlen⟩
  · cases n with
    | none => exact hdecl
    | some n =>
      simp only [decl?, elementProp?] at hdecl ⊢
      cases hn : d.nodes[n]? with
      | none => simp [hn] at hdecl
      | some node =>
        obtain ⟨node', hnode, hkind⟩ := h n node hn
        simpa [hn, hnode, hkind] using hdecl
  · cases n with
    | none => exact hdecl
    | some n =>
      simp only [callbackDecl?] at hdecl ⊢
      cases hn : d.nodes[n]? with
      | none => simp [hn] at hdecl
      | some node =>
        obtain ⟨node', hnode, hkind⟩ := h n node hn
        simpa [hn, hnode, hkind] using hdecl

/-- The nodes with a new one at the end, known to its parent. -/
def addedNodes (nodes : List NodeDef) (new : NodeDef) : List NodeDef :=
  (match new.parent with
    | none => nodes
    | some p => nodes.modify p fun node =>
      { node with children := node.children ++ [nodes.length] }) ++ [new]

omit h in
theorem getElem?_addedNodes (nodes : List NodeDef) (new : NodeDef) (n : Nat) :
    (addedNodes nodes new)[n]? = if n = nodes.length then some new else nodes[n]?.map fun node =>
        if new.parent = some n then { node with children := node.children ++ [nodes.length] }
        else node := by
  have hlen : (match new.parent with
      | none => nodes
      | some p => nodes.modify p fun node =>
        { node with children := node.children ++ [nodes.length] }).length = nodes.length := by
    cases new.parent <;> simp
  rw [addedNodes, List.getElem?_append, hlen]
  by_cases hlt : n < nodes.length
  · rw [if_pos hlt, if_neg (Nat.ne_of_lt hlt)]
    cases hp : new.parent with
    | none => simp
    | some p =>
      rw [List.getElem?_modify]
      by_cases hpn : p = n <;> simp [hpn]
  · rw [if_neg hlt, List.getElem?_eq_none (Nat.le_of_not_lt hlt)]
    by_cases hn : n = nodes.length
    · simp [hn]
    · have hsub : n - nodes.length ≠ 0 := by omega
      simp [hn, hsub]

omit h in
theorem kind_addedNodes {nodes : List NodeDef} (new : NodeDef) {n : Nat} {node : NodeDef}
    (h : nodes[n]? = some node) :
    ∃ node' : NodeDef, (addedNodes nodes new)[n]? = some node' ∧ node'.kind = node.kind ∧
      node'.parent = node.parent := by
  have hn : n ≠ nodes.length := Nat.ne_of_lt (List.getElem?_eq_some_iff.1 h).1
  rw [getElem?_addedNodes, if_neg hn, h]
  refine ⟨_, rfl, ?_⟩
  split <;> exact ⟨rfl, rfl⟩

omit h in
theorem Offspring.added {nodes : List NodeDef} {new : NodeDef}
    (h : ∀ n node, nodes[n]? = some node → Offspring nodes n node.children)
    (hnew : new.children = []) {n : Nat} {node : NodeDef}
    (hn : (addedNodes nodes new)[n]? = some node) :
    Offspring (addedNodes nodes new) n node.children := by
  have hold {k : Nat} (hk : ∃ child, nodes[k]? = some child ∧ child.parent = some n) :
      ∃ child, (addedNodes nodes new)[k]? = some child ∧ child.parent = some n := by
    obtain ⟨child, hc, hp⟩ := hk
    obtain ⟨child', hc', -, hp'⟩ := kind_addedNodes new hc
    exact ⟨child', hc', hp'.trans hp⟩
  rw [getElem?_addedNodes] at hn
  split at hn
  · cases hn
    exact ⟨by simp [hnew], by simp [hnew]⟩
  · obtain ⟨old, hget, rfl⟩ := Option.map_eq_some_iff.1 hn
    have hlt := (List.getElem?_eq_some_iff.1 hget).1
    obtain ⟨hparent, hnodup⟩ := h n old hget
    split
    · rename_i hp
      refine ⟨fun k hk => ?_, ?_⟩
      · rcases List.mem_append.1 hk with hk | hk
        · exact ⟨(hparent k hk).1, hold (hparent k hk).2⟩
        · obtain rfl := List.mem_singleton.1 hk
          exact ⟨hlt, new, by simp [getElem?_addedNodes], hp⟩
      · -- the new node is later than all there are
        have hnot : nodes.length ∉ old.children := by
          intro hk
          obtain ⟨-, child, hc, -⟩ := hparent _ hk
          simp at hc
        exact List.nodup_append.2 ⟨hnodup, List.nodup_singleton _, fun k hk k' hk' heq =>
          hnot (List.mem_singleton.1 hk' ▸ heq ▸ hk)⟩
    · exact ⟨fun k hk => ⟨(hparent k hk).1, hold (hparent k hk).2⟩, hnodup⟩

/-! ## Builder calls -/

theorem Consistent.fail (f : Fault) : (d.fail f).Consistent row := by
  unfold Definition.fail
  split
  · exact h
  · exact { h with }

theorem Consistent.unlessFaulty {next : Definition U} (hnext : next.Consistent row) :
    (d.unlessFaulty next).Consistent row := by
  unfold Definition.unlessFaulty
  split
  · exact h
  · exact hnext

theorem Consistent.onProp (id prop : String)
    {next : Option Nat → PropDecl → Definition U}
    (hnext : ∀ n decl, d.decl? n prop = some decl → (next n decl).Consistent row) :
    (d.onProp id prop next).Consistent row := by
  refine h.unlessFaulty ?_
  split
  · exact h.fail _
  · exact hnext _ _ (decl?_of_resolve ‹_›)

omit h in
theorem consistent_new (name : String) : ({ name } : Definition U).Consistent row :=
  ⟨nofun, nofun, nofun, nofun, nofun, nofun, nofun, fun n node h => by simp at h,
    fun n node h => by simp at h⟩

omit h in
/-- Adding an element faults or puts a node without children at the end. -/
theorem addNode_cases (d : Definition U) (kind : Nat) (id : String) (parent : Option Nat) :
    (∃ f, d.addNode kind id parent = d.fail f) ∨
      ∃ new : NodeDef, new.parent = parent ∧ new.children = [] ∧
        d.addNode kind id parent = { d with nodes := addedNodes d.nodes new } := by
  unfold Definition.addNode
  split
  · exact .inl ⟨_, rfl⟩
  · extract_lets n id
    by_cases hdup : d.hasItem id = true
    · exact .inl ⟨_, if_pos hdup⟩
    · exact .inr ⟨{ id, kind := _, parent }, rfl, rfl, if_neg hdup⟩

theorem Consistent.addNode (kind : Nat) (id : String) {parent : Option Nat}
    (hparent : ∀ p, parent = some p → p < d.nodes.length) :
    (d.addNode kind id parent).Consistent row := by
  obtain ⟨f, heq⟩ | ⟨new, hnewp, hnew, heq⟩ := d.addNode_cases kind id parent
  · exact heq ▸ h.fail f
  · rw [heq]
    refine h.grow (grown_nodes fun n node hn => ?_) rfl rfl rfl rfl rfl rfl h.declared
      (fun n node hn => Offspring.added h.children hnew hn) fun n node hn p hp => ?_
    · obtain ⟨node', hnode, hkind, -⟩ := kind_addedNodes new hn
      exact ⟨node', hnode, hkind⟩
    · rw [getElem?_addedNodes] at hn
      split at hn
      · rename_i hlast
        cases hn
        exact hlast ▸ hparent p (hnewp ▸ hp)
      · obtain ⟨old, hold, rfl⟩ := Option.map_eq_some_iff.1 hn
        refine h.parents n old hold p ?_
        split at hp <;> exact hp

omit h in
theorem lt_of_node? {id : String} {p : Nat} (h : d.node? id = some (some p)) :
    p < d.nodes.length := by
  unfold node? at h
  split at h
  · cases h
  · obtain ⟨i, hi, heq⟩ := Option.map_eq_some_iff.1 h
    cases heq
    exact (List.findIdx?_eq_some_iff_getElem.1 hi).1

theorem Consistent.root (kind : Nat) (id : String) :
    (d.root kind id).Consistent row := by
  refine h.unlessFaulty ?_
  split
  · exact h.addNode kind id nofun
  · exact h.fail _

theorem Consistent.child (parent : String) (kind : Nat) (id : String) :
    (d.child parent kind id).Consistent row := by
  refine h.unlessFaulty ?_
  split
  · rename_i p hp
    refine h.addNode kind id fun q hq => ?_
    cases hq
    exact lt_of_node? hp
  · exact h.fail _

theorem Consistent.declare (name : String) (kind : Kind) (default : Value) :
    (d.declare name kind default).Consistent row := by
  refine h.unlessFaulty ?_
  split
  · exact h.fail _
  · split
    · rename_i v hv
      refine h.grow ⟨fun {n prop decl} hdecl => ?_, fun h => h, Nat.le_refl _⟩ rfl rfl rfl rfl rfl
        rfl (fun decl hdecl => ?_) h.children h.parents
      · cases n with
        | some n => exact hdecl
        | none =>
          have hfind : d.declared.find? (·.name == prop) = some decl := hdecl
          simp [decl?, List.find?_append, hfind]
      · rcases List.mem_append.1 hdecl with hdecl | hdecl
        · exact h.declared decl hdecl
        · obtain rfl := List.mem_singleton.1 hdecl
          exact Value.coerceTo_fits hv
    · exact h.fail _

theorem Consistent.declareCallback (name : String) (args : List Kind) :
    (d.declareCallback name args).Consistent row := by
  refine h.unlessFaulty ?_
  split
  · exact h.fail _
  · refine h.grow ⟨fun h => h, fun {n prop decl} hdecl => ?_, Nat.le_refl _⟩ rfl rfl rfl rfl rfl
      rfl h.declared h.children h.parents
    cases n with
    | some n => exact hdecl
    | none =>
      have hfind : d.callbacks.find? (·.name == prop) = some decl := hdecl
      simp [callbackDecl?, List.find?_append, hfind]

omit h in
/-- A property of every entry of a list and of the one put at its end. -/
theorem forall_mem_concat {α : Type} {p : α → Prop} {xs : List α} {y : α} (h : ∀ x ∈ xs, p x)
    (hy : p y) : ∀ x ∈ xs ++ [y], p x := by
  intro x hx
  rcases List.mem_append.1 hx with hx | hx
  · exact h x hx
  · exact List.mem_singleton.1 hx ▸ hy

theorem Consistent.set (id prop : String) (v : Value) :
    (d.set id prop v).Consistent row := by
  refine h.onProp id prop fun n decl hdecl => ?_
  split
  · exact h.fail _
  · exact { h with sets := forall_mem_concat h.sets ⟨decl, hdecl, Value.coerceTo_fits ‹_›⟩ }

theorem Consistent.bind (id prop : String) (template : BindingTemplate U) :
    (d.bind id prop template).Consistent row :=
  h.onProp id prop fun _ decl hdecl =>
    { h with binds := forall_mem_concat h.binds ⟨decl, hdecl⟩ }

theorem Consistent.animate (id prop : String) (spec : Spec) :
    (d.animate id prop spec).Consistent row :=
  h.onProp id prop fun _ decl hdecl =>
    { h with anims := forall_mem_concat h.anims ⟨decl, hdecl⟩ }

theorem Consistent.twoWay (id prop otherId otherProp : String) :
    (d.twoWay id prop otherId otherProp).Consistent row := by
  refine h.onProp id prop fun n a ha => h.onProp otherId otherProp fun o b hb => ?_
  split
  · exact h.fail _
  · rename_i hkind
    split
    · exact h.fail _
    · split
      · exact h.fail _
      · split
        · exact h.fail _
        · exact { h with
            links := forall_mem_concat h.links ⟨a, b, ha, hb, Decidable.not_not.1 hkind⟩ }

theorem Consistent.onCallback (id name : String) (template : HandlerTemplate U) :
    (d.onCallback id name template).Consistent row := by
  refine h.unlessFaulty ?_
  split
  · exact h.fail _
  · split
    · exact { h with
        handlers := forall_mem_concat h.handlers (Option.isSome_iff_exists.1 ‹_›) }
    · exact h.fail _

theorem Consistent.focus (id : String) : (d.focus id).Consistent row := by
  refine h.unlessFaulty ?_
  split
  · split
    · exact h.fail _
    · split
      · exact { h with }
      · exact h.fail _
  · exact h.fail _

omit h in
/-- To become a row, a definition declares at most more properties. -/
theorem asRow_of_declare {p : Definition U → Prop} (h : p sub)
    (hdeclare : ∀ {d} (name : String) (kind : Kind) (default : Value), p d →
      p (d.declare name kind default)) : p sub.asRow := by
  have hdata : p (if (sub.find? none "model_data").isSome then sub
      else sub.declare "model_data" .void .void) := by
    split
    · exact h
    · exact hdeclare _ _ _ h
  unfold Definition.asRow
  extract_lets data
  split
  · exact hdata
  · exact hdeclare _ _ _ hdata

theorem Consistent.repeatRows (parent : String) (hsub : row sub.asRow)
    (model : Option (ModelTemplate U)) : (d.repeatRows parent sub model).1.Consistent row := by
  unfold Definition.repeatRows
  split
  · exact h
  · split
    · rename_i p hp
      split
      · exact h.fail _
      · split
        · exact h.fail _
        · exact { h with repeats := forall_mem_concat h.repeats ⟨lt_of_node? hp, hsub⟩ }
    · exact h.fail _

end

/-! ## All that can be built -/

inductive Made : Definition U → Prop where
  | new (name : String) : Made { name }
  | root {d : Definition U} (h : Made d) (kind : Nat) (id : String) : Made (d.root kind id)
  | child {d : Definition U} (h : Made d) (parent : String) (kind : Nat) (id : String) :
      Made (d.child parent kind id)
  | declare {d : Definition U} (h : Made d) (name : String) (kind : Kind) (default : Value) :
      Made (d.declare name kind default)
  | declareCallback {d : Definition U} (h : Made d) (name : String) (args : List Kind) :
      Made (d.declareCallback name args)
  | set {d : Definition U} (h : Made d) (id prop : String) (v : Value) : Made (d.set id prop v)
  | bind {d : Definition U} (h : Made d) (id prop : String) (template : BindingTemplate U) :
      Made (d.bind id prop template)
  | animate {d : Definition U} (h : Made d) (id prop : String) (spec : Spec) :
      Made (d.animate id prop spec)
  | twoWay {d : Definition U} (h : Made d) (id prop otherId otherProp : String) :
      Made (d.twoWay id prop otherId otherProp)
  | onCallback {d : Definition U} (h : Made d) (id name : String) (template : HandlerTemplate U) :
      Made (d.onCallback id name template)
  | focus {d : Definition U} (h : Made d) (id : String) : Made (d.focus id)
  | repeatRows {d sub : Definition U} (h : Made d) (parent : String) (hsub : Made sub)
      (model : Option (ModelTemplate U)) : Made (d.repeatRows parent sub model).1
  /-- What is repeated may be built further. -/
  | rework {d sub : Definition U} (h : Made d) (k : Nat) (hsub : Made sub) :
      Made { d with repeats := d.repeats.modify k fun x => (x.1, sub, x.2.2) }

theorem Made.asRow (h : Made sub) : Made sub.asRow :=
  asRow_of_declare h fun name kind default h => h.declare name kind default

theorem Made.consistent (h : Made d) : d.Consistent Made := by
  induction h with
  | new name => exact consistent_new name
  | root _ kind id ih => exact ih.root kind id
  | child _ parent kind id ih => exact ih.child parent kind id
  | declare _ name kind default ih => exact ih.declare name kind default
  | declareCallback _ name args ih => exact ih.declareCallback name args
  | set _ id prop v ih => exact ih.set id prop v
  | bind _ id prop template ih => exact ih.bind id prop template
  | animate _ id prop spec ih => exact ih.animate id prop spec
  | twoWay _ id prop otherId otherProp ih => exact ih.twoWay id prop otherId otherProp
  | onCallback _ id name template ih => exact ih.onCallback id name template
  | focus _ id ih => exact ih.focus id
  | repeatRows _ parent hsub model ih => exact ih.repeatRows parent hsub.asRow model
  | rework _ k hsub ih =>
    refine { ih with repeats := fun x hx => ?_ }
    obtain ⟨i, hi⟩ := List.mem_iff_getElem?.1 hx
    rw [List.getElem?_modify] at hi
    obtain ⟨y, hy, rfl⟩ := Option.map_eq_some_iff.1 hi
    have hold := ih.repeats y (List.mem_of_getElem? hy)
    split
    · exact ⟨hold.1, hsub⟩
    · exact hold

end ReactiveTree.Definition
