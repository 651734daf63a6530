import Mathlib.Data.List.Induction
import ReactiveTree.Proofs.Definition.Forest

/-!
# Names in a definition that grows

A builder call looks names up in what the definition is so far, and records the node it finds. The
definition goes on growing, but no later call that is accepted changes what a name means: elements
keep their places and ids, and a property is declared only under a name that meant nothing yet
(`Extends.resolve`). So a recorded node is what the name means in the end (`ofCalls_recorded`).
-/

namespace ReactiveTree.Definition

variable {U : Type} {d e f : Definition U}
variable {n : Option Nat} {id name prop : String}

inductive Call (U : Type) where
  | root (kind : Nat) (id : String)
  | child (parent : String) (kind : Nat) (id : String)
  | declare (name : String) (kind : Kind) (default : Value)
  | declareCallback (name : String) (args : List Kind)
  | set (id prop : String) (v : Value)
  | bind (id prop : String) (template : BindingTemplate U)
  | animate (id prop : String) (spec : Spec)
  | twoWay (id prop otherId otherProp : String)
  | onCallback (id name : String) (template : HandlerTemplate U)
  | focus (id : String)
  | repeatRows (parent : String) (sub : Definition U) (model : Option (ModelTemplate U))
  /-- A call to a definition that is repeated already. -/
  | rework (k : Nat) (sub : Definition U)

namespace Call

def apply : Call U → Definition U → Definition U
  | .root kind id, d => d.root kind id
  | .child parent kind id, d => d.child parent kind id
  | .declare name kind default, d => d.declare name kind default
  | .declareCallback name args, d => d.declareCallback name args
  | .set id prop v, d => d.set id prop v
  | .bind id prop template, d => d.bind id prop template
  | .animate id prop spec, d => d.animate id prop spec
  | .twoWay id prop otherId otherProp, d => d.twoWay id prop otherId otherProp
  | .onCallback id name template, d => d.onCallback id name template
  | .focus id, d => d.focus id
  | .repeatRows parent sub model, d => (d.repeatRows parent sub model).1
  | .rework k sub, d => { d with repeats := d.repeats.modify k fun x => (x.1, sub, x.2.2) }

/-- What a call repeats is built by calls, too. -/
def Sound : Call U → Prop
  | .repeatRows _ sub _ | .rework _ sub => sub.Made
  | _ => True

/-- The properties that a call names, by id and name. -/
def names : Call U → List (String × String)
  | .set id prop _ | .bind id prop _ | .animate id prop _ => [(id, prop)]
  | .twoWay id prop otherId otherProp => [(id, prop), (otherId, otherProp)]
  | _ => []

end Call

def ofCalls (name : String) (calls : List (Call U)) : Definition U :=
  calls.foldl (fun d k => k.apply d) { name }

theorem ofCalls_append (name : String) (calls calls' : List (Call U)) :
    ofCalls name (calls ++ calls') = calls'.foldl (fun d k => k.apply d) (ofCalls name calls) :=
  List.foldl_append

theorem Call.made {k : Call U} (hk : k.Sound) (h : d.Made) : (k.apply d).Made := by
  cases k with
  | root kind id => exact h.root kind id
  | child parent kind id => exact h.child parent kind id
  | declare name kind default => exact h.declare name kind default
  | declareCallback name args => exact h.declareCallback name args
  | set id prop v => exact h.set id prop v
  | bind id prop template => exact h.bind id prop template
  | animate id prop spec => exact h.animate id prop spec
  | twoWay id prop otherId otherProp => exact h.twoWay id prop otherId otherProp
  | onCallback id name template => exact h.onCallback id name template
  | focus id => exact h.focus id
  | repeatRows parent sub model => exact h.repeatRows parent hk model
  | rework k sub => exact h.rework k hk

theorem made_ofCalls (name : String) {calls : List (Call U)} (h : ∀ k ∈ calls, k.Sound) :
    (ofCalls name calls).Made := by
  induction calls using List.reverseRecOn with
  | nil => exact .new name
  | append_singleton calls k ih =>
    rw [ofCalls_append]
    exact Call.made (h k (by simp)) (ih fun k' hk' => h k' (by simp [hk']))

/-! ## Calls that are accepted -/

@[simp]
theorem fault_fail (d : Definition U) (f : Fault) : (d.fail f).fault ≠ none := by
  unfold fail
  split
  · rename_i h
    simp [h]
  · simp

theorem of_unlessFaulty (h : (d.unlessFaulty e).fault = none) :
    d.fault = none ∧ d.unlessFaulty e = e := by
  unfold unlessFaulty at h ⊢
  split at h
  · rename_i hsome
    rw [h] at hsome
    cases hsome
  · rename_i hnone
    exact ⟨Option.not_isSome_iff_eq_none.1 hnone, if_neg hnone⟩

theorem of_onProp {next : Option Nat → PropDecl → Definition U}
    (h : (d.onProp id prop next).fault = none) : d.fault = none ∧
      ∃ n decl, d.resolve id prop = .ok (n, decl) ∧ d.onProp id prop next = next n decl := by
  obtain ⟨hd, heq⟩ := of_unlessFaulty h
  refine ⟨hd, ?_⟩
  unfold onProp at h ⊢
  rw [heq] at h ⊢
  split at h
  · simp at h
  · rename_i n decl hresolve
    exact ⟨n, decl, hresolve, rfl⟩

/-! ## Growth -/

/-- The properties that entries of a definition are about. -/
def recorded (d : Definition U) : List Key :=
  d.sets.map (fun x => (x.node, x.prop)) ++ d.binds.map (fun x => (x.node, x.prop)) ++
    d.anims.map (fun x => (x.node, x.prop)) ++ d.links.flatMap fun l => [l.source, l.target]

/-- `e` has all that `d` has, and what it has declared since then has new names. -/
structure Extends (d e : Definition U) : Prop where
  nodes : ∀ {n : Nat} {node : NodeDef}, d.nodes[n]? = some node →
    ∃ node' : NodeDef, e.nodes[n]? = some node' ∧ node'.id = node.id ∧ node'.kind = node.kind
  declared : d.declared <+: e.declared
  fresh : ∀ decl ∈ e.declared, decl ∈ d.declared ∨ d.find? none decl.name = none
  callbacks : d.callbacks <+: e.callbacks
  sets : d.sets ⊆ e.sets
  binds : d.binds ⊆ e.binds
  anims : d.anims ⊆ e.anims
  links : d.links ⊆ e.links
  handlers : d.handlers ⊆ e.handlers

namespace Extends

theorem refl (d : Definition U) : d.Extends d :=
  ⟨fun h => ⟨_, h, rfl, rfl⟩, List.prefix_refl _, fun _ h => .inl h, List.prefix_refl _,
    List.Subset.refl _, List.Subset.refl _, List.Subset.refl _, List.Subset.refl _,
    List.Subset.refl _⟩

theorem elementProp? (h : d.Extends e) {n : Nat} {decl : PropDecl}
    (hd : d.elementProp? n prop = some decl) : e.elementProp? n prop = some decl := by
  unfold Definition.elementProp? at hd ⊢
  split at hd
  · cases hd
  · rename_i node hnode
    obtain ⟨node', hnode', -, hkind⟩ := h.nodes hnode
    rw [hnode']
    dsimp only
    rw [hkind]
    exact hd

theorem find? (h : d.Extends e) {found : Option Nat × PropDecl}
    (hd : d.find? n prop = some found) : e.find? n prop = some found := by
  cases n with
  | some n =>
    obtain ⟨decl, hdecl, rfl⟩ := Option.map_eq_some_iff.1 hd
    exact Option.map_eq_some_iff.2 ⟨decl, h.elementProp? hdecl, rfl⟩
  | none =>
    have hfound := hd
    simp only [Definition.find?] at hd ⊢
    split at hd
    · rename_i decl hdecl
      cases hd
      rw [(h.declared.find?_eq_some hdecl)]
    · rename_i hnone
      obtain ⟨decl, hdecl, rfl⟩ := Option.map_eq_some_iff.1 hd
      -- nothing of that name has been declared since
      have hnone' : e.declared.find? (·.name == prop) = none := by
        refine List.find?_eq_none.2 fun x hx hname => ?_
        obtain rfl := eq_of_beq hname
        rcases h.fresh x hx with hold | hfresh
        · exact List.find?_eq_none.1 hnone x hold hname
        · rw [hfound] at hfresh
          cases hfresh
      rw [hnone', h.elementProp? hdecl]
      rfl

theorem node? (h : d.Extends e) (hd : d.node? id = some n) : e.node? id = some n := by
  unfold Definition.node? at hd ⊢
  split at hd
  · rw [if_pos ‹_›]
    exact hd
  · rw [if_neg ‹_›]
    obtain ⟨i, hi, rfl⟩ := Option.map_eq_some_iff.1 hd
    refine Option.map_eq_some_iff.2 ⟨i, ?_, rfl⟩
    obtain ⟨hlt, hid, hbefore⟩ := List.findIdx?_eq_some_iff_getElem.1 hi
    obtain ⟨node, hnode, hsame, -⟩ := h.nodes (List.getElem?_eq_getElem hlt)
    obtain ⟨hlt', rfl⟩ := List.getElem?_eq_some_iff.1 hnode
    refine List.findIdx?_eq_some_iff_getElem.2 ⟨hlt', hsame ▸ hid, fun j hj => ?_⟩
    obtain ⟨other, hother, hid', -⟩ := h.nodes (List.getElem?_eq_getElem (Nat.lt_trans hj hlt))
    rw [(List.getElem?_eq_some_iff.1 hother).2, hid']
    exact hbefore j hj

/-- A name that means something keeps its meaning. -/
theorem resolve (h : d.Extends e) {found : Option Nat × PropDecl}
    (hd : d.resolve id prop = .ok found) : e.resolve id prop = .ok found := by
  unfold Definition.resolve at hd ⊢
  split at hd
  · cases hd
  · rename_i n hn
    rw [h.node? hn]
    dsimp only
    split at hd
    · cases hd
    · rename_i found' hfound
      cases hd
      rw [h.find? hfound]

theorem callbackDecl? (h : d.Extends e) {decl : CallbackDecl}
    (hd : d.callbackDecl? n name = some decl) : e.callbackDecl? n name = some decl := by
  cases n with
  | none => exact h.callbacks.find?_eq_some hd
  | some n =>
    unfold Definition.callbackDecl? at hd ⊢
    dsimp only at hd ⊢
    split at hd
    · cases hd
    · rename_i node hnode
      obtain ⟨node', hnode', -, hkind⟩ := h.nodes hnode
      rw [hnode']
      dsimp only
      rw [hkind]
      exact hd

theorem trans (h : d.Extends e) (h' : e.Extends f) : d.Extends f where
  nodes hn := by
    obtain ⟨node, hnode, hid, hkind⟩ := h.nodes hn
    obtain ⟨node', hnode', hid', hkind'⟩ := h'.nodes hnode
    exact ⟨node', hnode', hid'.trans hid, hkind'.trans hkind⟩
  declared := h.declared.trans h'.declared
  fresh decl hdecl := by
    rcases h'.fresh decl hdecl with hold | hnew
    · exact h.fresh decl hold
    · refine .inr (Option.eq_none_iff_forall_ne_some.2 fun found hfound => ?_)
      rw [h.find? hfound] at hnew
      cases hnew
  callbacks := h.callbacks.trans h'.callbacks
  sets := List.Subset.trans h.sets h'.sets
  binds := List.Subset.trans h.binds h'.binds
  anims := List.Subset.trans h.anims h'.anims
  links := List.Subset.trans h.links h'.links
  handlers := List.Subset.trans h.handlers h'.handlers

theorem recorded (h : d.Extends e) : d.recorded ⊆ e.recorded := by
  intro k hk
  simp only [Definition.recorded, List.mem_append, List.mem_map, List.mem_flatMap] at hk ⊢
  rcases hk with ((⟨x, hx, rfl⟩ | ⟨x, hx, rfl⟩) | ⟨x, hx, rfl⟩) | ⟨x, hx, hk⟩
  · exact .inl (.inl (.inl ⟨x, h.sets hx, rfl⟩))
  · exact .inl (.inl (.inr ⟨x, h.binds hx, rfl⟩))
  · exact .inl (.inr ⟨x, h.anims hx, rfl⟩)
  · exact .inr ⟨x, h.links hx, hk⟩

end Extends

theorem extends_addNode {kind : Nat} {parent : Option Nat}
    (h : (d.addNode kind id parent).fault = none) : d.Extends (d.addNode kind id parent) := by
  rcases d.addNode_cases kind id parent with ⟨f, hf⟩ | ⟨new, -, -, heq⟩
  · rw [hf] at h
    simp at h
  · rw [heq]
    refine { Extends.refl d with nodes := fun {n node} hn => ?_ }
    rw [getElem?_addedNodes, if_neg (Nat.ne_of_lt (List.getElem?_eq_some_iff.1 hn).1), hn]
    refine ⟨_, rfl, ?_⟩
    split <;> exact ⟨rfl, rfl⟩

theorem extends_declare {kind : Kind} {default : Value}
    (h : (d.declare name kind default).fault = none) : d.Extends (d.declare name kind default) := by
  obtain ⟨-, heq⟩ := of_unlessFaulty h
  unfold declare at h ⊢
  rw [heq] at h ⊢
  split at h
  · simp at h
  · rename_i hnew
    split at h
    · rw [if_neg hnew]
      refine { Extends.refl d with declared := List.prefix_append _ _, fresh :=
        fun decl hdecl => ?_ }
      rcases List.mem_append.1 hdecl with hold | hdecl
      · exact .inl hold
      · obtain rfl := List.mem_singleton.1 hdecl
        exact .inr (Option.not_isSome_iff_eq_none.1 hnew)
    · simp at h

namespace Call

theorem accepted (k : Call U) (h : (k.apply d).fault = none) :
      d.fault = none ∧ d.Extends (k.apply d) ∧ ∀ x ∈ k.names, ∃ n decl, d.resolve x.1 x.2 = .ok
        (n, decl) ∧ (n, x.2) ∈ (k.apply d).recorded := by
  cases k with
  | root kind id =>
    obtain ⟨hd, heq⟩ := of_unlessFaulty h
    refine ⟨hd, ?_, by rintro _ ⟨⟩⟩
    simp only [apply, Definition.root] at h ⊢
    rw [heq] at h ⊢
    split at h
    · rw [if_pos ‹_›]
      exact extends_addNode h
    · simp at h
  | child parent kind id =>
    obtain ⟨hd, heq⟩ := of_unlessFaulty h
    refine ⟨hd, ?_, by rintro _ ⟨⟩⟩
    simp only [apply, Definition.child] at h ⊢
    rw [heq] at h ⊢
    split at h
    · exact extends_addNode h
    · simp at h
  | declare name kind default => exact ⟨(of_unlessFaulty h).1, extends_declare h, by rintro _ ⟨⟩⟩
  | declareCallback name args =>
    obtain ⟨hd, heq⟩ := of_unlessFaulty h
    refine ⟨hd, ?_, by rintro _ ⟨⟩⟩
    simp only [apply, Definition.declareCallback] at h ⊢
    rw [heq] at h ⊢
    split at h
    · simp at h
    · rw [if_neg ‹_›]
      exact { Extends.refl d with callbacks := List.prefix_append _ _ }
  | set id prop v =>
    obtain ⟨hd, n, decl, hresolve, heq⟩ := of_onProp h
    simp only [apply, Definition.set] at h ⊢
    rw [heq] at h ⊢
    split at h
    · simp at h
    · refine ⟨hd, { Extends.refl d with sets := List.subset_append_left _ _ }, ?_⟩
      simp [names, hresolve, recorded]
  | bind id prop template =>
    obtain ⟨hd, n, decl, hresolve, heq⟩ := of_onProp h
    simp only [apply, Definition.bind]
    rw [heq]
    refine ⟨hd, { Extends.refl d with binds := List.subset_append_left _ _ }, ?_⟩
    simp [names, hresolve, recorded]
  | animate id prop spec =>
    obtain ⟨hd, n, decl, hresolve, heq⟩ := of_onProp h
    simp only [apply, Definition.animate]
    rw [heq]
    refine ⟨hd, { Extends.refl d with anims := List.subset_append_left _ _ }, ?_⟩
    simp [names, hresolve, recorded]
  | twoWay id prop otherId otherProp =>
    obtain ⟨hd, n, a, hresolve, heq⟩ := of_onProp h
    simp only [apply, Definition.twoWay] at h ⊢
    rw [heq] at h ⊢
    obtain ⟨-, o, b, hother, heq⟩ := of_onProp h
    rw [heq] at h ⊢
    split at h
    · simp at h
    split at h
    · simp at h
    split at h
    · simp at h
    split at h
    · simp at h
    rw [if_neg ‹_›, if_neg ‹_›, if_neg ‹_›, if_neg ‹_›]
    refine ⟨hd, { Extends.refl d with links := List.subset_append_left _ _ }, ?_⟩
    simp [names, hresolve, hother, recorded, LinkDef.source, LinkDef.target]
  | onCallback id name template =>
    obtain ⟨hd, heq⟩ := of_unlessFaulty h
    refine ⟨hd, ?_, by rintro _ ⟨⟩⟩
    simp only [apply, Definition.onCallback] at h ⊢
    rw [heq] at h ⊢
    split at h
    · simp at h
    split at h
    · rw [if_pos ‹_›]
      exact { Extends.refl d with handlers := List.subset_append_left _ _ }
    · simp at h
  | focus id =>
    obtain ⟨hd, heq⟩ := of_unlessFaulty h
    refine ⟨hd, ?_, by rintro _ ⟨⟩⟩
    simp only [apply, Definition.focus] at h ⊢
    rw [heq] at h ⊢
    split at h
    · split at h
      · simp at h
      · split at h
        · rw [if_pos ‹_›]
          exact { Extends.refl d with }
        · simp at h
    · simp at h
  | repeatRows parent sub model =>
    simp only [apply, Definition.repeatRows] at h ⊢
    split at h
    · rename_i hsome
      rw [h] at hsome
      cases hsome
    · rename_i hnone
      refine ⟨Option.not_isSome_iff_eq_none.1 hnone, ?_, by rintro _ ⟨⟩⟩
      rw [if_neg hnone]
      split at h
      · split at h
        · simp at h
        · split at h
          · simp at h
          · rw [if_neg ‹_›]
            exact { Extends.refl d with }
      · simp at h
  | rework k sub => exact ⟨h, { Extends.refl d with }, by rintro _ ⟨⟩⟩

end Call

theorem extends_foldl {calls : List (Call U)}
    (h : (calls.foldl (fun d k => k.apply d) d).fault = none) :
    d.fault = none ∧ d.Extends (calls.foldl (fun d k => k.apply d) d) := by
  induction calls generalizing d with
  | nil => exact ⟨h, .refl d⟩
  | cons k calls ih =>
    obtain ⟨hk, hext⟩ := ih h
    obtain ⟨hd, hcall, -⟩ := k.accepted hk
    exact ⟨hd, hcall.trans hext⟩

/-- What a call named is recorded, and means the same when all calls have been made. -/
theorem ofCalls_recorded {before after : List (Call U)} {k : Call U}
    (h : (ofCalls name (before ++ k :: after)).fault = none) :
    ∀ x ∈ k.names, ∃ n decl, (ofCalls name before).resolve x.1 x.2 = .ok (n, decl) ∧
      (n, x.2) ∈ (ofCalls name (before ++ k :: after)).recorded ∧
      (ofCalls name (before ++ k :: after)).resolve x.1 x.2 = .ok (n, decl) := by
  rw [ofCalls_append, List.foldl_cons] at h ⊢
  intro x hx
  obtain ⟨hk, hext⟩ := extends_foldl h
  obtain ⟨-, hcall, hnames⟩ := k.accepted hk
  obtain ⟨n, decl, hresolve, hmem⟩ := hnames x hx
  exact ⟨n, decl, hresolve, hext.recorded hmem, (hcall.trans hext).resolve hresolve⟩

theorem ofCalls_handler {cb : String} {template : HandlerTemplate U} {before after : List (Call U)}
    (h : (ofCalls name (before ++ .onCallback id cb template :: after)).fault = none) :
    ∃ n decl, (ofCalls name before).node? id = some n ∧
      (ofCalls name before).callbackDecl? n cb = some decl ∧
      ⟨n, cb, template⟩ ∈ (ofCalls name (before ++ .onCallback id cb template :: after)).handlers ∧
      (ofCalls name (before ++ .onCallback id cb template :: after)).callbackDecl? n cb =
        some decl := by
  rw [ofCalls_append, List.foldl_cons] at h ⊢
  obtain ⟨hk, hext⟩ := extends_foldl h
  obtain ⟨-, hcall, -⟩ := Call.accepted _ hk
  obtain ⟨n, decl, hn, hdecl, hmem⟩ : ∃ n decl, (ofCalls name before).node? id = some n ∧
      (ofCalls name before).callbackDecl? n cb = some decl ∧ ⟨n, cb, template⟩ ∈
        (Call.apply (.onCallback id cb template) (ofCalls name before)).handlers := by
    obtain ⟨-, heq⟩ := of_unlessFaulty hk
    simp only [Call.apply, onCallback] at hk ⊢
    rw [heq] at hk ⊢
    split at hk
    · simp at hk
    · rename_i n hn
      split at hk
      · rename_i hsome
        obtain ⟨decl, hdecl⟩ := Option.isSome_iff_exists.1 hsome
        rw [if_pos hsome]
        exact ⟨n, decl, hn, hdecl, List.mem_append_right _ (List.mem_singleton_self _)⟩
      · simp at hk
  exact ⟨n, decl, hn, hdecl, hext.handlers hmem, (hcall.trans hext).callbackDecl? hdecl⟩

end ReactiveTree.Definition
