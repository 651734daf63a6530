import Mathlib.Data.List.Nodup
import Mathlib.Data.List.Perm.Subperm
import Mathlib.Logic.Relation
import ReactiveTree.Proofs.Definition.Consistent

/-!
# The links of a definition

Whatever the builder calls, every property follows at most one other and no chain of links comes
back to where it began (`Definition.Made.forest`). So each chain has an end (`chainEnd`), and the
walk along the chain that a new link is checked with finds all there is to find
(`chainReaches_iff`): a link is refused exactly when it would spoil this (`fault_twoWay_iff`).
-/

namespace ReactiveTree

variable {l : LinkDef} {limit n : Nat} {id prop : String}

/-- A property, by its node and name. -/
abbrev Key := Option Nat × String

namespace LinkDef

def source (l : LinkDef) : Key := (l.node, l.prop)

def target (l : LinkDef) : Key := (l.other, l.otherProp)

end LinkDef

namespace Definition

variable {U : Type} {d : Definition U} {links : List LinkDef} {k k' a b : Key}

def Leads (links : List LinkDef) (k k' : Key) : Prop := ∃ l ∈ links, l.source = k ∧ l.target = k'

/-- A property follows another one, directly or through others. -/
abbrev Follows (links : List LinkDef) : Key → Key → Prop := Relation.TransGen (Leads links)

def next? (links : List LinkDef) (k : Key) : Option Key :=
  (linkFrom? links k.1 k.2).map LinkDef.target

def chainEndTo (links : List LinkDef) : (limit : Nat) → Key → Key
  | 0, k => k
  | limit + 1, k =>
    match next? links k with
    | some k' => chainEndTo links limit k'
    | none => k

def chainEnd (d : Definition U) (k : Key) : Key := chainEndTo d.links d.links.length k

def ChainEnds (links : List LinkDef) : Nat → Key → Prop
  | 0, k => next? links k = none
  | n + 1, k => ∃ k', next? links k = some k' ∧ ChainEnds links n k'

/-- Every property follows at most one other, and every chain ends. -/
structure Forest (links : List LinkDef) : Prop where
  single : (links.map LinkDef.source).Nodup
  ends : ∀ k, ∃ n, ChainEnds links n k

/-! ## Chains -/

theorem linkFrom?_eq_some (h : linkFrom? links k.1 k.2 = some l) : l ∈ links ∧ l.source = k := by
  have hsource := List.find?_some h
  simp only [Bool.and_eq_true, decide_eq_true_eq] at hsource
  exact ⟨List.mem_of_find?_eq_some h, Prod.ext hsource.1 hsource.2⟩

theorem linkFrom?_eq_none_iff : linkFrom? links k.1 k.2 = none ↔ ∀ l ∈ links, l.source ≠ k := by
  simp only [linkFrom?, List.find?_eq_none, Bool.and_eq_true, decide_eq_true_eq, LinkDef.source,
    ne_eq, Prod.ext_iff]

theorem next?_eq_none_iff : next? links k = none ↔ ∀ l ∈ links, l.source ≠ k := by
  rw [next?, Option.map_eq_none_iff, linkFrom?_eq_none_iff]

theorem leads_of_next? (h : next? links k = some k') : Leads links k k' := by
  obtain ⟨l, hl, htarget⟩ := Option.map_eq_some_iff.1 h
  obtain ⟨hmem, hsource⟩ := linkFrom?_eq_some hl
  exact ⟨l, hmem, hsource, htarget⟩

theorem next?_of_leads (hsingle : (links.map LinkDef.source).Nodup) (h : Leads links k k') :
    next? links k = some k' := by
  obtain ⟨l, hmem, hsource, rfl⟩ := h
  cases hfound : linkFrom? links k.1 k.2 with
  | none => exact absurd hsource (linkFrom?_eq_none_iff.1 hfound l hmem)
  | some m =>
    obtain ⟨hm, hsource'⟩ := linkFrom?_eq_some hfound
    have hsame : m = l := List.inj_on_of_nodup_map hsingle hm hmem (hsource'.trans hsource.symm)
    rw [next?, hfound, hsame]
    rfl

theorem ChainEnds.unique {m : Nat} (h : ChainEnds links n k) (h' : ChainEnds links m k) :
    n = m := by
  induction n generalizing m k with
  | zero =>
    cases m with
    | zero => rfl
    | succ m =>
      obtain ⟨p, hp, -⟩ := h'
      rw [ChainEnds, hp] at h
      cases h
  | succ n ih =>
    obtain ⟨p, hp, h⟩ := h
    cases m with
    | zero =>
      rw [ChainEnds, hp] at h'
      cases h'
    | succ m =>
      obtain ⟨p', hp', h'⟩ := h'
      rw [hp] at hp'
      cases hp'
      rw [ih h h']

/-- The properties on a chain are sources of links, each with fewer steps to go than the one
before. -/
theorem ChainEnds.chain (h : ChainEnds links n k) :
    ∃ keys : List Key, keys.length = n ∧ keys.Nodup ∧
      ∀ p ∈ keys, p ∈ links.map LinkDef.source ∧ ∃ m ≤ n, ChainEnds links m p := by
  induction n generalizing k with
  | zero => exact ⟨[], rfl, .nil, nofun⟩
  | succ n ih =>
    obtain ⟨p, hp, hn⟩ := h
    obtain ⟨keys, hlength, hnodup, hkeys⟩ := ih hn
    have hsource : k ∈ links.map LinkDef.source := by
      obtain ⟨l, hmem, hl, -⟩ := leads_of_next? hp
      exact List.mem_map.2 ⟨l, hmem, hl⟩
    refine ⟨k :: keys, by simp [hlength], List.nodup_cons.2 ⟨fun hk => ?_, hnodup⟩, ?_⟩
    · obtain ⟨-, m, hm, hends⟩ := hkeys k hk
      have := hends.unique (m := n + 1) ⟨p, hp, hn⟩
      omega
    · intro q hq
      rcases List.mem_cons.1 hq with rfl | hq
      · exact ⟨hsource, n + 1, Nat.le_refl _, p, hp, hn⟩
      · obtain ⟨hmem, m, hm, hends⟩ := hkeys q hq
        exact ⟨hmem, m, by omega, hends⟩

theorem ChainEnds.le_length (h : ChainEnds links n k) : n ≤ links.length := by
  obtain ⟨keys, rfl, hnodup, hkeys⟩ := h.chain
  have hsub : keys ⊆ links.map LinkDef.source := fun p hp => (hkeys p hp).1
  simpa using (hnodup.subperm hsub).length_le

theorem Forest.steps_lt (h : Forest links) (hends : ChainEnds links n k)
    (hfollows : Follows links k k') : ∃ m < n, ChainEnds links m k' := by
  have hstep {n : Nat} {p q : Key} (hends : ChainEnds links n p) (hleads : Leads links p q) :
      ∃ m < n, ChainEnds links m q := by
    have hnext := next?_of_leads h.single hleads
    cases n with
    | zero =>
      rw [ChainEnds, hnext] at hends
      cases hends
    | succ n =>
      obtain ⟨q', hq', hrest⟩ := hends
      rw [hnext] at hq'
      cases hq'
      exact ⟨n, Nat.lt_succ_self n, hrest⟩
  induction hfollows with
  | single hleads => exact hstep hends hleads
  | tail _ hleads ih =>
    obtain ⟨m, hm, hmid⟩ := ih
    obtain ⟨i, hi, hend⟩ := hstep hmid hleads
    exact ⟨i, Nat.lt_trans hi hm, hend⟩

theorem Forest.acyclic (h : Forest links) (k : Key) : ¬Follows links k k := by
  intro hcycle
  obtain ⟨n, hn⟩ := h.ends k
  obtain ⟨m, hm, hends⟩ := h.steps_lt hn hcycle
  exact absurd (hends.unique hn) (Nat.ne_of_lt hm)

/-! ## The walk along a chain -/

theorem follows_of_chainReaches {target : Key}
    (h : chainReaches links target limit k.1 k.2 = true) : Follows links k target := by
  induction limit generalizing k with
  | zero => cases h
  | succ limit ih =>
    unfold chainReaches at h
    split at h
    · cases h
    · rename_i l hl
      obtain ⟨hmem, hsource⟩ := linkFrom?_eq_some hl
      have hleads : Leads links k l.target := ⟨l, hmem, hsource, rfl⟩
      simp only [Bool.or_eq_true, decide_eq_true_eq] at h
      rcases h with h | h
      · exact .single (h ▸ hleads)
      · exact .head hleads (ih h)

theorem chainReaches_of_follows (hsingle : (links.map LinkDef.source).Nodup) {target : Key}
    (hends : ChainEnds links n k) (hlimit : n ≤ limit)
    (h : Follows links k target) : chainReaches links target limit k.1 k.2 = true := by
  induction n generalizing k limit with
  | zero =>
    obtain ⟨k', hleads, -⟩ := Relation.TransGen.head'_iff.1 h
    rw [ChainEnds, next?_of_leads hsingle hleads] at hends
    cases hends
  | succ n ih =>
    obtain ⟨k', hleads, hrest⟩ := Relation.TransGen.head'_iff.1 h
    obtain ⟨limit, rfl⟩ : ∃ m, limit = m + 1 := ⟨limit - 1, by omega⟩
    have hnext := next?_of_leads hsingle hleads
    obtain ⟨p, hp, hends⟩ := hends
    rw [hnext] at hp
    cases hp
    obtain ⟨l, hl, rfl⟩ := Option.map_eq_some_iff.1 hnext
    simp only [chainReaches, hl, Bool.or_eq_true, decide_eq_true_eq]
    rcases Relation.reflTransGen_iff_eq_or_transGen.1 hrest with heq | hrest
    · exact .inl heq.symm
    · exact .inr (ih hends (by omega) hrest)

/-- The walk of a check has as many steps as there are links, which is enough. -/
theorem chainReaches_iff (h : Forest links) {target : Key} :
    chainReaches links target links.length k.1 k.2 = true ↔ Follows links k target := by
  obtain ⟨n, hn⟩ := h.ends k
  exact ⟨follows_of_chainReaches, chainReaches_of_follows h.single hn hn.le_length⟩

theorem chainEndTo_eq (h : ChainEnds links n k) (hlimit : n ≤ limit) :
    Relation.ReflTransGen (Leads links) k (chainEndTo links limit k) ∧
      next? links (chainEndTo links limit k) = none := by
  induction limit generalizing n k with
  | zero =>
    obtain rfl := Nat.le_zero.1 hlimit
    exact ⟨.refl, h⟩
  | succ limit ih =>
    unfold chainEndTo
    cases n with
    | zero =>
      have hnone : next? links k = none := h
      rw [hnone]
      exact ⟨.refl, hnone⟩
    | succ n =>
      obtain ⟨k', hk', hends⟩ := h
      rw [hk']
      obtain ⟨hreach, hend⟩ := ih hends (by omega)
      exact ⟨.head (leads_of_next? hk') hreach, hend⟩

/-! ## A new link -/

theorem next?_concat_of_ne (hk : l.source ≠ k) : next? (links ++ [l]) k = next? links k := by
  have hlast : (decide (l.node = k.1) && decide (l.prop = k.2)) = false := by
    by_contra hne
    simp only [Bool.not_eq_false, Bool.and_eq_true, decide_eq_true_eq] at hne
    exact hk (Prod.ext hne.1 hne.2)
  rw [next?, next?, linkFrom?, linkFrom?, List.find?_append]
  simp [hlast]

theorem next?_concat_self (hnone : next? links l.source = none) :
    next? (links ++ [l]) l.source = some l.target := by
  have hfound : linkFrom? links l.source.1 l.source.2 = none := Option.map_eq_none_iff.1 hnone
  unfold linkFrom? at hfound
  rw [next?, linkFrom?, List.find?_append, hfound]
  simp [LinkDef.source]

/-- A link that starts where none does, and whose chain does not lead back there. -/
theorem Forest.concat (h : Forest links) (hnone : next? links l.source = none)
    (hne : l.target ≠ l.source) (hback : ¬Follows links l.target l.source) :
    Forest (links ++ [l]) := by
  -- chains that do not reach the new source stay as they are
  have hkeep : ∀ n k, k ≠ l.source → ¬Follows links k l.source → ChainEnds links n k →
      ChainEnds (links ++ [l]) n k := by
    intro n
    induction n with
    | zero =>
      intro k hk _ hends
      exact (next?_concat_of_ne hk.symm).trans hends
    | succ n ih =>
      intro k hk hfollows hends
      obtain ⟨k', hk', hends⟩ := hends
      have hleads := leads_of_next? hk'
      refine ⟨k', (next?_concat_of_ne hk.symm).trans hk', ih k' ?_ ?_ hends⟩
      · rintro rfl
        exact hfollows (.single hleads)
      · exact fun hrest => hfollows (.head hleads hrest)
  obtain ⟨m, hm⟩ := h.ends l.target
  have htarget := hkeep m l.target hne hback hm
  have hsource : ChainEnds (links ++ [l]) (m + 1) l.source := ⟨_, next?_concat_self hnone, htarget⟩
  constructor
  case single =>
    rw [List.map_append, List.map_singleton, List.nodup_append]
    refine ⟨h.single, List.nodup_singleton _, ?_⟩
    rintro p hp q hq rfl
    obtain ⟨l', hl', rfl⟩ := List.mem_map.1 hp
    exact next?_eq_none_iff.1 hnone l' hl' (List.mem_singleton.1 hq)
  case ends =>
    intro k
    obtain ⟨n, hn⟩ := h.ends k
    induction n generalizing k with
    | zero =>
      by_cases hk : k = l.source
      · exact ⟨m + 1, hk ▸ hsource⟩
      · exact ⟨0, (next?_concat_of_ne (Ne.symm hk)).trans hn⟩
    | succ n ih =>
      by_cases hk : k = l.source
      · exact ⟨m + 1, hk ▸ hsource⟩
      · obtain ⟨k', hk', hn⟩ := hn
        obtain ⟨i, hi⟩ := ih k' hn
        exact ⟨i + 1, k', (next?_concat_of_ne (Ne.symm hk)).trans hk', hi⟩

theorem forest_nil : Forest [] := ⟨.nil, fun _ => ⟨0, rfl⟩⟩

/-! ## Building -/

theorem links_fail (f : Fault) : (d.fail f).links = d.links := by
  unfold fail
  split
  all_goals rfl

theorem links_unlessFaulty {e : Definition U} (h : e.links = d.links) :
    (d.unlessFaulty e).links = d.links := by
  unfold unlessFaulty
  split
  · rfl
  · exact h

theorem links_addNode (kind : Nat) (id : String) (parent : Option Nat) :
    (d.addNode kind id parent).links = d.links := by
  rcases d.addNode_cases kind id parent with ⟨f, h⟩ | ⟨_, -, -, h⟩
  · rw [h, links_fail]
  · rw [h]

theorem links_onProp {next : Option Nat → PropDecl → Definition U}
    (h : ∀ n decl, (next n decl).links = d.links) : (d.onProp id prop next).links = d.links := by
  refine links_unlessFaulty ?_
  split
  · exact links_fail _
  · exact h ..

theorem links_declare (name : String) (kind : Kind) (default : Value) :
    (d.declare name kind default).links = d.links := by
  refine links_unlessFaulty ?_
  split
  · exact links_fail _
  · split
    · rfl
    · exact links_fail _

/-- What a new link does to a definition without fault whose ends are there and of one kind. -/
theorem twoWay_eq (hfault : d.fault = none) {otherId otherProp : String}
    {n o : Option Nat} {x y : PropDecl} (hx : d.resolve id prop = .ok (n, x))
    (hy : d.resolve otherId otherProp = .ok (o, y)) (hkind : x.kind = y.kind) :
    (d.twoWay id prop otherId otherProp).fault ≠ none ∧
        (d.twoWay id prop otherId otherProp).links = d.links ∧
        ((∃ l ∈ d.links, l.source = (n, prop)) ∨ ((n, prop) : Key) = (o, otherProp) ∨
          chainReaches d.links (n, prop) d.links.length o otherProp = true) ∨
      (d.twoWay id prop otherId otherProp).fault = none ∧
        (d.twoWay id prop otherId otherProp).links = d.links ++ [⟨n, prop, o, otherProp⟩] ∧
        (∀ l ∈ d.links, l.source ≠ (n, prop)) ∧ ((n, prop) : Key) ≠ (o, otherProp) ∧
        ¬chainReaches d.links (n, prop) d.links.length o otherProp = true := by
  have hfail (f : Fault) : (d.fail f).fault ≠ none := by
    simp [fail, hfault]
  have honProp {id prop : String} {m : Option Nat} {z : PropDecl}
      (h : d.resolve id prop = .ok (m, z)) (next : Option Nat → PropDecl → Definition U) :
      d.onProp id prop next = next m z := by
    simp [onProp, unlessFaulty, hfault, h]
  rw [twoWay, honProp hx, honProp hy]
  rw [if_neg (by simpa using hkind)]
  split
  · rename_i hself
    simp only [Bool.and_eq_true, decide_eq_true_eq] at hself
    exact .inl ⟨hfail _, links_fail _, .inr (.inl (Prod.ext hself.1 hself.2))⟩
  rename_i hself
  split
  · rename_i hlinked
    obtain ⟨l, hl⟩ := Option.isSome_iff_exists.1 hlinked
    exact .inl ⟨hfail _, links_fail _, .inl ⟨l, linkFrom?_eq_some hl⟩⟩
  rename_i hlinked
  split
  · rename_i hloop
    exact .inl ⟨hfail _, links_fail _, .inr (.inr hloop)⟩
  rename_i hloop
  refine .inr ⟨hfault, rfl, ?_, ?_, hloop⟩
  · exact linkFrom?_eq_none_iff.1 (by simpa using hlinked)
  · intro heq
    simp only [Bool.and_eq_true, decide_eq_true_eq] at hself
    exact hself ⟨congrArg Prod.fst heq, congrArg Prod.snd heq⟩

theorem Forest.twoWay (h : Forest d.links) (id prop otherId otherProp : String) :
    Forest (d.twoWay id prop otherId otherProp).links := by
  by_cases hfault : d.fault = none
  swap
  · have hsome : d.fault.isSome = true := Option.isSome_iff_ne_none.2 hfault
    rw [show d.twoWay id prop otherId otherProp =
      d by simp [Definition.twoWay, onProp, unlessFaulty, hsome]]
    exact h
  cases hx : d.resolve id prop with
  | error f =>
    rw [show (d.twoWay id prop otherId otherProp).links = d.links by
      simp [Definition.twoWay, onProp, unlessFaulty, hfault, hx, links_fail]]
    exact h
  | ok nx =>
    obtain ⟨n, x⟩ := nx
    cases hy : d.resolve otherId otherProp with
    | error f =>
      rw [show (d.twoWay id prop otherId otherProp).links = d.links by
        simp [Definition.twoWay, onProp, unlessFaulty, hfault, hx, hy, links_fail]]
      exact h
    | ok oy =>
      obtain ⟨o, y⟩ := oy
      by_cases hkind : x.kind = y.kind
      · rcases twoWay_eq hfault hx hy hkind with ⟨-, hlinks, -⟩ | ⟨-, hlinks, hfree, hne, hloop⟩
        · rw [hlinks]
          exact h
        · rw [hlinks]
          refine h.concat (next?_eq_none_iff.2 hfree) (Ne.symm hne) fun hback => hloop ?_
          exact (chainReaches_iff h).2 hback
      · rw [show (d.twoWay id prop otherId otherProp).links = d.links by
          simp [Definition.twoWay, onProp, unlessFaulty, hfault, hx, hy, hkind, links_fail]]
        exact h

theorem links_repeatRows (parent : String) (sub : Definition U) (model : Option (ModelTemplate U)) :
    (d.repeatRows parent sub model).1.links = d.links := by
  unfold repeatRows
  split
  · rfl
  split
  · split
    · exact links_fail _
    · split
      · exact links_fail _
      · rfl
  · exact links_fail _

/-- The links of whatever is built form a forest. -/
theorem Made.forest (h : Made d) : Forest d.links := by
  induction h with
  | new name => exact forest_nil
  | root _ kind id ih =>
    rw [Definition.root, links_unlessFaulty]
    · exact ih
    · split
      · exact links_addNode ..
      · exact links_fail _
  | child _ parent kind id ih =>
    rw [Definition.child, links_unlessFaulty]
    · exact ih
    · split
      · exact links_addNode ..
      · exact links_fail _
  | declare _ name kind default ih =>
    rw [links_declare]
    exact ih
  | declareCallback _ name args ih =>
    rw [Definition.declareCallback, links_unlessFaulty]
    · exact ih
    · split
      · exact links_fail _
      · rfl
  | set _ id prop v ih =>
    rw [Definition.set, links_onProp]
    · exact ih
    · intro n decl
      split
      · exact links_fail _
      · rfl
  | bind _ id prop template ih =>
    rw [Definition.bind, links_onProp]
    · exact ih
    · exact fun _ _ => rfl
  | animate _ id prop spec ih =>
    rw [Definition.animate, links_onProp]
    · exact ih
    · exact fun _ _ => rfl
  | twoWay _ id prop otherId otherProp ih => exact ih.twoWay id prop otherId otherProp
  | onCallback _ id name template ih =>
    rw [Definition.onCallback, links_unlessFaulty]
    · exact ih
    · split
      · exact links_fail _
      · split
        · rfl
        · exact links_fail _
  | focus _ id ih =>
    rw [Definition.focus, links_unlessFaulty]
    · exact ih
    · split
      · split
        · exact links_fail _
        · split
          · rfl
          · exact links_fail _
      · exact links_fail _
  | repeatRows _ parent _ model ih _ =>
    rw [links_repeatRows]
    exact ih
  | rework _ k _ ih _ => exact ih

/-- A link between two properties of one kind is refused exactly when its source is linked
already, is its target, or is on the chain of its target. -/
theorem fault_twoWay_iff (h : Forest d.links) (hfault : d.fault = none)
    {otherId otherProp : String} {n o : Option Nat} {x y : PropDecl}
    (hx : d.resolve id prop = .ok (n, x)) (hy : d.resolve otherId otherProp = .ok (o, y))
    (hkind : x.kind = y.kind) : (d.twoWay id prop otherId otherProp).fault ≠ none ↔
      (∃ k, Leads d.links (n, prop) k) ∨ ((n, prop) : Key) = (o, otherProp) ∨
        Follows d.links (o, otherProp) (n, prop) := by
  rw [← chainReaches_iff h]
  have hlinked : (∃ k, Leads d.links (n, prop) k) ↔ ∃ l ∈ d.links, l.source = (n, prop) := by
    simp only [Leads, exists_comm, exists_and_left, exists_eq', and_true]
  rw [hlinked]
  rcases twoWay_eq hfault hx hy hkind with ⟨hfailed, -, hwhy⟩ | ⟨hnone, -, hfree, hne, hloop⟩
  · exact ⟨fun _ => hwhy, fun _ => hfailed⟩
  · constructor
    · exact fun hfailed => absurd hnone hfailed
    · rintro (⟨l, hl, hsource⟩ | heq | hback)
      · exact absurd hsource (hfree l hl)
      · exact absurd heq hne
      · exact absurd hback hloop

theorem Forest.chainEnd (h : Forest d.links) (k : Key) :
    Relation.ReflTransGen (Leads d.links) k (d.chainEnd k) ∧ ∀ k', ¬Leads d.links
      (d.chainEnd k) k' := by
  obtain ⟨n, hn⟩ := h.ends k
  obtain ⟨hreach, hend⟩ := chainEndTo_eq hn hn.le_length
  refine ⟨hreach, fun k' hleads => ?_⟩
  obtain ⟨l, hl, hsource, -⟩ := hleads
  exact next?_eq_none_iff.1 hend l hl hsource

theorem Forest.chainEnd_unique (h : Forest d.links)
    (hreach : Relation.ReflTransGen (Leads d.links) k k') (hend : ∀ q, ¬Leads d.links k' q) :
    d.chainEnd k = k' := by
  have hright : Relator.RightUnique (Leads d.links) := fun p q q' hq hq' =>
    Option.some.inj ((next?_of_leads h.single hq).symm.trans (next?_of_leads h.single hq'))
  have hstop {p q : Key} (hp : ∀ q, ¬Leads d.links p q)
      (hpq : Relation.ReflTransGen (Leads d.links) p q) : q = p := by
    rcases Relation.reflTransGen_iff_eq_or_transGen.1 hpq with heq | htrans
    · exact heq
    · obtain ⟨p', hleads, -⟩ := Relation.TransGen.head'_iff.1 htrans
      exact absurd hleads (hp p')
  obtain ⟨hreach', hend'⟩ := h.chainEnd k
  rcases Relation.ReflTransGen.total_of_right_unique hright hreach' hreach with hpq | hpq
  · exact (hstop hend' hpq).symm
  · exact hstop hend hpq

end Definition

end ReactiveTree
