import ReactiveTree.Proofs.Scene.Updating

/-!
# Walks and lifetimes

A walk brings the repeaters up to date as it comes to them, and an update ends instances, but only
those that stand below the item it is at (`Scene.Under`). The items of a scene form a forest
(`Scene.Below`), in which the walk comes to each item once (`Scene.Tree.eq_of_below`). So all that
a walk gathers is alive when it is over (`walk_gathers`), which windows rely on when they look for
the item under the pointer (`living_itemAt`).
-/

namespace ReactiveTree

open Store

variable {α β U X : Type}
variable {gone : ComponentId → Prop} {k : HandleId} {a x : ItemRef} {repeaters : List RepeaterId}
  {r : RepeaterId} {turned : RepeaterId → Prop} {s1 s2 : Scene U X} {store1 store2 : Store (Code U)}
  {window : WindowId}

def Scene.Below (s : Scene U X) (a x : ItemRef) : Prop :=
  Relation.ReflTransGen (fun x y => s.parent? x = some y) x a

/-- The instance was repeated by an item that is `a` or stands below it, or inside of such an
instance. -/
def Scene.Under (s : Scene U X) (a : ItemRef) (e : ComponentId) : Prop :=
  ∃ f h, s.Within f e ∧ (s.component f).host = some h ∧ s.Below a h

namespace Scene.Tree

variable {s : Scene U X} (hs : s.Tree) {a b p x y : ItemRef} {e f : ComponentId}
include hs

theorem host_component {h : ItemRef} (hh : (s.component e).host = some h) :
    (s.component e).outer = some h.component := by
  rw [hs.host, hh]
  rfl

theorem host_component_lt {h : ItemRef} (hh : (s.component e).host = some h) : h.component < e :=
  hs.outer (hs.host_component hh)

/-- The item around an item stands before it in the same instance, or is the host of the
instance. -/
theorem parent_cases (h : s.parent? x = some y) :
    y.component = x.component ∧ y.index < x.index ∨ (s.component x.component).host = some y := by
  unfold parent? at h
  split at h
  · rename_i p hp
    cases h
    exact .inl ⟨rfl, hs.parent hp⟩
  · exact .inr h

theorem parent_component_le (h : s.parent? x = some y) : y.component ≤ x.component := by
  rcases hs.parent_cases h with ⟨heq, -⟩ | hhost
  · exact Nat.le_of_eq heq
  · exact (hs.host_component_lt hhost).le

theorem below_before (h : s.Below a x) :
    a.component < x.component ∨ a.component = x.component ∧ a.index ≤ x.index := by
  induction h with
  | refl => exact .inr ⟨rfl, Nat.le_refl _⟩
  | tail _ hstep ih =>
    rcases hs.parent_cases hstep with ⟨heq, hlt⟩ | hhost
    · rw [heq]
      exact ih.imp id fun ⟨h, hle⟩ => ⟨h, (Nat.le_of_lt hlt).trans hle⟩
    · have hlt := hs.host_component_lt hhost
      exact .inl (ih.elim (Nat.lt_trans hlt) fun h => Nat.lt_of_lt_of_eq hlt h.1)

theorem below_component_le (h : s.Below a x) : a.component ≤ x.component :=
  (hs.below_before h).elim Nat.le_of_lt fun h => Nat.le_of_eq h.1

theorem not_below_parent (h : s.parent? a = some p) : ¬s.Below a p := by
  intro hbelow
  have hle := hs.below_before hbelow
  rcases hs.parent_cases h with ⟨heq, hlt⟩ | hhost
  · rw [heq] at hle
    exact hle.elim (Nat.lt_irrefl _) fun h => hlt.not_ge h.2
  · have hlt := hs.host_component_lt hhost
    exact hle.elim (Nat.lt_asymm hlt) fun h => hlt.ne' h.1

/-- Two items with the same item around them have nothing in common below them. -/
theorem eq_of_below (ha : s.parent? a = some p) (hb : s.parent? b = some p) (hax : s.Below a x)
    (hbx : s.Below b x) : a = b := by
  have hunique : Relator.RightUnique fun x y => s.parent? x = some y := by
    intro x y z hy hz
    exact Option.some.inj (hy.symm.trans hz)
  have hside {a b : ItemRef} (ha : s.parent? a = some p) (hb : s.parent? b = some p)
      (h : s.Below b a) : a = b := by
    rcases Relation.ReflTransGen.cases_head h with heq | ⟨q, hq, hrest⟩
    · exact heq
    · rw [ha] at hq
      cases hq
      exact absurd hrest (hs.not_below_parent hb)
  rcases Relation.ReflTransGen.total_of_right_unique hunique hax hbx with h | h
  · exact hside ha hb h
  · exact (hside hb ha h).symm

/-- Upward from an item of a repeated instance the host follows one of its items. -/
theorem exists_root {h : ItemRef} (hh : (s.component e).host = some h) (n : Nat) :
    ∃ m, s.parent? ⟨e, m⟩ = some h ∧ s.Below ⟨e, m⟩ ⟨e, n⟩ := by
  induction n using Nat.strong_induction_on with
  | _ n ih =>
    cases hp : (s.item ⟨e, n⟩).parent with
    | none =>
      refine ⟨n, ?_, .refl⟩
      simp only [parent?, hp]
      exact hh
    | some m =>
      obtain ⟨root, hroot, hbelow⟩ := ih m (hs.parent hp)
      refine ⟨root, hroot, .head ?_ hbelow⟩
      simp only [parent?, hp]

theorem exists_root_of_within {h : ItemRef} (hh : (s.component f).host = some h)
    (hwithin : s.Within f e) (n : Nat) :
    ∃ m, s.parent? ⟨f, m⟩ = some h ∧ s.Below ⟨f, m⟩ ⟨e, n⟩ := by
  induction hwithin using Relation.ReflTransGen.head_induction_on generalizing n with
  | refl => exact hs.exists_root hh n
  | @head e o ho _ ih =>
    obtain ⟨k, hk⟩ : ∃ k, (s.component e).host = some k := by
      rw [hs.host] at ho
      obtain ⟨k, hk, -⟩ := Option.map_eq_some_iff.1 ho
      exact ⟨k, hk⟩
    have hko : k.component = o := by
      rw [hs.host_component hk] at ho
      exact Option.some.inj ho
    obtain ⟨m, hm, hbelow⟩ := hs.exists_root hk n
    obtain ⟨root, hroot, habove⟩ := ih k.index
    subst hko
    exact ⟨root, hroot, (hbelow.tail hm).trans habove⟩

theorem within_of_below (h : s.Below a x) : s.Within a.component x.component := by
  induction h with
  | refl => exact .refl
  | tail _ hstep ih =>
    rcases hs.parent_cases hstep with ⟨heq, -⟩ | hhost
    · rw [heq]
      exact ih
    · exact ih.tail (hs.host_component hhost)

theorem below_of_under (h : s.Under a e) (n : Nat) : s.Below a ⟨e, n⟩ := by
  obtain ⟨f, k, hwithin, hk, hbelow⟩ := h
  obtain ⟨m, hm, hroot⟩ := hs.exists_root_of_within hk hwithin n
  exact (hroot.tail hm).trans hbelow

theorem lt_of_under (h : s.Under a e) : a.component < e := by
  obtain ⟨f, k, hwithin, hk, hbelow⟩ := h
  exact (hs.below_component_le hbelow).trans_lt
    ((hs.host_component_lt hk).trans_le (hwithin.le hs))

end Scene.Tree

theorem Scene.Under.mono {s : Scene U X} {b : ItemRef} {e : ComponentId} (h : s.Under b e)
    (hab : s.Below a b) : s.Under a e := by
  obtain ⟨f, k, hwithin, hk, hbelow⟩ := h
  exact ⟨f, k, hwithin, hk, hbelow.trans hab⟩

/-! ## The forest in later worlds -/

/-- Two relations have the same chains from where they agree, if these do not lead out of there. -/
theorem reflTransGen_congr {γ : Type} {r r' : γ → γ → Prop} {p : γ → Prop}
    (hr : ∀ {x y}, p x → (r' x y ↔ r x y)) (hp : ∀ {x y}, p x → r x y → p y) {x a : γ} (hx : p x) :
    Relation.ReflTransGen r' x a ↔ Relation.ReflTransGen r x a := by
  constructor
  · intro h
    induction h using Relation.ReflTransGen.head_induction_on with
    | refl => exact .refl
    | head hxy _ ih => exact .head ((hr hx).1 hxy) (ih (hp hx ((hr hx).1 hxy)))
  · intro h
    induction h using Relation.ReflTransGen.head_induction_on with
    | refl => exact .refl
    | head hxy _ ih => exact .head ((hr hx).2 hxy) (ih (hp hx hxy))

namespace Passes

variable {gone : ComponentId → Prop} {turned : RepeaterId → Prop} {store store' : Store (Code U)}
  {s t : Scene U X} (h : Passes gone turned store s store' t) (hs : s.Tree) {a x : ItemRef}
  {c e : ComponentId}
include h

theorem parent? (hx : x.component < s.components.size) : t.parent? x = s.parent? x := by
  unfold Scene.parent?
  rw [h.parent x hx, h.host _ hx]

include hs

theorem below (hx : x.component < s.components.size) : t.Below a x ↔ s.Below a x :=
  reflTransGen_congr (p := fun x => x.component < s.components.size)
    (fun hx => by rw [h.parent? hx])
    (fun hx hxy => (hs.parent_component_le hxy).trans_lt hx) hx

theorem within (he : e < s.components.size) : t.Within c e ↔ s.Within c e :=
  reflTransGen_congr (p := fun e => e < s.components.size) (fun he => by rw [h.outer _ he])
    (fun he ho => (hs.outer ho).trans he) he

theorem under (he : e < s.components.size) : t.Under a e ↔ s.Under a e := by
  constructor
  · rintro ⟨f, k, hwithin, hk, hbelow⟩
    have hwithin := (h.within hs he).1 hwithin
    have hf := (hwithin.le hs).trans_lt he
    rw [h.host f hf] at hk
    exact ⟨f, k, hwithin, hk, (h.below hs ((hs.host_component_lt hk).trans hf)).1 hbelow⟩
  · rintro ⟨f, k, hwithin, hk, hbelow⟩
    have hf := (hwithin.le hs).trans_lt he
    refine ⟨f, k, (h.within hs he).2 hwithin, (h.host f hf).trans hk, ?_⟩
    exact (h.below hs ((hs.host_component_lt hk).trans hf)).2 hbelow

end Passes

/-- What may have ended when a walk has gone down from some items. -/
def Scene.WalkEnd (s : Scene U X) (items : List ItemRef) (e : ComponentId) : Prop :=
  s.components.size ≤ e ∨ ∃ a ∈ items, s.Under a e

/-- The repeaters that the walk may have brought up to date. -/
def Scene.WalkTurn (s : Scene U X) (items : List ItemRef) (r : RepeaterId) : Prop :=
  s.repeaters.size ≤ r ∨ ∃ a ∈ items, s.Below a (s.repeater r).host

/-- The order of worlds for a walk down from some items. -/
abbrev Scene.Walk (s : Scene U X) (items : List ItemRef) : WorldOrder U X :=
  Passes (s.WalkEnd items) (s.WalkTurn items)

section

variable {s t : Scene U X} {store store' : Store (Code U)} {items items' : List ItemRef}

/-- A walk from items that stand below others is part of the walk from these. -/
theorem Scene.Walk.mono
    (h : s.Walk items store1 s1 store2 s2) (hitems : ∀ b ∈ items, ∃ a ∈ items', s.Below a b) :
    s.Walk items' store1 s1 store2 s2 := by
  refine Passes.mono h (fun e he => ?_) fun r hr => ?_
  · rcases he with he | ⟨b, hb, hunder⟩
    · exact .inl he
    · obtain ⟨a, ha, hab⟩ := hitems b hb
      exact .inr ⟨a, ha, hunder.mono hab⟩
  · rcases hr with hr | ⟨b, hb, hbelow⟩
    · exact .inl hr
    · obtain ⟨a, ha, hab⟩ := hitems b hb
      exact .inr ⟨a, ha, hbelow.trans hab⟩

theorem Scene.Walk.cons {k : ItemRef} (h : s.Walk [k] store1 s1 store2 s2) (rest : List ItemRef) :
    s.Walk (k :: rest) store1 s1 store2 s2 :=
  h.mono fun q hq => ⟨q, by simp [List.mem_singleton.1 hq], .refl⟩

theorem Scene.Walk.later (hs : s.Tree)
    (h : Passes gone turned store s store' t) (hwalk : t.Walk items store1 s1 store2 s2) :
    s.Walk items store1 s1 store2 s2 := by
  refine Passes.mono hwalk (fun e he => ?_) fun r hr => ?_
  · by_cases hold : e < s.components.size
    · rcases he with he | ⟨a, ha, hunder⟩
      · exact absurd hold ((Nat.le_trans h.components he).not_gt)
      · exact .inr ⟨a, ha, (h.under hs hold).1 hunder⟩
    · exact .inl (not_lt.1 hold)
  · by_cases hold : r < s.repeaters.size
    · rcases hr with hr | ⟨a, ha, hbelow⟩
      · exact absurd hold ((Nat.le_trans h.repeaters hr).not_gt)
      · rw [h.repeater r hold] at hbelow
        exact .inr ⟨a, ha, (h.below hs (hs.host_lt hold)).1 hbelow⟩
    · exact .inl (not_lt.1 hold)

/-- The instance of the item lives, in a given window. -/
def Scene.Lives (s : Scene U X) (window : WindowId) (it : ItemRef) : Prop :=
  it.component < s.components.size ∧ (s.component it.component).destroyed = false ∧
    (s.component it.component).window = window

theorem Scene.Lives.passes {it : ItemRef} (h : s.Lives window it)
    (hle : Passes gone turned store s store' t) (hit : ¬gone it.component) : t.Lives window it :=
  ⟨h.1.trans_le hle.components, (hle.spared _ h.1 hit).trans h.2.1,
    (hle.window _ h.1).trans h.2.2⟩

/-- The items ahead of a walk that has gathered some: all have the same item around them, and
nothing that was gathered can end with them. -/
structure Scene.Ahead (s : Scene U X) (window : WindowId) (around : ItemRef)
    (items gathered : List ItemRef) : Prop where
  nodup : items.Nodup
  next : ∀ k ∈ items, s.parent? k = some around ∧ s.Lives window k
  apart : ∀ x ∈ gathered, s.Lives window x ∧ ∀ k ∈ items, ¬s.Under k x.component

theorem Scene.Ahead.step {around k : ItemRef} {rest gathered gathered' : List ItemRef}
    (h : s.Ahead window around (k :: rest) gathered) (hs : s.Tree) (ht : t.Tree)
    (hwalk : s.Walk [k] store s store' t)
    (hnew : ∀ x ∈ gathered', t.Lives window x ∧ (x ∈ gathered ∨ t.Below k x)) :
    t.Ahead window around rest gathered' := by
  obtain ⟨hk, hrest⟩ := List.nodup_cons.1 h.nodup
  obtain ⟨hkparent, hklives⟩ := h.next k (by simp)
  have hparent {q : ItemRef} (hq : q ∈ rest) : t.parent? q = some around := by
    obtain ⟨hq, hlives⟩ := h.next q (by simp [hq])
    exact (hwalk.parent? hlives.1).trans hq
  refine ⟨hrest, fun q hq => ⟨hparent hq, ?_⟩, fun x hx => ⟨(hnew x hx).1, fun q hq hunder => ?_⟩⟩
  · obtain ⟨hqparent, hlives⟩ := h.next q (by simp [hq])
    refine hlives.passes hwalk ?_
    rintro (hge | ⟨b, hb, hunder⟩)
    · exact absurd hlives.1 hge.not_gt
    · rw [List.mem_singleton.1 hb] at hunder
      have heq := hs.eq_of_below hkparent hqparent (hs.below_of_under hunder q.index) .refl
      exact hk (heq ▸ hq)
  · rcases (hnew x hx).2 with hold | hbelow
    · obtain ⟨hlives, hnot⟩ := h.apart x hold
      exact hnot q (by simp [hq]) ((hwalk.under hs hlives.1).1 hunder)
    · have hkt : t.parent? k = some around := (hwalk.parent? hklives.1).trans hkparent
      have heq := ht.eq_of_below hkt (hparent hq) hbelow (ht.below_of_under hunder x.index)
      exact hk (heq ▸ hq)

end

/-! ## Gathering -/

/-- Goes down from an item and gathers what stands below it. All that it has then is alive. -/
def Gathers (nested : Nested (Scene U X × Chronicle (Code U)) (Code U)) (window : WindowId)
    (down : Visitor U X (List ItemRef)) : Prop :=
  ∀ (w : Tale (Scene U X) (Code U)) (a : ItemRef) (b : List ItemRef), w.Sound →
    w.host.1.Lives window a → (∀ x ∈ b, w.host.1.Lives window x ∧ ¬w.host.1.Under a x.component) →
    (living (w.host.1.Walk [a])).Runs nested () w (down a b) fun _ w' r =>
      ∀ x ∈ r.2, w'.host.1.Lives window x ∧ (x ∈ b ∨ w'.host.1.Below a x)

section

variable {nested : SceneNested U X} {window : WindowId}
  {down : Visitor U X (List ItemRef)} (hdown : Gathers nested window down)
  {w : SceneTale U X} {a : ItemRef} {b : List ItemRef}
include hdown

theorem gathers_next {k : ItemRef} {rest : List ItemRef} (hw : w.Sound)
    (hahead : w.host.1.Ahead window a (k :: rest) b)
    {next : Bool × List ItemRef → SceneM U X (Bool × List ItemRef)}
    (hnext : ∀ (w1 : SceneTale U X) r, w1.Sound →
      w.host.1.Walk [k] w.store w.host.1 w1.store w1.host.1 → w1.host.1.Ahead window a rest r.2 →
      (living (w1.host.1.Walk rest)).Runs nested () w1 (next r) fun _ w' r' =>
        ∀ x ∈ r'.2, w'.host.1.Lives window x ∧ (x ∈ r.2 ∨ ∃ q ∈ rest, w'.host.1.Below q x)) :
    (living (w.host.1.Walk (k :: rest))).Runs nested () w (down k b >>= next) fun _ w' r =>
      ∀ x ∈ r.2, w'.host.1.Lives window x ∧ (x ∈ b ∨ ∃ q ∈ k :: rest, w'.host.1.Below q x) := by
  obtain ⟨-, hlives⟩ := hahead.next k (by simp)
  have hfirst := hdown w k b hw hlives fun x hx =>
    ⟨(hahead.apart x hx).1, (hahead.apart x hx).2 k (by simp)⟩
  have hfirst := living_mono (fun h => h.cons rest)
    (hfirst.mono fun _ w1 r hle _ hr => And.intro hle hr)
  refine .seq hfirst fun _ w1 r _ hw1 h => ?_
  obtain ⟨hwalk, hgathered⟩ := h
  have hahead1 := hahead.step hw.tree hw1.tree hwalk hgathered
  refine living_mono (fun h => (Scene.Walk.later hw.tree hwalk h).mono fun q hq =>
    ⟨q, by simp [hq], .refl⟩) ((hnext w1 r hw1 hwalk hahead1).mono fun _ w' r' hle _ h x hx => ?_)
  refine ⟨(h x hx).1, ?_⟩
  rcases (h x hx).2 with hx | ⟨q, hq, hbelow⟩
  · obtain ⟨hlives1, hx | hbelow⟩ := hgathered x hx
    · exact .inl hx
    · exact .inr ⟨k, by simp, (Passes.below hle hw1.tree hlives1.1).2 hbelow⟩
  · exact .inr ⟨q, by simp [hq], hbelow⟩

theorem visitAll_gathers {items : List ItemRef} (hw : w.Sound)
    (hahead : w.host.1.Ahead window a items b) :
    (living (w.host.1.Walk items)).Runs nested () w (Component.visitAll down items b) fun _ w' r =>
      ∀ x ∈ r.2, w'.host.1.Lives window x ∧ (x ∈ b ∨ ∃ q ∈ items, w'.host.1.Below q x) := by
  induction items generalizing w b with
  | nil =>
    exact .ret hw fun x hx =>
      ⟨(hahead.apart x hx).1, .inl hx⟩
  | cons k rest ih =>
    refine gathers_next hdown hw hahead fun w1 r hw1 _ hahead1 => ?_
    obtain ⟨more, b'⟩ := r
    cases more with
    | false =>
      exact .ret hw1 fun x hx =>
        ⟨(hahead1.apart x hx).1, .inl hx⟩
    | true => exact ih hw1 hahead1

/-- The rows of a repeater, which stay as they are while the walk goes through them. -/
theorem walkShelf_gathers {instances : Shelf HandleId} {root : Nat → ComponentId}
    {rows : List Nat} (hw : w.Sound) (hr : r < w.host.1.repeaters.size)
    (hsame : (w.host.1.repeater r).instances = instances) (hhost : (w.host.1.repeater r).host = a)
    (hroot : ∀ i ∈ rows, ∃ k < w.host.1.handles.size, instances.list[i]? = some k ∧
      (w.host.1.handle k).component = root i)
    (hahead : w.host.1.Ahead window a (rows.map fun i => ⟨root i, 0⟩) b) :
    (living (w.host.1.Walk (rows.map fun i => ⟨root i, 0⟩))).Runs nested () w
      (Component.walkShelf down r instances.number rows b) fun _ w' res =>
        ∀ x ∈ res.2, w'.host.1.Lives window x ∧
          (x ∈ b ∨ ∃ q ∈ rows.map fun i => (⟨root i, 0⟩ : ItemRef), w'.host.1.Below q x) := by
  induction rows generalizing w b with
  | nil =>
    exact .ret hw fun x hx =>
      ⟨(hahead.apart x hx).1, .inl hx⟩
  | cons i rest ih =>
    obtain ⟨k, hk, hget, hcomp⟩ := hroot i (by simp)
    have hi : i < instances.size := (Array.getElem?_eq_some_iff.1 hget).1
    refine .ask hw fun hn => ?_
    rw [hsame, instances.onShelf?_number hi, hget]
    refine .ask hn fun hn => ?_
    rw [show ((World.noting Event.control w).host.1.handle k).component = root i from hcomp]
    refine gathers_next hdown hn hahead
      fun w1 res hw1 hwalk hahead1 => ?_
    have hwalk : w.host.1.Walk [⟨root i, 0⟩] w.store w.host.1 w1.store w1.host.1 := hwalk
    obtain ⟨more, b'⟩ := res
    cases more with
    | false =>
      exact .ret hw1
        fun x hx => ⟨(hahead1.apart x hx).1, .inl hx⟩
    | true =>
      refine ih hw1 (hr.trans_le hwalk.repeaters) ((hwalk.rows r hr ?_).trans hsame)
        ((hwalk.repeater r hr).trans hhost) (fun j hj => ?_) hahead1
      · rintro (hge | ⟨q, hq, hbelow⟩)
        · exact absurd hr hge.not_gt
        · rw [List.mem_singleton.1 hq, hhost] at hbelow
          exact hw.tree.not_below_parent (hahead.next ⟨root i, 0⟩ (by simp)).1 hbelow
      · obtain ⟨k, hk, hget, hcomp⟩ := hroot j (by simp [hj])
        exact ⟨k, hk.trans_le hwalk.handles, hget, (hwalk.handle k hk).trans hcomp⟩

end

/-! ## Rows -/

section

variable {store store' : Store (Code U)} {s t : Scene U X}

theorem Living.row_lives (h : Sound store s) (hk : k ∈ s.rows r) :
    (s.component (s.handle k).component).host = some (s.repeater r).host ∧
      s.parent? ⟨(s.handle k).component, 0⟩ = some (s.repeater r).host ∧
      s.Lives (s.component (s.repeater r).host.component).window ⟨(s.handle k).component, 0⟩ := by
  obtain ⟨hlt, hhost⟩ := h.counts.row hk
  have hc := h.tree.handle hlt
  have hopen : k ∈ s.openHandles (s.handle k).component :=
    Scene.mem_openHandles.2 ⟨hlt, rfl, h.counts.unreleased (fun h => h) hk⟩
  have hparent : (s.item ⟨(s.handle k).component, 0⟩).parent = none := by
    by_contra hne
    obtain ⟨m, hm⟩ := Option.ne_none_iff_exists'.1 hne
    exact Nat.not_lt_zero m (h.tree.parent hm)
  refine ⟨hhost, ?_, hc, ?_, h.tree.window (h.tree.host_component hhost)⟩
  · simp only [Scene.parent?, hparent]
    exact hhost
  · by_contra hd
    have hd : (s.component (s.handle k).component).destroyed = true := by simpa using hd
    rw [((h.counts.destroyed hc fun h => h).1 hd).2] at hopen
    cases hopen

theorem Living.row_unique (h : Sound store s) {q : RepeaterId} {l : HandleId}
    (hk : k ∈ s.rows r) (hl : l ∈ s.rows q)
    (heq : (s.handle k).component = (s.handle l).component) : k = l ∧ r = q := by
  obtain ⟨hklt, hhost⟩ := h.counts.row hk
  have hkl : k = l := by
    refine h.tree.single hklt (h.counts.row hl).1 heq ?_
    rw [h.tree.host_component hhost]
    nofun
  subst hkl
  exact ⟨rfl, h.counts.apart hk hl⟩

/-- The item stands in no row at `a`, or in a row of a repeater that is not among those to
come. -/
def Scene.Passed (s : Scene U X) (a : ItemRef) (repeaters : List RepeaterId) (x : ItemRef) : Prop :=
  ∀ f, (s.component f).host = some a → s.Within f x.component →
    ∃ r k, r ∉ repeaters ∧ r < s.repeaters.size ∧ (s.repeater r).host = a ∧ k ∈ s.rows r ∧
      (s.handle k).component = f

theorem Scene.Passed.not_within
    (h : s.Passed a repeaters x) (hs : Sound store s) (hr : r ∈ repeaters)
    (hhost : (s.repeater r).host = a) (hk : k ∈ s.rows r) :
    ¬s.Within (s.handle k).component x.component := by
  intro hwithin
  obtain ⟨hkhost, -⟩ := hs.row_lives hk
  rw [hhost] at hkhost
  obtain ⟨q, l, hq, -, -, hl, heq⟩ := h _ hkhost hwithin
  obtain ⟨-, rfl⟩ := hs.row_unique hl hk heq
  exact hq hr

theorem Scene.Passed.passes (h : s.Passed a repeaters x) (hs : Sound store s)
    (hx : x.component < s.components.size) (hle : Passes gone turned store s store' t)
    (hturned : ∀ r < s.repeaters.size, r ∉ repeaters → (s.repeater r).host = a → ¬turned r) :
    t.Passed a repeaters x := by
  intro f hf hwithin
  have hwithin := (hle.within hs.tree hx).1 hwithin
  rw [hle.host f ((hwithin.le hs.tree).trans_lt hx)] at hf
  obtain ⟨r, k, hnot, hr, hhost, hk, hcomp⟩ := h f hf hwithin
  refine ⟨r, k, hnot, hr.trans_le hle.repeaters, (hle.repeater r hr).trans hhost, ?_, ?_⟩
  · rw [Scene.rows, hle.rows r hr (hturned r hr hnot hhost)]
    exact hk
  · exact (hle.handle k (hs.counts.row hk).1).trans hcomp

theorem Scene.Walk.of_update (hs : Sound store s)
    (h : Passes (s.RowsEnd r) (s.RowsTurn r) store1 s1 store2 s2) :
    s.Walk [(s.repeater r).host] store1 s1 store2 s2 := by
  have hend (e : ComponentId) (he : s.RowsEnd r e) : s.WalkEnd [(s.repeater r).host] e := by
    rcases he with he | ⟨k, hk, hwithin⟩
    · exact .inl he
    · exact .inr ⟨_, List.mem_singleton_self _, _, _, hwithin, (hs.row_lives hk).1, .refl⟩
  refine h.mono hend fun q hq => ?_
  rcases hq with hq | rfl | hq
  · exact .inl hq
  · exact .inr ⟨_, List.mem_singleton_self _, .refl⟩
  · by_cases hlt : q < s.repeaters.size
    · rcases hend _ hq with hge | ⟨a, ha, hunder⟩
      · exact absurd (hs.tree.host_lt hlt) hge.not_gt
      · exact .inr ⟨a, ha, hs.tree.below_of_under hunder (s.repeater q).host.index⟩
    · exact .inl (not_lt.1 hlt)

theorem Scene.not_rowsEnd_host (hs : Sound store s) (hr : r < s.repeaters.size) :
    ¬s.RowsEnd r (s.repeater r).host.component := by
  rintro (hge | ⟨k, hk, hwithin⟩)
  · exact absurd (hs.tree.host_lt hr) hge.not_gt
  · exact absurd (hwithin.le hs.tree)
      ((hs.tree.host_component_lt (hs.row_lives hk).1).not_ge)

theorem Scene.Passed.mono {repeaters' : List RepeaterId}
    (h : s.Passed a repeaters x) (hsub : ∀ r ∈ repeaters', r ∈ repeaters) :
    s.Passed a repeaters' x := by
  intro f hf hwithin
  obtain ⟨r, k, hnot, h⟩ := h f hf hwithin
  exact ⟨r, k, fun hr => hnot (hsub r hr), h⟩

/-- What stands below a row of a repeater has been passed once the walk is through with it. -/
theorem Scene.Passed.of_below (hs : Sound store s)
    (hr : r < s.repeaters.size) (hhost : (s.repeater r).host = a)
    (hnot : r ∉ repeaters) (hk : k ∈ s.rows r)
    (hbelow : s.Below ⟨(s.handle k).component, 0⟩ x) : s.Passed a repeaters x := by
  intro f hf hwithin
  obtain ⟨m, hm, hroot⟩ := hs.tree.exists_root_of_within hf hwithin x.index
  obtain ⟨-, hparent, -⟩ := hs.row_lives hk
  rw [hhost] at hparent
  have heq := hs.tree.eq_of_below hm hparent hroot hbelow
  exact ⟨r, k, hnot, hr, hhost, hk, congrArg ItemRef.component heq.symm⟩

theorem Living.rows_ahead (h : Sound store s) {gathered : List ItemRef} (hr : r ∈ repeaters)
    (hhost : (s.repeater r).host = a) (ha : s.Lives window a)
    (hgathered : ∀ x ∈ gathered, s.Lives window x ∧ s.Passed a repeaters x)
    {root : Nat → ComponentId} (hroot : ∀ i < (s.repeater r).instances.size, ∃ k ∈ s.rows r,
      (s.repeater r).instances.list[i]? = some k ∧ (s.handle k).component = root i) :
    s.Ahead window a ((List.range (s.repeater r).instances.size).map fun i => ⟨root i, 0⟩)
      gathered := by
  have hrow {i : Nat} (hi : i < (s.repeater r).instances.size) :
      s.parent? ⟨root i, 0⟩ = some a ∧ s.Lives window ⟨root i, 0⟩ := by
    obtain ⟨k, hk, -, hcomp⟩ := hroot i hi
    obtain ⟨-, hparent, hlives⟩ := h.row_lives hk
    rw [hcomp, hhost] at hparent hlives
    exact ⟨hparent, ha.2.2 ▸ hlives⟩
  refine ⟨?_, fun q hq => ?_, fun x hx => ⟨(hgathered x hx).1, fun q hq hunder => ?_⟩⟩
  · refine List.Nodup.map_on (fun i hi j hj heq => ?_) List.nodup_range
    obtain ⟨k, hk, hki, hkc⟩ := hroot i (List.mem_range.1 hi)
    obtain ⟨l, hl, hlj, hlc⟩ := hroot j (List.mem_range.1 hj)
    have hcomp : (s.handle k).component = (s.handle l).component := by
      rw [hkc, hlc]
      exact congrArg ItemRef.component heq
    obtain ⟨rfl, -⟩ := h.row_unique hk hl hcomp
    have hnodup := h.counts.nodup r
    rw [← Array.getElem?_toList] at hki hlj
    have hlt : i < (s.rows r).length := by
      have := List.mem_range.1 hi
      simpa [Scene.rows, Shelf.size] using this
    exact (List.getElem?_inj hlt hnodup).1 (hki.trans hlj.symm)
  · obtain ⟨i, hi, rfl⟩ := List.mem_map.1 hq
    exact hrow (List.mem_range.1 hi)
  · obtain ⟨i, hi, rfl⟩ := List.mem_map.1 hq
    obtain ⟨k, hk, -, hcomp⟩ := hroot i (List.mem_range.1 hi)
    refine (hgathered x hx).2.not_within h hr hhost hk ?_
    rw [hcomp]
    exact h.tree.within_of_below (h.tree.below_of_under hunder x.index)

end

section

variable {nested : SceneNested U X}
  (hN : lasting.Obeys nested) {window : WindowId} {w : SceneTale U X}
  {a : ItemRef} {b : List ItemRef}
include hN

theorem walkRows_gathers {down : Visitor U X (List ItemRef)} (hdown : Gathers nested window down)
    (hw : w.Sound) (ha : w.host.1.Lives window a) (hnodup : repeaters.Nodup)
    (hplaced : ∀ r ∈ repeaters, r < w.host.1.repeaters.size ∧ (w.host.1.repeater r).host = a)
    (hb : ∀ x ∈ b, w.host.1.Lives window x ∧ w.host.1.Passed a repeaters x) :
    (living (w.host.1.Walk [a])).Runs nested () w
      (Component.walkRows down repeaters b) fun _ w' r =>
      ∀ x ∈ r.2, w'.host.1.Lives window x ∧ (x ∈ b ∨ w'.host.1.Below a x) := by
  induction repeaters generalizing w b with
  | nil => exact .ret hw fun x hx => ⟨(hb x hx).1, .inl hx⟩
  | cons r rest ih =>
    obtain ⟨hr, hhost⟩ := hplaced r (by simp)
    obtain ⟨hnot, hrest⟩ := List.nodup_cons.1 hnodup
    -- the update ends only what stood in the rows, which the walk has not reached yet
    have hupdate := living_mono (fun h => hhost ▸ Scene.Walk.of_update hw h)
      ((living_ensureUpdated hN hw hr).mono fun _ w1 _ hle _ _ => hle)
    refine .seq hupdate fun _ w1 _ _ hw1 hle1 => ?_
    have hwalk1 : w.host.1.Walk [a] w.store w.host.1 w1.store w1.host.1 :=
      hhost ▸ Scene.Walk.of_update hw hle1
    have hspared : ¬w.host.1.RowsEnd r a.component := hhost ▸ Scene.not_rowsEnd_host hw hr
    have ha1 : w1.host.1.Lives window a := ha.passes hle1 hspared
    have hr1 : r < w1.host.1.repeaters.size := hr.trans_le hle1.repeaters
    have hhost1 : (w1.host.1.repeater r).host = a := (hle1.repeater r hr).trans hhost
    have hb1 : ∀ x ∈ b, w1.host.1.Lives window x ∧ w1.host.1.Passed a (r :: rest) x := by
      intro x hx
      obtain ⟨hlives, hpassed⟩ := hb x hx
      refine ⟨hlives.passes hle1 ?_, hpassed.passes hw hlives.1 hle1 fun q hq hout hqhost => ?_⟩
      · rintro (hge | ⟨k, hk, hwithin⟩)
        · exact absurd hlives.1 hge.not_gt
        · exact hpassed.not_within hw (by simp) hhost hk hwithin
      · rintro (hge | rfl | hend)
        · exact absurd hq hge.not_gt
        · exact hout (by simp)
        · exact hspared (hqhost ▸ hend)
    refine .ask hw1 fun hn => ?_
    set instances := (w1.host.1.repeater r).instances with hinstances
    set root : Nat → ComponentId := fun i =>
      (w1.host.1.handle (instances.list[i]?.getD 0)).component with hrootdef
    have hroot : ∀ i < instances.size, ∃ k ∈ w1.host.1.rows r, instances.list[i]? = some k ∧
        (w1.host.1.handle k).component = root i := by
      intro i hi
      have hget : instances.list[i]? = some instances.list[i] := Array.getElem?_eq_getElem hi
      refine ⟨_, ?_, hget, by simp only [hrootdef, hget, Option.getD_some]⟩
      exact Array.mem_toList_iff.2 (Array.getElem_mem hi)
    have hahead := hw1.rows_ahead (List.mem_cons_self ..) hhost1 ha1 hb1 hroot
    have hbelow1 : ∀ q ∈ (List.range instances.size).map fun i => (⟨root i, 0⟩ : ItemRef),
        w1.host.1.Below a q := fun q hq => .single (hahead.next q hq).1
    have hshelf := walkShelf_gathers hdown (w := w1.beat) hw1 hr1 hinstances hhost1 (fun i hi => by
        obtain ⟨k, hk, hget, hcomp⟩ := hroot i (List.mem_range.1 hi)
        exact ⟨k, (hw1.counts.row hk).1, hget, hcomp⟩) hahead
    refine .seq (living_mono (fun h => Scene.Walk.later hw.tree hwalk1
      (h.mono fun q hq => ⟨a, List.mem_singleton_self _, hbelow1 q hq⟩))
      (hshelf.mono fun _ w2 res hle _ h => And.intro hle h)) fun _ w2 res _ hw2 h => ?_
    obtain ⟨hle2, hgathered⟩ := h
    have hle2 : w1.host.1.Walk ((List.range instances.size).map fun i => ⟨root i, 0⟩) w1.store
      w1.host.1 w2.store w2.host.1 := hle2
    have hbelow2 : ∀ x ∈ res.2, x ∈ b ∨ w2.host.1.Below a x := fun x hx =>
      (hgathered x hx).2.imp id fun ⟨q, hq, hqx⟩ =>
        hqx.trans ((hle2.below hw1.tree (hahead.next q hq).2.1).2 (hbelow1 q hq))
    have hturned {q : RepeaterId} (hq : q < w1.host.1.repeaters.size)
        (hqhost : (w1.host.1.repeater q).host = a) :
        ¬w1.host.1.WalkTurn ((List.range instances.size).map fun i => ⟨root i, 0⟩) q := by
      rintro (hge | ⟨k, hk, hbelow⟩)
      · exact absurd hq hge.not_gt
      · exact hw1.tree.not_below_parent (hahead.next k hk).1 (hqhost ▸ hbelow)
    obtain ⟨more, gathered⟩ := res
    cases more with
    | false => exact .ret hw2 fun x hx => ⟨(hgathered x hx).1, hbelow2 x hx⟩
    | true =>
      have hwalk2 : w.host.1.Walk [a] w.store w.host.1 w2.store w2.host.1 :=
        hwalk1.trans (Scene.Walk.later hw.tree hwalk1
          (hle2.mono fun q hq => ⟨a, List.mem_singleton_self _, hbelow1 q hq⟩))
      have ha2 : w2.host.1.Lives window a := by
        refine ha1.passes hle2 ?_
        rintro (hge | ⟨k, hk, hunder⟩)
        · exact absurd ha1.1 hge.not_gt
        · exact hw1.tree.not_below_parent (hahead.next k hk).1
            (hw1.tree.below_of_under hunder a.index)
      have hb2 : ∀ x ∈ gathered, w2.host.1.Lives window x ∧ w2.host.1.Passed a rest x := by
        intro x hx
        refine ⟨(hgathered x hx).1, ?_⟩
        rcases (hgathered x hx).2 with hold | ⟨q, hq, hqx⟩
        · refine ((hb1 x hold).2.passes hw1 (hb1 x hold).1.1 hle2 fun q hq _ hqhost =>
            hturned hq hqhost).mono fun q hq => List.mem_cons_of_mem _ hq
        · obtain ⟨i, hi, rfl⟩ := List.mem_map.1 hq
          obtain ⟨k, hk, -, hcomp⟩ := hroot i (List.mem_range.1 hi)
          refine .of_below hw2 (hr1.trans_le hle2.repeaters)
            ((hle2.repeater r hr1).trans hhost1) hnot (k := k) ?_ ?_
          · rw [Scene.rows, hle2.rows r hr1 (hturned hr1 hhost1)]
            exact hk
          · rw [hle2.handle k (hw1.counts.row hk).1, hcomp]
            exact hqx
      refine living_mono (fun h => Scene.Walk.later hw.tree hwalk2 h)
        ((ih hw2 ha2 hrest (fun q hq => ?_) hb2).mono
          fun _ w' res hle _ h x hx => ⟨(h x hx).1, ?_⟩)
      · obtain ⟨hq, hqhost⟩ := hplaced q (by simp [hq])
        exact ⟨hq.trans_le hwalk2.repeaters, (hwalk2.repeater q hq).trans hqhost⟩
      · rcases (h x hx).2 with hx | hbelow
        · exact (hbelow2 x hx).imp id fun hbelow =>
            (Passes.below hle hw2.tree (hb2 x hx).1.1).2 hbelow
        · exact .inr hbelow

/-- A visitor that gathers the items it is given, or some of them. -/
def Collects (nested : Nested (Scene U X × Chronicle (Code U)) (Code U))
    (visit : Visitor U X (List ItemRef)) : Prop :=
  ∀ (w : Tale (Scene U X) (Code U)) (a : ItemRef) (b : List ItemRef), w.Sound →
    lasting.Runs nested () w (visit a b) fun _ _ r => ∀ x ∈ r.2, x = a ∨ x ∈ b

theorem walkTo_gathers {visit : Visitor U X (List ItemRef)} (hvisit : Collects nested visit)
    (limit : Nat) : Gathers nested window (Component.walkTo visit limit) := by
  induction limit with
  | zero =>
    intro w a b hw ha hb
    exact .ret hw fun x hx => ⟨(hb x hx).1, .inl hx⟩
  | succ limit ih =>
    intro w a b hw ha hb
    refine living_then (hvisit w a b hw) fun w1 res hstays hw1 hgathered => ?_
    have hwalk1 : w.host.1.Walk [a] w.store w.host.1 w1.store w1.host.1 := Onward.stays hstays
    have ha1 : w1.host.1.Lives window a := by
      unfold Scene.Lives Scene.component
      rw [hstays.scene.components]
      exact ha
    have hb1 : ∀ x ∈ res.2, w1.host.1.Lives window x ∧ ¬w1.host.1.Under a x.component ∧
        (x ∈ b ∨ x = a) := by
      intro x hx
      rcases hgathered x hx with rfl | hx
      · exact ⟨ha1, fun hunder => Nat.lt_irrefl _ (hw1.tree.lt_of_under hunder), .inr rfl⟩
      · obtain ⟨hlives, hnot⟩ := hb x hx
        refine ⟨?_, fun hunder => hnot ((hwalk1.under hw.tree hlives.1).1 hunder), .inl hx⟩
        unfold Scene.Lives Scene.component
        rw [hstays.scene.components]
        exact hlives
    obtain ⟨more, gathered⟩ := res
    cases more with
    | false =>
      refine .ret hw1 fun x hx => ⟨(hb1 x hx).1, ?_⟩
      rcases (hb1 x hx).2.2 with hx | rfl
      · exact .inl hx
      · exact .inr .refl
    | true =>
      refine .ask hw1 fun hn => ?_
      set item := w1.host.1.item a with hitem
      have hchild : ∀ k ∈ item.children.map fun n => (⟨a.component, n⟩ : ItemRef),
          w1.host.1.parent? k = some a ∧ k.component = a.component := by
        intro k hk
        obtain ⟨n, hn, rfl⟩ := List.mem_map.1 hk
        have hparent := hw1.tree.child hn
        exact ⟨by simp only [Scene.parent?, hparent], rfl⟩
      have hahead : w1.host.1.Ahead window a
          (item.children.map fun n => (⟨a.component, n⟩ : ItemRef)) gathered := by
        refine ⟨?_, fun k hk => ⟨(hchild k hk).1, ?_⟩, fun x hx => ⟨(hb1 x hx).1, ?_⟩⟩
        · exact (hw1.tree.children a).map fun n m h => congrArg ItemRef.index h
        · unfold Scene.Lives
          rw [(hchild k hk).2]
          exact ha1
        · exact fun k hk hunder => (hb1 x hx).2.1 (hunder.mono (.single (hchild k hk).1))
      have hbelow1 : ∀ k ∈ item.children.map fun n => (⟨a.component, n⟩ : ItemRef),
          ∃ q ∈ [a], w1.host.1.Below q k :=
        fun k hk => ⟨a, List.mem_singleton_self _, .single (hchild k hk).1⟩
      have hchildren := visitAll_gathers ih hn hahead
      refine .seq (living_mono (fun h => Scene.Walk.later hw.tree hwalk1 (h.mono hbelow1))
        (hchildren.mono fun _ w2 r hle _ h => And.intro hle h)) fun _ w2 res _ hw2 h => ?_
      obtain ⟨hle2, hgathered2⟩ := h
      have hwalk2 : w.host.1.Walk [a] w.store w.host.1 w2.store w2.host.1 :=
        hwalk1.trans (Scene.Walk.later hw.tree hwalk1 (hle2.mono hbelow1))
      have hsources : ∀ x ∈ res.2, x ∈ b ∨ w2.host.1.Below a x := by
        intro x hx
        rcases (hgathered2 x hx).2 with hx | ⟨k, hk, hkx⟩
        · rcases (hb1 x hx).2.2 with hx | rfl
          · exact .inl hx
          · exact .inr .refl
        · obtain ⟨hparent, hkc⟩ := hchild k hk
          have hparent2 : w2.host.1.parent? k = some a :=
            (hle2.parent? (hkc.symm ▸ ha1.1)).trans hparent
          exact .inr (hkx.tail hparent2)
      have ha2 : w2.host.1.Lives window a := by
        refine ha1.passes hle2 ?_
        rintro (hge | ⟨k, hk, hunder⟩)
        · exact absurd ha1.1 hge.not_gt
        · have hlt := hw1.tree.lt_of_under hunder
          rw [(hchild k hk).2] at hlt
          exact Nat.lt_irrefl _ hlt
      obtain ⟨more, gathered2⟩ := res
      cases more with
      | false => exact .ret hw2 fun x hx => ⟨(hgathered2 x hx).1, hsources x hx⟩
      | true =>
        -- nothing that was gathered stands in a row at the item
        have hpassed : ∀ x ∈ gathered2, w2.host.1.Passed a item.repeaters x := by
          intro x hx f hf hwithin
          exfalso
          obtain ⟨m, hm, hroot⟩ := hw2.tree.exists_root_of_within hf hwithin x.index
          rcases (hgathered2 x hx).2 with hx | ⟨k, hk, hkx⟩
          · have hlives := (hb1 x hx).1
            refine (hb1 x hx).2.1 ((hle2.under hw1.tree hlives.1).1 ⟨f, a, hwithin, hf, .refl⟩)
          · obtain ⟨hparent, hkc⟩ := hchild k hk
            have hparent2 : w2.host.1.parent? k = some a :=
              (hle2.parent? (hkc.symm ▸ ha1.1)).trans hparent
            have heq := hw2.tree.eq_of_below hparent2 hm hkx hroot
            have hlt := hw2.tree.host_component_lt hf
            rw [← hkc, heq] at hlt
            exact Nat.lt_irrefl _ hlt
        refine living_mono (fun h => Scene.Walk.later hw.tree hwalk2 h)
          ((walkRows_gathers hN ih hw2 ha2 (hw1.tree.repeaters a) (fun r hr => ?_) fun x hx =>
            ⟨(hgathered2 x hx).1, hpassed x hx⟩).mono fun _ w' r hle _ h x hx => ⟨(h x hx).1, ?_⟩)
        · obtain ⟨hlt, hhost⟩ := hw1.tree.placed hr
          exact ⟨hlt.trans_le hle2.repeaters, (hle2.repeater r hlt).trans hhost⟩
        · rcases (h x hx).2 with hx | hbelow
          · exact (hsources x hx).imp id fun hbelow =>
              (Passes.below hle hw2.tree (hgathered2 x hx).1.1).2 hbelow
          · exact .inr hbelow

end

/-! ## Rows that come too late -/

namespace Nest

def leaf : Definition Unit := ({ name := "Leaf" } : Definition Unit).root 4 "leaf"

/-- The model of a row adds a row to the vector and brings the outer repeater up to date. -/
def host : Host Unit Unit where
  value _ _ _ := pure .void
  model _ _ := do
    VectorModel.push 0 [.int 2]
    Repeater.ensureUpdated 0
    return none
  peer _ _ := pure ()

end Nest

end ReactiveTree
