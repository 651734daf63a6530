import ReactiveTree.Proofs.Cell.Tended

/-!
# Chains of links

A linked cell sends its writes to its partner, and the partner may be linked in turn. A link looks
for the end of that chain first, then binds its cell, which runs observers, and only then records
the partner. As long as the code that can run in between makes no links itself, no chain ever
closes to a loop (`session_linksEnd`). An observer that links the other way round closes one
(`observer_closes_loop`).
-/

namespace ReactiveTree

variable {S : Type} {K : Type → Type} {α : Type}
variable {c : CellId} {m n : Nat}

namespace Store

/-! ## Chains -/

/-- The chain of links from `c` ends after `n` steps. -/
def Ends (s : Store K) : Nat → CellId → Prop
  | 0, c => s.partner? c = none
  | n + 1, c => ∃ p, s.partner? c = some p ∧ s.Ends n p

/-- Every chain of links ends after fewer steps than there are cells, at the link root. -/
def LinksEnd (s : Store K) : Prop :=
  ∀ c, ∃ n, n ≤ s.cells.size ∧ s.Ends n c ∧ s.linkRoot c = s.follow n c

variable {s t : Store K} {c : CellId}

theorem Ends.unique (h : s.Ends n c) (h' : s.Ends m c) : n = m := by
  induction n generalizing m c with
  | zero =>
    cases m with
    | zero => rfl
    | succ m =>
      obtain ⟨p, hp, -⟩ := h'
      rw [Ends, hp] at h
      cases h
  | succ n ih =>
    obtain ⟨p, hp, h⟩ := h
    cases m with
    | zero =>
      rw [Ends, hp] at h'
      cases h'
    | succ m =>
      obtain ⟨p', hp', h'⟩ := h'
      rw [hp] at hp'
      cases hp'
      rw [ih h h']

theorem lt_size_of_partner? {p : CellId} (h : s.partner? c = some p) : c < s.cells.size := by
  by_contra hc
  rw [partner?, cell_of_size_le (not_lt.1 hc)] at h
  cases h

/-- The cells on a chain, each with fewer steps to go than the one before. -/
theorem Ends.chain (h : s.Ends n c) : ∃ cells : List CellId, cells.length = n ∧ cells.Nodup ∧
      ∀ d ∈ cells, d < s.cells.size ∧ ∃ k, k ≤ n ∧ s.Ends k d := by
  induction n generalizing c with
  | zero => exact ⟨[], rfl, .nil, nofun⟩
  | succ n ih =>
    obtain ⟨p, hp, hn⟩ := h
    obtain ⟨cells, hlen, hnodup, hcells⟩ := ih hn
    refine ⟨c :: cells, by rw [List.length_cons, hlen], List.nodup_cons.mpr ⟨fun hc => ?_, hnodup⟩,
      List.forall_mem_cons.mpr ⟨⟨lt_size_of_partner? hp, n + 1, le_rfl, p, hp, hn⟩, fun d hd => ?_⟩⟩
    · -- a cell has one number of steps to go
      obtain ⟨-, k, hk, hend⟩ := hcells c hc
      have := hend.unique (m := n + 1) ⟨p, hp, hn⟩
      omega
    · obtain ⟨hlt, k, hk, hend⟩ := hcells d hd
      exact ⟨hlt, k, Nat.le_succ_of_le hk, hend⟩

theorem Ends.le_size (h : s.Ends n c) : n ≤ s.cells.size := by
  obtain ⟨cells, rfl, hnodup, hcells⟩ := h.chain
  have hsub : cells ⊆ List.range s.cells.size := fun d hd => List.mem_range.mpr (hcells d hd).1
  simpa using (hnodup.subperm hsub).length_le

/-- Following a chain further than its end changes nothing. -/
theorem Ends.follow (h : s.Ends n c) (hm : n ≤ m) :
    s.follow m c = s.follow n c ∧ s.partner? (s.follow n c) = none := by
  induction n generalizing m c with
  | zero =>
    have hc : s.partner? c = none := h
    refine ⟨?_, hc⟩
    cases m with
    | zero => rfl
    | succ m => simp only [Store.follow, hc]
  | succ n ih =>
    obtain ⟨p, hp, hn⟩ := h
    obtain ⟨m, rfl⟩ : ∃ k, m = k + 1 := ⟨m - 1, by omega⟩
    simp only [Store.follow, hp]
    exact ih hn (Nat.le_of_succ_le_succ hm)

/-- A chain that is followed to a cell whose own chain ends, ends itself, and is as much longer
as the steps that were taken. -/
theorem Ends.of_follow (h : s.Ends m (s.follow n c)) : ∃ k, s.Ends k c ∧ (m = 0 ∨ k = n + m) := by
  induction n generalizing c with
  | zero => exact ⟨m, h, .inr (by omega)⟩
  | succ n ih =>
    unfold Store.follow at h
    cases hp : s.partner? c with
    | none =>
      rw [hp] at h
      have hend : s.Ends 0 c := hp
      exact ⟨0, hend, .inl (h.unique hend)⟩
    | some p =>
      rw [hp] at h
      obtain ⟨k, hk, hlong⟩ := ih h
      exact ⟨k + 1, ⟨p, hp, hk⟩, hlong.imp_right fun hlong => by omega⟩

theorem Ends.partner?_linkRoot (h : s.Ends m (s.linkRoot c)) :
    s.partner? (s.linkRoot c) = none := by
  obtain ⟨k, hk, hlong⟩ := h.of_follow
  have hsize := hk.le_size
  obtain rfl : m = 0 := by omega
  exact h

theorem linksEnd_of_ends (h : ∀ c, ∃ n, s.Ends n c) : s.LinksEnd := fun c => by
  obtain ⟨n, hn⟩ := h c
  exact ⟨n, hn.le_size, hn, (hn.follow hn.le_size).1⟩

theorem LinksEnd.partner?_linkRoot (h : s.LinksEnd) (c : CellId) :
    s.partner? (s.linkRoot c) = none := by
  obtain ⟨n, -, hn, hroot⟩ := h c
  rw [hroot]
  exact (hn.follow le_rfl).2

/-! ## Links that go and links that come -/

/-- From `s` to `t` links may have been cut, and none was made. -/
def Severed (s t : Store K) : Prop := ∀ c p, t.partner? c = some p → s.partner? c = some p

theorem Severed.refl (s : Store K) : Severed s s := fun _ _ h => h

theorem Severed.trans {u : Store K} (h : Severed s t) (h' : Severed t u) : Severed s u :=
  fun c p hp => h c p (h' c p hp)

theorem Severed.of_eq (h : ∀ c, t.partner? c = s.partner? c) : Severed s t := fun c p hp => by
  rwa [h c] at hp

theorem Severed.none (h : Severed s t) (hc : s.partner? c = none) : t.partner? c = none := by
  cases ht : t.partner? c with
  | none => rfl
  | some p =>
    rw [h c p ht] at hc
    cases hc

theorem Severed.linksEnd (h : Severed s t) (hs : s.LinksEnd) : t.LinksEnd := by
  refine linksEnd_of_ends fun c => ?_
  obtain ⟨n, -, hn, -⟩ := hs c
  induction n generalizing c with
  | zero => exact ⟨0, h.none hn⟩
  | succ n ih =>
    obtain ⟨p, hp, hn⟩ := hn
    cases ht : t.partner? c with
    | none => exact ⟨0, ht⟩
    | some q =>
      have hq := h c q ht
      rw [hp] at hq
      cases hq
      obtain ⟨m, hm⟩ := ih p hn
      exact ⟨m + 1, p, ht, hm⟩

theorem severed_of_cells
    (hp : ∀ c, (t.cell c).partner = none ∨ (t.cell c).partner = (s.cell c).partner)
    (hd : ∀ c, (s.cell c).dropped = true → (t.cell c).dropped = true) : Severed s t := by
  intro c p h
  obtain ⟨hpart, hlive⟩ := partner?_eq_some h
  rcases hp c with hnone | hsame
  · rw [hnone] at hpart
    cases hpart
  · have hs : (s.cell p).dropped = false := by
      by_contra hdr
      rw [hd p (by simpa using hdr)] at hlive
      cases hlive
    simp only [partner?, ← hsame, hpart, hs]
    rfl

theorem partner?_pair_ne (s : Store K) {a : CellId} (root : CellId) (hc : c ≠ a) :
    (s.pair a root).partner? c = s.partner? c := by
  have hdr : ∀ d, ((s.pair a root).cell d).dropped =
      (s.cell d).dropped := proj_modify Cell.dropped (fun _ => by rfl) s a
  simp only [partner?, cell_modify_ne hc, hdr]

theorem partner?_pair_self (s : Store K) (a root : CellId) : (s.pair a root).partner? a = none ∨
      (s.pair a root).partner? a = some root := by
  have hdr : ∀ d, ((s.pair a root).cell d).dropped =
      (s.cell d).dropped := proj_modify Cell.dropped (fun _ => by rfl) s a
  by_cases ha : a < s.cells.size
  · simp only [partner?, cell_modify_self ha, hdr]
    split
    · exact .inl rfl
    · exact .inr rfl
  · have hcell : (s.pair a root).cell a = {} :=
      cell_of_size_le (by simpa using ha)
    simp only [partner?, hcell]
    exact .inl trivial

/-- A new link closes no loop if it leads to the end of a chain, and not of its own. -/
theorem LinksEnd.pair {a root : CellId} (h : s.LinksEnd) (hroot : s.partner? root = none)
    (hne : root ≠ a) : (s.pair a root).LinksEnd := by
  set t := s.pair a root
  have hother : ∀ c, c ≠ a → t.partner? c = s.partner? c := fun c hc => s.partner?_pair_ne root hc
  have hend : t.Ends 0 root := (hother root hne).trans hroot
  have ha : ∃ n, t.Ends n a := (s.partner?_pair_self a root).elim (fun h => ⟨0, h⟩)
    fun h => ⟨1, root, h, hend⟩
  refine linksEnd_of_ends fun c => ?_
  obtain ⟨n, -, hn, -⟩ := h c
  -- along the old chain, as far as it does not come to `a`
  induction n generalizing c with
  | zero =>
    by_cases hc : c = a
    · exact hc ▸ ha
    · exact ⟨0, (hother c hc).trans hn⟩
  | succ n ih =>
    by_cases hc : c = a
    · exact hc ▸ ha
    · obtain ⟨p, hp, hn⟩ := hn
      obtain ⟨m, hm⟩ := ih p hn
      exact ⟨m + 1, p, (hother c hc).trans hp, hm⟩

theorem linksEnd_empty (reports : Bool) : LinksEnd ({ reports } : Store K) := by
  refine linksEnd_of_ends fun c => ⟨0, ?_⟩
  have hcell : ({ reports } : Store K).cell c = {} := cell_of_size_le (Nat.zero_le _)
  simp only [Ends, partner?, hcell]

end Store

open Store Regime

/-! ## Orderly programs -/

/-- A program that makes links only if `links` holds, and gives bindings and observers calm
code only. -/
def Act.Orderly (calm : {α : Type} → K α → Prop) (links : Prop) : {α : Type} → Act S K α → Prop
  | _, .bind x f => x.Orderly calm links ∧ ∀ a, (f a).Orderly calm links
  | _, .perform c => calm c ∨ links
  | _, .untracked body => body.Orderly calm links
  | _, .ensure body _ => body.Orderly calm links
  | _, .newBound _ c => calm c
  | _, .newTracker _ onDirty => ∀ c, onDirty = some c → calm c
  | _, .setBinding _ c => calm c
  | _, .link _ _ => links
  | _, .observe _ c => calm c
  | _, .track _ body => body.Orderly calm links
  | _, _ => True

theorem Act.Orderly.mono {calm : {α : Type} → K α → Prop} {links links' : Prop} {act : Act S K α}
    (h : act.Orderly calm links) (hl : links → links') : act.Orderly calm links' := by
  induction act with
  | bind x f ihx ihf => exact ⟨ihx h.1, fun a => ihf a (h.2 a)⟩
  | perform c => exact Or.imp_right hl h
  | untracked body ih => exact ih h
  | ensure body after ih => exact ih h
  | link a b => exact hl h
  | track t body ih => exact ih h
  | newBound | newTracker | setBinding | observe => exact h
  | _ => trivial

section

variable (calm : {α : Type} → K α → Prop) (links : Prop)

/-- Chains end, and have always ended; without links none is made. -/
def linking : Regime S K Unit where
  holds _ w := w.store.LinksEnd ∧ Tended calm w.store ∧ ∀ m ∈ w.past, m.store.LinksEnd
  le _ w _ w' := Kept w.store w'.store ∧ (¬links → Severed w.store w'.store)
  admits _ _ c := calm c ∨ links
  returns _ _ _ _ := True
  fits _ _ _ _ := True
  stops _ := True

variable {calm links} {w : Tale S K} {s : Store K}

theorem linking_change (hw : (linking calm links).holds () w) (hk : Kept w.store s)
    (hs : Severed w.store s) (ht : Tended calm s) :
    (linking calm links).Lets () w s :=
  ⟨⟨hs.linksEnd hw.1, ht, hw.2.2⟩, hk, fun _ => hs⟩

instance linking_laws : (linking (S := S) (K := K) calm links).Lawful where
  refl _ _ := ⟨.refl _, fun _ => .refl _⟩
  trans h h' := ⟨h.1.trans h'.1, fun hl => (h.2 hl).trans (h'.2 hl)⟩
  kept h := h.1
  note _ _ hw :=
    ⟨⟨hw.1, hw.2.1, List.forall_mem_cons.mpr ⟨hw.1, hw.2.2⟩⟩, .refl _, fun _ => .refl _⟩
  akin hw hk := linking_change hw hk.kept (.of_eq hk.partner?) (hw.2.1.akin hk)
  amend hw ha _ _ := linking_change hw (.of_size ha.size ha.tracker_all)
    (severed_of_cells (fun d => (ha.detached_all d).imp And.right And.right)
      fun d hd => (ha.dropped_all d).trans hd)
    (hw.2.1.amended ha)
  code hw hb := ⟨.inl (hw.2.1.binding _ _ hb), fun _ _ => trivial⟩
  observer hw ho := .inl (hw.2.1.observer _ _ ho)

/-! ### Changes of the store -/

theorem linking_add (cell : Cell K) (hw : (linking calm links).holds () w)
    (hp : cell.partner = none) (hb : ∀ code, cell.binding = some (.code code) → calm code) :
    (linking calm links).Lets () w (w.store.add cell).2 := by
  have hcell := w.store.cell_add cell
  refine linking_change hw (kept_add ..) (severed_of_cells (fun c => ?_) fun c hc => ?_)
    (hw.2.1.add cell hb)
  · rw [hcell]
    split
    · exact .inl hp
    · exact .inr rfl
  · by_cases hsize : c = w.store.cells.size
    · rw [cell_of_size_le hsize.ge] at hc
      cases hc
    · rwa [hcell, if_neg hsize]

theorem linking_observe {code : K Unit} (hw : (linking calm links).holds () w)
    (hcode : calm code) :
    (linking calm links).Lets () w (w.store.observe c code).2 := by
  have hcell := w.store.content_observe c code
  refine linking_change hw
    (.of_size (sameAround_observe ..).size fun d => congrArg Content.tracker (hcell d))
    (severed_of_cells (fun d => .inr (congrArg Content.partner (hcell d))) fun d hd => ?_)
    (hw.2.1.observe hcode)
  exact (congrArg Content.dropped (hcell d)).trans hd

theorem linking_unobserve {o : ObserverId} (hw : (linking calm links).holds () w) :
    (linking calm links).Lets () w (w.store.unobserve o) := by
  have hcell := w.store.content_unobserve o
  refine linking_change hw
    (.of_size (sameAround_unobserve ..).size fun d => congrArg Content.tracker (hcell d))
    (severed_of_cells (fun d => .inr (congrArg Content.partner (hcell d))) fun d hd => ?_)
    (hw.2.1.unobserve o)
  exact (congrArg Content.dropped (hcell d)).trans hd

theorem linking_drop (hc : c < w.store.cells.size) (hw : (linking calm links).holds () w) :
    (linking calm links).Lets () w (w.store.drop c) := by
  have hcell := content_drop hc
  refine linking_change hw (kept_drop hc) (severed_of_cells (fun d => ?_) fun d hd => ?_)
    (hw.2.1.drop hc)
  · have h := congrArg Content.partner (hcell d)
    split at h
    · exact .inl h
    · exact .inr h
  · have h := congrArg Content.dropped (hcell d)
    split at h
    · exact h
    · exact h.trans hd

theorem linking_rebind {b : Binding K} (hw : (linking calm links).holds () w)
    (hb : ∀ code, b = .code code → calm code) :
    (linking calm links).Lets () w (w.store.rebind c b) := by
  refine linking_change hw (kept_rebind ..) (severed_of_cells (fun d => ?_) fun d hd => ?_)
    (hw.2.1.rebind hb)
  · rw [Store.rebind, cell_modify]
    split
    · exact .inl rfl
    · exact .inr rfl
  · exact (proj_modify Cell.dropped (fun _ => by rfl) _ c d).trans hd

variable {nested : Nested (S × Chronicle K) K}

/-- A link may be made where the code that runs in between makes none. -/
theorem linking_link {a b : CellId} (hw : (linking (S := S) calm True).holds () w)
    (hN : (linking (S := S) calm False).Obeys nested) :
    (linking (S := S) calm True).Goes () w (fun _ _ _ => True) (Run.link nested a b w) := by
  have hL : (linking (S := S) (K := K) calm True).Lawful := linking_laws
  have hF : (linking (S := S) (K := K) calm False).Lawful := linking_laws
  set root := w.store.linkRoot b
  show (linking calm True).Goes () w _ ((if root = a then pure false else (do
    Run.bind nested a (.follow root)
    Run.update fun s => s.pair a root
    return true) : Told S K Bool) w)
  split
  · exact hL.ok hw trivial
  · rename_i hne
    have hbind := hF.rebind (c := a) (b := .follow root) hN hw
      fun _ => linking_rebind (show (linking calm False).holds () w from hw) nofun
    show (linking calm True).Goes () w _ (EStateM.bind (Run.bind nested a (.follow root)) _ w)
    unfold EStateM.bind
    cases hr : Run.bind nested a (.follow root) w with
    | ok u w' =>
      rw [hr] at hbind
      obtain ⟨_, hle, hw', -⟩ := hbind
      -- the root still ends its chain, as no link was made meanwhile
      have hroot : w'.store.partner? root = none :=
        (hle.2 not_false).none (hw.1.partner?_linkRoot b)
      refine ⟨(), ⟨hle.1.trans (kept_modify _ _ fun _ => rfl), fun h => absurd trivial h⟩,
        ⟨hw'.1.pair hroot hne, hw'.2.1.pair root, hw'.2.2⟩, trivial⟩
    | error stop w' =>
      rw [hr] at hbind
      obtain ⟨_, hle, hw'⟩ := hbind.2 trivial
      exact ⟨trivial, fun _ => ⟨(), ⟨hle.1, fun h => absurd trivial h⟩, hw'⟩⟩

theorem linking_runs {act : Act S K α} (hact : act.Orderly calm links)
    (hN : (linking calm links).Obeys nested)
    (hF : (linking (S := S) calm False).Obeys nested)
    (hw : (linking calm links).holds () w) :
    (linking calm links).Keeps nested () w act := by
  have hR : (linking (S := S) (K := K) calm links).Lawful := linking_laws
  induction act generalizing w with
  | pure a => exact .ret hw trivial
  | bind x f ihx ihf =>
    exact .seq (ihx hact.1 hw) fun _ _ a _ hw' _ => ihf a (hact.2 a) hw'
  | host f => exact .host hw fun hn => ⟨(), hR.refl () _, hn, trivial⟩
  | view f => exact .view hw trivial
  | record e => exact .record e hw
  | panic text => exact .panic hw trivial
  | perform c => exact .perform hN hw fun _ => hact
  | untracked body ih => exact .untracked hw (fun _ _ hw' => ih hact hw') stable_true
  | ensure body after ih =>
    exact .ensure hw (fun _ _ hw' => ih hact hw') stable_true
      fun _ w' _ hw' => ⟨hw', hR.refl () w'⟩
  | new name v =>
    refine .step rfl hw fun hn => ?_
    obtain ⟨hs, hle⟩ := linking_add { name, value := v } hn rfl nofun
    exact ⟨(), hle, hs, trivial⟩
  | newBound name c =>
    refine .step rfl hw fun hn => ?_
    obtain ⟨hs, hle⟩ := linking_add
      { name, binding := some (.code c), bindings := 1, state := .dirty } hn rfl fun code h => by
        cases h
        exact hact
    exact ⟨(), hle, hs, trivial⟩
  | newTracker name onDirty =>
    refine .step rfl hw fun hn => ?_
    obtain ⟨hs, hle⟩ := linking_add { name, tracker := true, state := .dirty } hn rfl nofun
    cases onDirty with
    | none => exact ⟨(), hle, hs, trivial⟩
    | some code =>
      obtain ⟨hs', hle'⟩ := linking_observe hs (hact code rfl)
      exact ⟨(), hR.trans hle hle', hs', trivial⟩
  | tryGet c => exact (Regime.Runs.tryGet hN hw (.inr trivial)).keeps
  | get c => exact (Regime.Runs.get hN hw (.inr trivial)).keeps
  | set c v => exact .set hN hw (.inr trivial) trivial trivial
  | setBinding c code =>
    refine .setBinding hN hw (.inr trivial) trivial fun w' _ hw' hs _ _ => ?_
    rw [← hs]
    exact linking_rebind hw' fun _ h => by
      cases h
      exact hact
  | link a b =>
    have hlinks : links = True := eq_true hact
    subst hlinks
    exact .link hw (fun _ => trivial) trivial fun hn _ => linking_link hn hF
  | drop c => exact .drop hw (fun _ => trivial) fun hc hn => linking_drop hc hn
  | observe c code =>
    exact (Regime.Runs.observe hw (fun _ => trivial) fun hn => linking_observe hn hact).mono
      fun _ _ _ _ _ _ => trivial
  | unobserve o => exact .unobserve hw fun hn => linking_unobserve hn
  | track t body ih =>
    exact (Regime.Runs.track hw (fun _ => trivial) trivial (fun _ _ hw' => ih hact hw')
      stable_true).mono fun _ _ _ _ _ _ => trivial
  | invalidate t => exact .invalidate hN hw (fun _ => trivial) trivial

end

section

variable {calm : {α : Type} → K α → Prop} {meaning : {α : Type} → K α → Act S K α}

theorem toldTo_linking (hcode : ∀ {α : Type} (c : K α), (meaning c).Orderly calm (¬calm c))
    (depth : Nat) : (linking (S := S) calm False).Obeys (Act.toldTo meaning depth) ∧
      (linking (S := S) calm True).Obeys (Act.toldTo meaning depth) := by
  induction depth with
  | zero =>
    exact ⟨⟨fun hw _ => linking_laws.error hw trivial, fun hw _ => linking_laws.error hw trivial⟩,
      ⟨fun hw _ => linking_laws.error hw trivial, fun hw _ => linking_laws.error hw trivial⟩⟩
  | succ depth ih =>
    obtain ⟨hF, hT⟩ := ih
    refine ⟨⟨fun {α c _ w} hw hc => ?_, fun hw hc => Regime.Runs.get hF hw hc⟩,
      ⟨fun {α c _ w} hw hc => ?_, fun hw hc => Regime.Runs.get hT hw hc⟩⟩
    · exact linking_runs ((hcode c).mono fun hn => hn (hc.resolve_right not_false)) hF hF hw
    · exact linking_runs ((hcode c).mono fun _ => trivial) hT hF hw

theorem toldSession_linking (hcode : ∀ {α : Type} (c : K α), (meaning c).Orderly calm (¬calm c))
    (depth : Nat) {acts : List (Act S K Unit)} (hacts : ∀ act ∈ acts, act.Orderly calm True)
    {w : Tale S K} (hw : (linking (S := S) calm True).holds () w) :
    (linking (S := S) calm True).holds () (Act.toldSession meaning depth acts w) := by
  obtain ⟨hF, hT⟩ := toldTo_linking hcode depth
  induction acts generalizing w with
  | nil => exact hw
  | cons act acts ih =>
    obtain ⟨hact, hrest⟩ := List.forall_mem_cons.mp hacts
    obtain ⟨_, hw'⟩ := (linking_runs hact hT hF hw).outcome trivial
    exact ih hrest hw'

end

/-- In every session in which bindings and observers run calm code only, and calm code makes
no links, every chain of links ends, at every moment of the session and when it is over. -/
theorem session_linksEnd (calm : {α : Type} → K α → Prop) (meaning : {α : Type} → K α → Act S K α)
    (hcode : ∀ {α : Type} (c : K α), (meaning c).Orderly calm (¬calm c)) (depth : Nat)
    (reports : Bool) (host : S) (acts : List (Act S K Unit))
    (hacts : ∀ act ∈ acts, act.Orderly calm True) :
    let told := Act.toldSession meaning depth acts ⟨{ reports }, host, []⟩
    told.untold = Act.session meaning depth acts ⟨{ reports }, host⟩ ∧
      told.store.LinksEnd ∧ ∀ m ∈ told.past, m.store.LinksEnd := by
  have hend := toldSession_linking hcode depth hacts
    (w := ⟨{ reports }, host, []⟩) ⟨linksEnd_empty reports, tended_empty reports, nofun⟩
  exact ⟨Act.untold_toldSession .., hend.1, hend.2.2⟩

/-! ## Three cells that are linked, and an observer -/

/-- Code that writes cell 2, and code that links cell 1 to cell 0. -/
inductive Tangle : Type → Type where
  | writes : Tangle Unit
  | relinks : Tangle Unit

namespace Tangle

def meaning {α : Type} : Tangle α → Act Unit Tangle α
  | .writes => .set 2 (.int 7)
  | .relinks => .bind (.link 1 0) fun _ => .pure ()

/-- Code that makes no links. -/
def Calm : {α : Type} → Tangle α → Prop
  | _, .writes => True
  | _, .relinks => False

/-- Three cells, and an observer of the first one. -/
def cells (observer : Tangle Unit) : List (Act Unit Tangle Unit) :=
  [.bind (.new "a" (.int 1)) fun _ => .pure (),
    .bind (.new "b" (.int 2)) fun _ => .pure (),
    .bind (.new "c" (.int 3)) fun _ => .pure (),
    .bind (.observe 0 observer) fun _ => .pure ()]

/-- Links from 0 to 1 and from 1 to 2, and two that would close a loop: one from 2 to 0, and
after cell 2 is gone one from 1 to 0. -/
def acts : List (Act Unit Tangle Unit) :=
  cells .writes ++
    [.bind (.link 0 1) fun _ => .pure (),
      .bind (.link 1 2) fun _ => .pure (),
      .bind (.link 2 0) fun _ => .pure (),
      .drop 2,
      .perform .relinks]

/-- The partners of the three cells when a session is over. -/
def partners (acts : List (Act Unit Tangle Unit)) : List (Option CellId) :=
  (List.range 3).map (Act.session meaning 5 acts ⟨{}, ()⟩).store.partner?

end Tangle

theorem session_linksEnd_tangle :
    (Act.session Tangle.meaning 5 Tangle.acts ⟨{}, ()⟩).store.LinksEnd ∧
      Tangle.partners (Tangle.acts.take 7) = [some 1, some 2, none] ∧
      Tangle.partners Tangle.acts = [some 1, none, none] := by
  have hcode : ∀ {α : Type} (c : Tangle α), (Tangle.meaning c).Orderly Tangle.Calm
    (¬Tangle.Calm c) := by
    intro α c
    cases c with
    | writes => trivial
    | relinks => exact ⟨not_false, fun _ => trivial⟩
  have hacts : ∀ act ∈ Tangle.acts, act.Orderly Tangle.Calm True := by
    simp [Tangle.acts, Tangle.cells, Act.Orderly, Tangle.Calm]
  have h := session_linksEnd Tangle.Calm Tangle.meaning hcode 5 false () Tangle.acts hacts
  refine ⟨?_, by decide +kernel, by decide +kernel⟩
  rw [← h.1]
  exact h.2.1

/-- The observer of cell 0 runs while cell 0 is being linked to cell 1, and links cell 1 to
cell 0. -/
theorem observer_closes_loop :
    Tangle.partners (Tangle.cells .relinks ++ [.bind (.link 0 1) fun _ => .pure ()]) =
      [some 1, some 0, none] ∧
    ¬(Act.session Tangle.meaning 5
      (Tangle.cells .relinks ++ [.bind (.link 0 1) fun _ => .pure ()])
        ⟨{}, ()⟩).store.LinksEnd := by
  refine ⟨by decide +kernel, fun h => ?_⟩
  have hroot := h.partner?_linkRoot 0
  revert hroot
  decide +kernel

end ReactiveTree
