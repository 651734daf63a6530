import ReactiveTree.Proofs.Cell.Links
import ReactiveTree.Proofs.Cell.Transparent

/-!
# Linked cells show the same

A link gives its cell a binding, which shows the root that the other cell had when the link was
made, and a partner, to which writes are passed on until the root that there is now. Where no code
runs but formulas, and nothing is observed, the two never part: in whatever order cells are linked,
bound, written and dropped, a cell reads as its link root does, and a write to one of the cells that
share a root is read at each of them (`session_mirrors`).
-/

namespace ReactiveTree

variable {S : Type} {K : Type → Type} {α : Type}
variable {act : Act S K α} {a c p : CellId} {stack : List CellId} {s : Store K} {v : Value}

/-! ## Quiet programs -/

/-- A program that makes no trackers, observes nothing, and runs no code by name. -/
def Act.Quiet : {α : Type} → Act S K α → Prop
  | _, .bind x f => x.Quiet ∧ ∀ a, (f a).Quiet
  | _, .untracked body => body.Quiet
  | _, .ensure body _ => body.Quiet
  | _, .perform _ => False
  | _, .newTracker _ _ => False
  | _, .observe _ _ => False
  | _, .track _ _ => False
  | _, .invalidate _ => False
  | _, _ => True

namespace Act

theorem Formula.quiet (h : act.Formula) : act.Quiet := by
  induction h with
  | pure a => trivial
  | bind _ _ ihx ihf => exact ⟨ihx, ihf⟩
  | get c => trivial

theorem Formula.orderly {calm : {α : Type} → K α → Prop} {links : Prop}
    (h : act.Formula) : act.Orderly calm links := by
  induction h with
  | pure a => trivial
  | bind _ _ ihx ihf => exact ⟨ihx, ihf⟩
  | get c => trivial

theorem Formula.trackerless (h : act.Formula) : act.Trackerless := by
  induction h with
  | pure a => trivial
  | bind _ _ ihx ihf => exact ⟨ihx, ihf⟩
  | get c => trivial

theorem Quiet.trackerless (h : act.Quiet) : act.Trackerless := by
  induction act with
  | bind x f ihx ihf => exact ⟨ihx h.1, fun a => ihf a (h.2 a)⟩
  | untracked body ih => exact ih h
  | ensure body after ih => exact ih h
  | newTracker => exact h
  | _ => trivial

/-- Every piece of code may be called calm where none makes links. -/
theorem Quiet.orderly (h : act.Quiet) : act.Orderly (K := K) (fun {_} _ => True) True := by
  induction act with
  | bind x f ihx ihf => exact ⟨ihx h.1, fun a => ihf a (h.2 a)⟩
  | untracked body ih => exact ih h
  | ensure body after ih => exact ih h
  | perform | newTracker | observe | track => exact h.elim
  | _ => trivial

end Act

/-! ## Where nobody is told -/

theorem Store.observers_written (s : Store K) (root : CellId) (v : Value) :
    (s.written root v).observers = s.observers := by
  have hdetach : (if (s.cell root).binding.isSome then s.detach root else s).observers =
      s.observers := by
    split <;> rfl
  unfold Store.written
  generalize (if (s.cell root).binding.isSome then s.detach root else s) = t at hdetach ⊢
  simp only
  split
  · exact hdetach
  · exact (Store.akin_invalidate ..).observers.trans hdetach

namespace Run

variable {nested : Nested S K} {w : World S K}

theorem fire_quiet (hw : w.store.observers = #[]) (observers : List ObserverId) :
    fire nested observers w = .ok () w := by
  induction observers with
  | nil => rfl
  | cons o rest ih =>
    rw [fire_cons, hw]
    exact ih

theorem notify_quiet (hw : w.store.observers = #[]) (cells : List CellId) :
    notify nested cells w = .ok () w := by
  induction cells with
  | nil => rfl
  | cons c rest ih =>
    show (if (w.store.cell c).dropped = true then (do pure (); notify nested rest)
      else (do fire nested (w.store.cell c).observers; notify nested rest) : Run S K Unit) w = _
    split
    · exact ih
    · show EStateM.bind (fire nested (w.store.cell c).observers) _ w = _
      unfold EStateM.bind
      rw [fire_quiet hw]
      exact ih

theorem set_quiet (hw : w.store.observers = #[]) (v : Value)
    (hd : (w.store.cell c).dropped = false) :
    set nested c v w = .ok () (w.withStore (w.store.written (w.store.linkRoot c) v)) := by
  have hobs : (w.store.written (w.store.linkRoot c) v).observers = #[] :=
    (Store.observers_written ..).trans hw
  rcases Told.set_eq nested v hd with h | ⟨cells, h⟩
  · exact h
  · rw [h, notify_quiet hobs]
    rfl

end Run

def Store.linked (s : Store K) (a root : CellId) : Store K :=
  (if (s.cell a).dropped then s else (s.rebind a (.follow root)).upset a).modify a fun cell =>
    { cell with partner := some root }

theorem Run.link_quiet {nested : Nested S K} {w : World S K} (hw : w.store.observers = #[])
    (a b : CellId) : link nested a b w = if w.store.linkRoot b = a then .ok false w
      else .ok true (w.withStore (w.store.linked a (w.store.linkRoot b))) := by
  generalize hroot : w.store.linkRoot b = root
  show (if w.store.linkRoot b = a then pure false else (do
    bind nested a (.follow (w.store.linkRoot b))
    update fun s => s.pair a (w.store.linkRoot b)
    return true) : Run S K Bool) w = _
  rw [hroot]
  split
  · rfl
  · have hbind : bind nested a (.follow root) w = .ok () (w.withStore
        (if (w.store.cell a).dropped then w.store else (w.store.rebind a (.follow root)).upset
          a)) := by
      show (if (w.store.cell a).dropped = true then pure () else (do
        update fun s => s.rebind a (.follow root)
        disturb nested a) : Run S K Unit) w = _
      split
      · rfl
      · rcases Told.disturb_eq nested a ⟨w.store.rebind a (.follow root),
          w.host⟩ with h | ⟨cells, h⟩
        · exact h
        · refine h.trans (notify_quiet ?_ cells)
          rw [(Store.akin_upset ..).observers]
          exact hw
    show EStateM.bind (bind nested a (.follow root)) _ w = _
    unfold EStateM.bind
    rw [hbind]
    rfl

section

variable {meaning : {α : Type} → K α → Act S K α} {s : Store K} (hs : s.observers = #[]) (host : S)
  (depth : Nat)
include hs

theorem runTo_set_quiet (v : Value) (hc : s.IsProperty c) (hd : (s.cell c).dropped = false) :
    (Act.set c v).runTo meaning depth ⟨s, host⟩ = .ok () ⟨s.written (s.linkRoot c) v, host⟩ :=
  (Run.onProperty_eq ..).trans ((if_pos hc).trans (Run.set_quiet hs v hd))

theorem runTo_link_quiet {b : CellId} (ha : s.IsProperty a) (hb : s.IsProperty b) :
    (Act.link a b).runTo meaning depth ⟨s, host⟩ = if s.linkRoot b = a then .ok false ⟨s, host⟩
      else .ok true ⟨s.linked a (s.linkRoot b), host⟩ :=
  (Run.onProperty_eq ..).trans ((if_pos ha).trans ((Run.onProperty_eq ..).trans ((if_pos hb).trans
    (Run.link_quiet hs a b))))

end

open Store Regime

/-! ## Partners and bindings agree -/

/-- A linked cell is bound to its partner. -/
def Store.Mirrored (s : Store K) : Prop :=
  ∀ c r, (s.cell c).dropped = false → (s.cell c).partner = some r →
    (s.cell c).binding = some (.follow r)

/-- Nothing is observed, and linked cells are bound to their partners. -/
def mirroring : Regime S K Unit where
  holds _ w := w.store.observers = #[] ∧ w.store.Mirrored
  le _ w _ w' := Kept w.store w'.store
  admits _ _ _ := True
  returns _ _ _ _ := True
  fits _ _ _ _ := True
  stops _ := True

theorem Store.Mirrored.of_cells {t : Store K} (h : s.Mirrored)
    (hd : ∀ c, (t.cell c).dropped = false → (s.cell c).dropped = false)
    (hb : ∀ c, (t.cell c).dropped = false → (t.cell c).partner = none ∨
      (t.cell c).binding = (s.cell c).binding ∧ (t.cell c).partner = (s.cell c).partner) :
    t.Mirrored := by
  intro c r hlive hp
  rcases hb c hlive with hnone | ⟨hbind, hpart⟩
  · rw [hnone] at hp
    cases hp
  · rw [hbind]
    exact h c r (hd c hlive) (hpart ▸ hp)

instance mirroring_laws : (mirroring (S := S) (K := K)).Lawful where
  refl _ _ := .refl _
  trans h h' := h.trans h'
  kept h := h
  note _ _ hw := ⟨hw, .refl _⟩
  akin hw hk := ⟨⟨hk.observers.trans hw.1, hw.2.of_cells (fun c hc => (hk.dropped c).symm.trans hc)
    fun c _ => .inr ⟨hk.binding c, hk.partner c⟩⟩, hk.kept⟩
  amend hw ha _ _ := ⟨⟨ha.observers.trans hw.1,
    hw.2.of_cells (fun c hc => (ha.dropped_all c).symm.trans hc)
      fun c _ => (ha.detached_all c).imp And.right id⟩, .of_size ha.size ha.tracker_all⟩
  code _ _ := ⟨trivial, fun _ _ => trivial⟩
  observer _ _ := trivial

variable {nested : Nested (S × Chronicle K) K} {w : Tale S K}

theorem mirrored_add (h : s.Mirrored) {cell : Cell K} (hp : cell.partner = none) :
    (s.add cell).2.Mirrored := by
  intro c r hlive hpart
  rw [cell_add] at hlive hpart ⊢
  split at hpart
  · rw [hp] at hpart
    cases hpart
  · rename_i hc
    rw [if_neg hc] at hlive ⊢
    exact h c r hlive hpart

theorem mirrored_drop (h : s.Mirrored) (hc : c < s.cells.size) : (s.drop c).Mirrored := by
  have hcell := content_drop hc
  refine h.of_cells (fun d hd => ?_) fun d hd => ?_
  · have h := congrArg Content.dropped (hcell d)
    split at h
    · rw [show ((s.drop c).cell d).dropped = true from h] at hd
      cases hd
    · exact h.symm.trans hd
  · have h := hcell d
    split at h
    · exact .inl (congrArg Content.partner h)
    · exact .inr ⟨congrArg Content.binding h, congrArg Content.partner h⟩

theorem mirrored_rebind (h : s.Mirrored) (c : CellId) (b : Binding K) :
    (s.rebind c b).Mirrored := by
  refine h.of_cells (fun d hd => ?_) fun d _ => ?_
  · exact (proj_modify Cell.dropped (fun _ => by rfl) s c d).symm.trans hd
  · rw [rebind, cell_modify]
    split
    · exact .inl rfl
    · exact .inr ⟨rfl, rfl⟩

theorem mirrored_linked (h : s.Mirrored) (ha : a < s.cells.size)
    (root : CellId) : (s.linked a root).Mirrored := by
  unfold linked
  split
  · rename_i hd
    intro c r hlive hpart
    by_cases hc : c = a
    · subst hc
      rw [cell_modify_self ha] at hlive
      rw [hd] at hlive
      cases hlive
    · rw [cell_modify_ne hc] at hlive hpart ⊢
      exact h c r hlive hpart
  · have hk := (s.rebind a (.follow root)).akin_upset a
    have hsize : a < ((s.rebind a (.follow root)).upset a).cells.size := by
      rw [hk.size, rebind, size_modify]
      exact ha
    intro c r hlive hpart
    by_cases hc : c = a
    · subst hc
      rw [cell_modify_self hsize] at hpart ⊢
      cases hpart
      rw [show Cell.binding
        { (((s.rebind c (.follow root)).upset c).cell c) with partner := some root } =
        (((s.rebind c (.follow root)).upset c).cell c).binding from rfl, hk.binding, rebind,
          cell_modify_self ha]
    · rw [cell_modify_ne hc] at hlive hpart ⊢
      rw [hk.dropped, rebind, cell_modify_ne hc] at hlive
      rw [hk.partner, rebind, cell_modify_ne hc] at hpart
      rw [hk.binding, rebind, cell_modify_ne hc]
      exact h c r hlive hpart

theorem kept_linked (s : Store K) (a root : CellId) : Kept s (s.linked a root) := by
  unfold linked
  split
  · exact kept_modify _ _ fun _ => rfl
  · have hk := (s.rebind a (.follow root)).akin_upset a
    exact ((s.kept_rebind a _).trans hk.kept).trans (kept_modify _ _ fun _ => rfl)

theorem observers_linked (s : Store K) (a root : CellId) :
    (s.linked a root).observers = s.observers := by
  unfold linked
  split
  · rfl
  · exact ((s.rebind a (.follow root)).akin_upset a).observers

theorem mirroring_runs (hact : act.Quiet) (hN : mirroring.Obeys nested)
    (hw : mirroring.holds () w) :
    mirroring.Keeps nested () w act := by
  have hR := mirroring_laws (S := S) (K := K)
  induction act generalizing w with
  | pure a => exact .ret hw trivial
  | bind x f ihx ihf =>
    exact .seq (ihx hact.1 hw) fun _ _ a _ hw' _ => ihf a (hact.2 a) hw'
  | host f => exact .host hw fun hn => ⟨(), hR.refl () _, hn, trivial⟩
  | view f => exact .view hw trivial
  | record e => exact .record e hw
  | panic text => exact .panic hw trivial
  | untracked body ih => exact .untracked hw (fun _ _ hw' => ih hact hw') stable_true
  | ensure body after ih =>
    exact .ensure hw (fun _ _ hw' => ih hact hw') stable_true
      fun _ w' _ hw' => ⟨hw', hR.refl () w'⟩
  | new name v =>
    exact .step rfl hw fun hn => ⟨(), kept_add .., ⟨hn.1, mirrored_add hn.2 rfl⟩, trivial⟩
  | newBound name c =>
    exact .step rfl hw fun hn => ⟨(), kept_add .., ⟨hn.1, mirrored_add hn.2 rfl⟩, trivial⟩
  | tryGet c => exact (Regime.Runs.tryGet hN hw (.inr trivial)).keeps
  | get c => exact (Regime.Runs.get hN hw (.inr trivial)).keeps
  | set c v => exact .set hN hw (.inr trivial) trivial trivial
  | setBinding c code =>
    refine .setBinding hN hw (.inr trivial) trivial fun w' _ hw' hs _ _ => ?_
    rw [← hs]
    exact ⟨⟨hw'.1, mirrored_rebind hw'.2 c _⟩, kept_rebind ..⟩
  | link a b =>
    refine .link hw (fun _ => trivial) trivial fun hn' ha => ?_
    rw [Run.link_quiet hn'.1]
    split
    · exact hR.ok hn' trivial
    · exact ⟨(), kept_linked .., ⟨(observers_linked ..).trans hn'.1, mirrored_linked hn'.2 ha.1 _⟩,
        trivial⟩
  | drop c =>
    exact .drop hw (fun _ => trivial) fun hc hn =>
      ⟨⟨(observers_drop ..).trans hn.1, mirrored_drop hn.2 hc⟩, kept_drop hc⟩
  | unobserve o =>
    refine .unobserve hw fun hn => ?_
    have hno : w.store.unobserve o = w.store := by
      unfold Store.unobserve
      rw [show w.store.observers = #[] from hn.1]
      rfl
    rw [hno]
    exact ⟨hn, .refl _⟩
  | perform | newTracker | observe | track | invalidate => exact hact.elim

theorem toldSession_mirroring {meaning : {α : Type} → K α → Act S K α}
    (hformula : ∀ {α : Type} (code : K α), (meaning code).Formula) (depth : Nat)
    {acts : List (Act S K Unit)} (hacts : ∀ act ∈ acts, act.Quiet)
    (hw : mirroring.holds () w) :
    (mirroring (S := S) (K := K)).holds () (Act.toldSession meaning depth acts w) := by
  have hN : mirroring.Obeys (Act.toldTo meaning depth) :=
    mirroring_laws.toldTo_obeys
      (fun hN _ c _ _ hw _ => mirroring_runs (hformula c).quiet hN hw) depth
  induction acts generalizing w with
  | nil => exact hw
  | cons act acts ih =>
    obtain ⟨hact, hrest⟩ := List.forall_mem_cons.mp hacts
    obtain ⟨_, hw'⟩ := (mirroring_runs hact hN hw).outcome trivial
    exact ih hrest hw'

/-! ## Computing along a chain -/

section

variable {meaning : {α : Type} → K α → Act S K α} {s : Store K}

theorem Act.consult_mono {ask ask' : CellId → Except Obstacle Value}
    (h : ∀ c v, ask c = .ok v → ask' c = .ok v) {a : α}
    (ha : act.consult ask = .ok a) : act.consult ask' = .ok a := by
  induction act with
  | pure b => exact ha
  | bind x f ihx ihf =>
    simp only [consult] at ha ⊢
    cases hx : x.consult ask with
    | ok b =>
      rw [hx] at ha
      rw [ihx hx]
      exact ihf b ha
    | error o =>
      rw [hx] at ha
      cases ha
  | get c => exact h c a ha
  | _ => cases ha

/-- A computation that succeeds does so as well where fewer cells are being computed. -/
theorem recompute_mono {stack' : List CellId} (hsub : stack' ⊆ stack)
    (h : s.recompute meaning stack c = .ok v) : s.recompute meaning stack' c = .ok v := by
  -- on the number of cells that the first computation has not come to
  generalize hn : s.ahead stack = n
  induction n using Nat.strong_induction_on generalizing stack stack' c v with
  | _ n ih =>
    by_cases hc : s.IsProperty c
    · by_cases hmem : c ∈ stack
      · rw [recompute_reentered hc hmem] at h
        cases h
      · have hmem' : c ∉ stack' := fun hin => hmem (hsub hin)
        cases hr : (s.cell c).rule with
        | none =>
          rw [recompute_stored hc hmem hr] at h
          rwa [recompute_stored hc hmem' hr]
        | some b =>
          rw [recompute_bound hc hmem hr] at h
          rw [recompute_bound hc hmem' hr]
          have hlt : s.ahead (c :: stack) < n := hn ▸ ahead_cons_lt hc.1 hmem
          exact Act.consult_mono (fun x u hx =>
            ih _ hlt (List.cons_subset_cons c hsub) hx rfl) h
    · rw [recompute_unknown hc] at h
      cases h

theorem Store.Mirrored.rule (h : s.Mirrored) (hd : (s.cell c).dropped = false)
    (hp : s.partner? c = some p) : (s.cell c).rule = some (.follow p) := by
  rw [Cell.rule_of_not_dropped hd]
  exact h c p hd (partner?_eq_some hp).1

/-- The root of a chain has the value that is computed for the cells on the chain. -/
theorem Store.Mirrored.recompute_root (h : s.Mirrored) {n : Nat} (hn : s.Ends n c)
    (hd : (s.cell c).dropped = false)
    (hv : s.recompute meaning stack c = .ok v) : s.recompute meaning [] (s.follow n c) = .ok v := by
  induction n generalizing c stack with
  | zero => exact recompute_mono (List.nil_subset _) hv
  | succ n ih =>
    obtain ⟨p, hp, hn⟩ := hn
    have hprop : s.IsProperty c := by
      by_contra hc
      rw [recompute_unknown hc] at hv
      cases hv
    have hmem : c ∉ stack := fun hc => by
      rw [recompute_reentered hprop hc] at hv
      cases hv
    rw [recompute_bound hprop hmem (h.rule hd hp)] at hv
    simp only [Store.follow, hp]
    exact ih hn (partner?_eq_some hp).2 hv

/-- The cells on a chain have the value of a root that stores one. `t` is a store in which the
chain is as in `s`. -/
theorem recompute_chain {t : Store K} {n : Nat} (hn : s.Ends n c)
    (hprop : ∀ d, t.IsProperty d ↔ s.IsProperty d) (hc : s.IsProperty c)
    (hlive : (s.cell c).dropped = false)
    (hlink : ∀ d p, (s.cell d).dropped = false → s.partner? d = some p →
      s.IsProperty p ∧ (t.cell d).rule = some (.follow p))
    (hroot : (t.cell (s.follow n c)).rule = none) (hstack : ∀ d ∈ stack, ∃ m, n < m ∧ s.Ends m d) :
    t.recompute meaning stack c = .ok (t.cell (s.follow n c)).value := by
  induction n generalizing c stack with
  | zero =>
    have hmem : c ∉ stack := fun hmem => by
      obtain ⟨m, hlt, hm⟩ := hstack c hmem
      rw [← hn.unique hm] at hlt
      exact Nat.lt_irrefl _ hlt
    exact recompute_stored ((hprop c).mpr hc) hmem hroot
  | succ n ih =>
    have hmem : c ∉ stack := fun hmem => by
      obtain ⟨m, hlt, hm⟩ := hstack c hmem
      rw [← hn.unique hm] at hlt
      exact Nat.lt_irrefl _ hlt
    have hc' := hn
    obtain ⟨p, hp, hn⟩ := hn
    obtain ⟨hpp, hrule⟩ := hlink c p hlive hp
    have hfollow : s.follow (n + 1) c = s.follow n p := by simp only [Store.follow, hp]
    rw [hfollow] at hroot ⊢
    rw [recompute_bound ((hprop c).mpr hc) hmem hrule]
    refine ih hn hpp (partner?_eq_some hp).2 hroot fun d hd => ?_
    rcases List.mem_cons.mp hd with rfl | hd
    · exact ⟨n + 1, Nat.lt_succ_self n, hc'⟩
    · obtain ⟨m, hlt, hm⟩ := hstack d hd
      exact ⟨m, Nat.lt_of_succ_lt hlt, hm⟩

end

/-! ## The theorem -/

/-- The value that a cell which stores `old` stores after a write of `v`. -/
def Value.overwrite (old v : Value) : Value := if old.same v then old else v

/-- What links promise, in a store where nothing is being evaluated. -/
structure Store.Mirrors (meaning : {α : Type} → K α → Act S K α) (s : Store K) : Prop where
  /-- A link root is a live cell that is not linked. -/
  root : ∀ p, s.IsProperty p → (s.cell p).dropped = false → s.IsProperty (s.linkRoot p) ∧
    (s.cell (s.linkRoot p)).dropped = false ∧ s.linkRoot (s.linkRoot p) = s.linkRoot p
  /-- A cell reads as its link root. -/
  read : ∀ (host : S) (depth : Nat) (p : CellId), s.cells.size ≤ depth →
    (s.cell p).dropped = false → ∀ v w,
      (Act.tryGet p).runTo meaning depth ⟨s, host⟩ = .ok (v, none) w →
      ∃ w', (Act.tryGet (s.linkRoot p)).runTo meaning depth ⟨s, host⟩ = .ok (v, none) w'
  /-- A write is read at every cell with the same root. -/
  write : ∀ (host : S) (depth : Nat) (p : CellId) (v : Value), s.IsProperty p →
    (s.cell p).dropped = false →
      ∃ w, (Act.set p v).runTo meaning depth ⟨s, host⟩ = .ok () w ∧
        ∀ q, s.IsProperty q → (s.cell q).dropped = false → s.linkRoot q = s.linkRoot p →
          w.store.linkRoot q = s.linkRoot p ∧
          ∀ (host : S) (depth : Nat), s.cells.size ≤ depth →
            ∃ w', (Act.tryGet q).runTo meaning depth ⟨w.store, host⟩ =
              .ok ((s.cell (s.linkRoot p)).value.overwrite v, none) w'
  /-- A link is refused, and then changes nothing, exactly if it leads to the cell itself. -/
  link : ∀ (host : S) (depth : Nat) (a b : CellId), s.IsProperty a → s.IsProperty b →
    ∃ linked w, (Act.link a b).runTo meaning depth ⟨s, host⟩ = .ok linked w ∧
      (linked = false ↔ s.linkRoot b = a) ∧ (linked = false → w = ⟨s, host⟩)

theorem follow_of_root (h : s.partner? c = none) (limit : Nat) : s.follow limit c = c := by
  cases limit with
  | zero => rfl
  | succ limit => simp only [Store.follow, h]

section

variable {meaning : {α : Type} → K α → Act S K α}

theorem read_mirrors (hrest : AtRest meaning w)
    (hformula : ∀ code : K Value, (meaning code).Formula) (hends : w.store.LinksEnd)
    (hmir : w.store.Mirrored) (host : S) {depth : Nat} (hdepth : w.store.cells.size ≤ depth)
    (hd : (w.store.cell p).dropped = false) {w' : World S K}
    (h : (Act.tryGet p).runTo meaning depth ⟨w.store, host⟩ = .ok (v, none) w') :
    ∃ w', (Act.tryGet (w.store.linkRoot p)).runTo meaning depth ⟨w.store, host⟩ = .ok
      (v, none) w' := by
  have htruth := hrest.faithful.truthful hformula hrest.rest
  have hp := htruth host depth p hdepth
  have hr := htruth host depth (w.store.linkRoot p) hdepth
  -- the read of `p` was a computation that succeeded
  have hv : w.store.recompute meaning [] p = .ok v := by
    cases hc : w.store.recompute meaning [] p with
    | ok u =>
      rw [hc] at hp
      obtain ⟨u', hu⟩ := hp
      rw [hu] at h
      cases h
      rfl
    | error o =>
      rw [hc] at hp
      cases o with
      | reentered d =>
        obtain ⟨_, _, _, hu⟩ := hp
        rw [hu] at h
        cases h
      | unknown d =>
        obtain ⟨_, hu⟩ := hp
        rw [hu] at h
        cases h
      | effect => exact hp.elim
  obtain ⟨n, -, hn, hroot⟩ := hends p
  rw [hroot] at hr ⊢
  rw [hmir.recompute_root hn hd hv] at hr
  exact hr

theorem write_mirrors (hrest : AtRest meaning w)
    (hformula : ∀ code : K Value, (meaning code).Formula) (hends : w.store.LinksEnd)
    (hmir : w.store.Mirrored) (hobs : w.store.observers = #[]) (host : S) (depth : Nat) (v : Value)
    (hp : w.store.IsProperty p) (hd : (w.store.cell p).dropped = false) :
    ∃ w', (Act.set p v).runTo meaning depth ⟨w.store, host⟩ = .ok () w' ∧
      ∀ q, w.store.IsProperty q → (w.store.cell q).dropped = false →
        w.store.linkRoot q = w.store.linkRoot p → w'.store.linkRoot q = w.store.linkRoot p ∧
        ∀ (host : S) (depth : Nat), w.store.cells.size ≤ depth →
          ∃ w'', (Act.tryGet q).runTo meaning depth ⟨w'.store, host⟩ =
            .ok ((w.store.cell (w.store.linkRoot p)).value.overwrite v, none) w'' := by
  have hs := hrest.faithful.coherence.sane
  have hroot := hs.isProperty_linkRoot hp
  have hlive := dropped_linkRoot hd
  obtain ⟨hr, hb, hpart, hval⟩ := ripple_written hs.arena hroot.1 v
  set root := w.store.linkRoot p with hroot'
  set t := w.store.written root v
  have hset : (Act.set p v).runTo meaning depth ⟨w.store, host⟩ = .ok () ⟨t, host⟩ :=
    runTo_set_quiet hobs host depth v hp hd
  -- only the root has changed in what a chain is made of
  have hother : ∀ d, d ≠ root → (t.cell d).partner = (w.store.cell d).partner ∧
      (t.cell d).rule = (w.store.cell d).rule := fun d hne => by
    rcases hr.other d hne with h | ⟨-, h⟩
    · rw [h]
      exact ⟨rfl, rfl⟩
    · rw [h]
      simp [Cell.rule, Cell.clear]
  have hrootend : w.store.partner? root = none := hends.partner?_linkRoot p
  have hpartner : ∀ d, t.partner? d = w.store.partner? d := fun d => by
    by_cases hne : d = root
    · rw [hne, hrootend]
      rcases hpart with h | h
      · simp only [partner?, h]
      · rw [← hrootend]
        simp only [partner?, h, (hr.alike _).dropped]
    · simp only [partner?, (hother d hne).1, (hr.alike _).dropped]
  have hfollow : ∀ limit d, t.follow limit d = w.store.follow limit d := fun limit => by
    induction limit with
    | zero => exact fun _ => rfl
    | succ limit ih =>
      intro d
      simp only [Store.follow, hpartner]
      cases w.store.partner? d with
      | none => rfl
      | some q => exact ih q
  have hrest' : AtRest meaning ⟨t, w.host⟩ :=
    hrest.ripple (hs.written hroot v) hr hlive (.inr hb)
  refine ⟨⟨t, host⟩, hset, fun q hq hqd hqroot => ⟨?_, fun host' depth' hdepth => ?_⟩⟩
  · rw [← hqroot]
    show t.follow t.cells.size q = w.store.follow w.store.cells.size q
    rw [hr.around.size, hfollow]
  · obtain ⟨n, -, hn, hfol⟩ := hends q
    have hqn : w.store.follow n q = root := hfol.symm.trans hqroot
    have hrec : t.recompute meaning [] q = .ok (t.cell (w.store.follow n q)).value := by
      refine recompute_chain hn (fun d => ?_) hq hqd (fun d r hdd hdr => ?_) ?_ (by simp)
      · rw [IsProperty, IsProperty, hr.around.size, (hr.alike d).tracker]
      · have hne : d ≠ root := fun hne => by
          rw [hne, hrootend] at hdr
          cases hdr
        refine ⟨hs.partners d r (partner?_eq_some hdr).1, ?_⟩
        rw [(hother d hne).2]
        exact hmir.rule hdd hdr
      · rw [hqn, Cell.rule, hb, ite_self]
    have htruth := (hrest'.faithful.truthful hformula hrest'.rest) host' depth' q
      (hr.around.size.le.trans hdepth)
    rw [show (World.store (⟨t, w.host⟩ : Tale S K)).recompute meaning [] q = _ from hrec, hqn, hval]
      at htruth
    exact htruth

theorem link_mirrors (hs : s.observers = #[]) (host : S) (depth : Nat) {b : CellId}
    (ha : s.IsProperty a) (hb : s.IsProperty b) :
    ∃ linked w, (Act.link a b).runTo meaning depth ⟨s, host⟩ = .ok linked w ∧
      (linked = false ↔ s.linkRoot b = a) ∧ (linked = false → w = ⟨s, host⟩) := by
  rw [runTo_link_quiet hs host depth ha hb]
  by_cases hroot : s.linkRoot b = a
  · exact ⟨false, ⟨s, host⟩, if_pos hroot, ⟨fun _ => hroot, fun _ => rfl⟩, fun _ => rfl⟩
  · exact ⟨true, _, if_neg hroot, ⟨nofun, fun h => absurd h hroot⟩, nofun⟩

end

/-- In every session of quiet programs, where all code is formulas, links keep their promises
whenever a program is over. -/
theorem session_mirrors (meaning : {α : Type} → K α → Act S K α)
    (hformula : ∀ {α : Type} (code : K α), (meaning code).Formula) (depth : Nat) (reports : Bool)
    (host : S) (acts : List (Act S K Unit)) (hacts : ∀ act ∈ acts, act.Quiet) :
    (Act.session meaning depth acts ⟨{ reports }, host⟩).store.Mirrors meaning := by
  set told := Act.toldSession meaning depth acts ⟨{ reports }, host, []⟩ with htold
  have huntold : told.untold = Act.session meaning depth acts ⟨{ reports }, host⟩ :=
    Act.untold_toldSession ..
  have hrest : AtRest meaning told := toldSession_rests (fun code => hformula code)
    (fun code => (hformula code).trackerless) depth (fun act hact => (hacts act hact).trackerless)
    (atRest_start meaning reports host)
  have hlinks : (linking (S := S) (K := K) (fun {_} _ => True) True).holds () told :=
    toldSession_linking (fun c => (hformula c).orderly) depth
      (fun act hact => (hacts act hact).orderly)
      (w := ⟨{ reports }, host, []⟩) ⟨linksEnd_empty reports, tended_empty reports, nofun⟩
  have hends : told.store.LinksEnd := hlinks.1
  obtain ⟨hobs, hmir⟩ := toldSession_mirroring hformula depth hacts (w := ⟨{ reports }, host, []⟩)
    ⟨rfl, fun c r _ hp => by
      rw [cell_of_size_le (Nat.zero_le _)] at hp
      cases hp⟩
  have hs := hrest.faithful.coherence.sane
  rw [← huntold]
  constructor
  · intro p hp hd
    refine ⟨hs.isProperty_linkRoot hp, dropped_linkRoot hd, ?_⟩
    exact follow_of_root (hends.partner?_linkRoot p) _
  · intro host' depth' p hdepth hd v w' h
    exact read_mirrors hrest (fun code => hformula code) hends hmir host' hdepth hd h
  · intro host' depth' p v hp hd
    exact write_mirrors hrest (fun code => hformula code) hends hmir hobs host' depth' v hp hd
  · intro host' depth' a b ha hb
    exact link_mirrors hobs host' depth' ha hb

/-! ## A chain of three cells, and one that is computed from its end -/

/-- The code of a binding that reads cell 0. -/
inductive Echo : Type → Type where
  | first : Echo Value

namespace Echo

def meaning {α : Type} : Echo α → Act Unit Echo α
  | .first => .get 0

/-- Cell 0 mirrors cell 1, which then mirrors cell 2. Cell 3 shows cell 0. -/
def acts : List (Act Unit Echo Unit) :=
  [.bind (.new "a" (.int 1)) fun _ => .pure (),
    .bind (.new "b" (.int 2)) fun _ => .pure (),
    .bind (.new "c" (.int 3)) fun _ => .pure (),
    .bind (.newBound "d" .first) fun _ => .pure (),
    .bind (.link 0 1) fun _ => .pure (),
    .bind (.link 1 2) fun _ => .pure ()]

/-- The integer that a read of cell `c` returns without an error when a session is over. -/
def answer (acts : List (Act Unit Echo Unit)) (c : CellId) : Option Int64 :=
  match (Act.tryGet c).runTo meaning 5 (Act.session meaning 5 acts ⟨{}, ()⟩) with
  | .ok (.int n, none) _ => some n
  | _ => none

end Echo

theorem session_mirrors_echo :
    (Act.session Echo.meaning 5 Echo.acts ⟨{}, ()⟩).store.Mirrors Echo.meaning ∧
      (List.range 4).map (Echo.answer Echo.acts) = [some 3, some 3, some 3, some 3] ∧
      (List.range 4).map (Echo.answer (Echo.acts ++ [.set 0 (.int 9)])) =
        [some 9, some 9, some 9, some 9] := by
  have hformula : ∀ {α : Type} (code : Echo α), (Echo.meaning code).Formula := by
    intro α code
    cases code
    exact .get 0
  have hacts : ∀ act ∈ Echo.acts, act.Quiet := by
    simp [Echo.acts, Act.Quiet]
  exact ⟨session_mirrors Echo.meaning hformula 5 false () Echo.acts hacts, by decide +kernel,
    by decide +kernel⟩

/-- Cell 1 mirrors cell 0, which holds the positive zero; the negative one is written to it. -/
def Echo.zeros : List (Act Unit Echo Unit) :=
  [.bind (.new "a" (.float 0)) fun _ => .pure (),
    .bind (.new "b" (.float 5)) fun _ => .pure (),
    .bind (.link 1 0) fun _ => .pure (),
    .set 1 (.float (-0))]

/-- The bits of the float that a read of cell `c` returns after these programs. -/
def Echo.bits (c : CellId) : Option UInt64 :=
  match (Act.tryGet c).runTo meaning 5 (Act.session meaning 5 zeros ⟨{}, ()⟩) with
  | .ok (.float x, none) _ => some x.toBits
  | _ => none

/-- A write of the other zero is no change, and is not read. -/
theorem other_zero_not_read :
    (List.range 2).map Echo.bits = [some (0 : Float).toBits, some (0 : Float).toBits] ∧
      (0 : Float).toBits ≠ (-0 : Float).toBits := by
  decide +kernel

end ReactiveTree
