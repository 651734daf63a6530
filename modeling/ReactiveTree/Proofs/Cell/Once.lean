import ReactiveTree.Proofs.Cell.Answered

/-!
# Every cell is evaluated once

Where bindings only read, a read from outside, or the work of a tracker, evaluates no cell twice
and no clean cell, whatever depends on what and however the call ends. After a read that did not
fail the same read evaluates nothing (`session_frugal`).
-/

namespace ReactiveTree

variable {S : Type} {K : Type → Type} {α : Type}

open Store Told

variable {act : Act S K α} {c p : CellId} {past : Chronicle K} {k k' : Stage K} {s : Store K}
  {meaning : {α : Type} → K α → Act S K α} {nested : Nested (S × Chronicle K) K} {w w' : Tale S K}

/-! ## Counting evaluations -/

/-- The cells whose evaluation began, the latest first. -/
def Chronicle.begun (past : Chronicle K) : List CellId :=
  past.filterMap fun m =>
    match m.event with
    | .began c => some c
    | _ => none

theorem Chronicle.fate_of_mem_begun (h : c ∈ past.begun) : past.fate c ≠ .idle := by
  induction past with
  | nil => cases h
  | cons m past ih =>
    obtain ⟨e, s⟩ := m
    cases e with
    | began d =>
      rw [fate_began]
      split
      · nofun
      · rename_i hne
        exact ih ((List.mem_cons.mp h).resolve_left (Ne.symm hne))
    | ended d completed =>
      rw [fate_ended]
      split
      · split <;> nofun
      · exact ih h
    | _ => exact ih h

theorem Chronicle.begun_subset {past' : Chronicle K} (h : past <:+ past') :
    past.begun ⊆ past'.begun := (h.sublist.filterMap _).subset

theorem Store.evaluations_track (s : Store K) (c : CellId) :
    (s.track c).evaluations = s.evaluations := by
  unfold track
  repeat' split
  all_goals rfl

theorem Store.evaluations_enter (s : Store K) (c : CellId) :
    (s.enter c).evaluations = s.evaluations + 1 := by
  unfold enter takeSlot
  repeat' split
  all_goals rfl

/-- A step begins one evaluation at most. A property is dirty when its evaluation begins. -/
theorem Step.begun (step : Step k k') (hs : k.store.Sane) (hquiet : k'.past.Writeless) :
    k'.past.begun = k.past.begun ∧ k'.store.evaluations = k.store.evaluations ∨
      ∃ c, k'.past.begun = c :: k.past.begun ∧ k'.store.evaluations = k.store.evaluations + 1 ∧
        k.stop = none ∧ c ∉ k.store.consumers ∧
        ((k.store.cell c).state = .dirty ∨ (k.store.cell c).tracker = true) := by
  cases step with
  | beginRead hc hd hst hb =>
    exact .inr ⟨_, rfl, (evaluations_enter ..).trans (congrArg _ (evaluations_track ..)), rfl,
      hs.not_mem_consumers hd (by simp [hst]), .inl hst⟩
  | beginWork ht hd hst =>
    exact .inr ⟨_, rfl, evaluations_enter .., rfl, hs.not_mem_consumers hd hst, .inr ht.2⟩
  | readClean | refuseRead => exact .inl ⟨rfl, evaluations_track ..⟩
  | readUnbound hc hd hst hb ht =>
    subst ht
    exact .inl ⟨rfl, evaluations_track ..⟩
  | finishRead bindings v hr ht heq =>
    subst heq
    exact .inl ⟨rfl, rfl⟩
  | unobserve o =>
    refine .inl ⟨rfl, ?_⟩
    dsimp only [Store.unobserve]
    split <;> rfl
  | drop hc =>
    refine .inl ⟨rfl, ?_⟩
    dsimp only [Store.drop, leaveSlot]
    repeat' split
    all_goals rfl
  | write | rebind | forget => exact absurd rfl (hquiet _ (.head _) _)
  | _ => exact .inl ⟨rfl, rfl⟩

/-- The evaluations since the store was `s`, in which no cell comes twice. -/
structure Ledger (s : Store K) (k : Stage K) : Prop where
  once : k.past.begun.Nodup
  counted : k.store.evaluations = s.evaluations + k.past.begun.length

/-- Inside the evaluation of `p` none but bound cells are evaluated. -/
theorem PathOver.ledger {base : List (Option CellId)} (path : PathOver base k k')
    (hbase : some p ∈ base) (hp : p ∈ k.store.consumers) (hs : k.store.Sane) (hk : Kept s k.store)
    (htr : ∀ c, (s.cell c).tracker = true → (s.cell c).binding = none) (hacc : Account s k)
    (h : Ledger s k) (hquiet : k'.past.Writeless)
    (hbound : ∀ c ∈ k'.past.begun, (s.cell c).binding.isSome ∨ c = p) :
    p ∈ k'.store.consumers ∧ Ledger s k' := by
  induction path with
  | refl => exact ⟨hp, h⟩
  | @tail k1 k2 path step ih =>
    have hsub := step.1.past_suffix
    have hquiet1 := hquiet.of_suffix hsub
    obtain ⟨hp1, h1⟩ := ih hquiet1 fun c hc => hbound c (Chronicle.begun_subset hsub hc)
    have hpath : Path k k1 := PathOver.path path
    have hs1 := Path.sane hpath hs
    refine ⟨mem_consumers.mpr (step.2.subset hbase), ?_⟩
    rcases step.1.begun hs1 hquiet with ⟨hb, he⟩ | ⟨c, hb, he, hstop, hnot, hor⟩
    · exact ⟨hb ▸ h1.once, by rw [hb, he, h1.counted]⟩
    · refine ⟨?_, by rw [hb, he, h1.counted, List.length_cons, Nat.add_assoc]⟩
      rw [hb]
      refine List.nodup_cons.mpr ⟨fun hmem => ?_, h1.once⟩
      rcases hor with hst | ht
      · have hacc1 := PathOver.account path hbase hs hacc hquiet1
        obtain ⟨t, past, stop⟩ := k1
        subst hstop
        exact Chronicle.fate_of_mem_begun hmem (hacc1.fate_of_dirty hnot hst)
      · rcases hbound c (hb ▸ .head _) with hsome | rfl
        · have hlt : c < s.cells.size := not_le.1 fun hle => by
            rw [cell_of_size_le hle] at hsome
            cases hsome
          rw [(hk.trans (Path.kept hpath hs)).tracker c hlt] at ht
          rw [htr c ht] at hsome
          cases hsome
        · exact hnot hp1

/-! ## Programs that read -/

/-- A program that changes no cell. -/
def Act.Readonly : {α : Type} → Act S K α → Prop
  | _, .bind x f => x.Readonly ∧ ∀ a, (f a).Readonly
  | _, .untracked body => body.Readonly
  | _, .ensure body _ => body.Readonly
  | _, .pure _ | _, .host _ | _, .view _ | _, .record _ | _, .panic _ => True
  | _, .tryGet _ | _, .get _ => True
  | _, _ => False

/-- Nothing was written since the store was `s`, and only bound cells were evaluated, and `p`. -/
def browsing (meaning : {α : Type} → K α → Act S K α) (s : Store K) (p : CellId) :
    Regime S K Unit where
  holds _ w := w.past.Writeless ∧ (∀ c ∈ w.past.begun, (s.cell c).binding.isSome ∨ c = p) ∧
    ∀ c, (w.store.cell c).binding = (s.cell c).binding
  le _ w _ w' := Kept w.store w'.store
  admits _ _ code := (meaning code).Readonly
  returns _ _ _ _ := True
  fits _ _ _ _ := True
  stops _ := True
  writes _ := False
  begins t c := (t.cell c).binding.isSome ∨ c = p

section

variable (hpure : ∀ code : K Value, (meaning code).Readonly)
include hpure

theorem browsing_readable : (browsing meaning s p).Readable where
  refl _ _ := .refl _
  trans h h' := h.trans h'
  kept h := h
  note e he hw := by
    refine ⟨⟨fun m hm c => ?_, ?_, hw.2.2⟩, .refl _⟩
    · rcases List.mem_cons.mp hm with rfl | hm
      · rintro rfl
        exact he
      · exact hw.1 m hm c
    · cases e with
      | began c =>
        intro d hd
        rcases List.mem_cons.mp hd with rfl | hd
        · rw [← hw.2.2]
          exact he
        · exact hw.2.1 d hd
      | _ => exact hw.2.1
  akin hw hk := ⟨⟨hw.1, hw.2.1, fun c => (hk.binding c).trans (hw.2.2 c)⟩, hk.kept⟩
  cache {_ _ _ c} hw ha hb _ := by
    refine ⟨⟨hw.1, hw.2.1, fun d => Eq.trans ?_ (hw.2.2 d)⟩, .of_size ha.size ha.tracker_all⟩
    by_cases hd : d = c
    · exact hd ▸ hb.1
    · exact congrArg Content.binding (ha.other d hd)
  code _ _ := ⟨hpure _, fun _ _ => trivial⟩
  bound _ hb := .inl (by rw [hb]; rfl)

theorem browsing_runs (hact : act.Readonly) (hN : (browsing meaning s p).Obeys nested)
    (hw : (browsing meaning s p).holds () w) : (browsing meaning s p).Keeps nested () w act := by
  have hR := browsing_readable hpure (s := s) (p := p)
  induction act generalizing w with
  | pure a => exact .ret hw trivial
  | bind x f ihx ihf =>
    exact .seq (ihx hact.1 hw) fun _ _ a _ hw' _ => ihf a (hact.2 a) hw'
  | host f => exact .host hw fun hn => ⟨(), hR.refl () _, hn, trivial⟩
  | view f => exact .view hw trivial
  | record e => exact .record e hw
  | panic text => exact .panic hw trivial
  | untracked body ih => exact .untracked hw (fun _ _ hw' => ih hact hw') Regime.stable_true
  | ensure body after ih =>
    exact .ensure hw (fun _ _ hw' => ih hact hw') Regime.stable_true
      fun _ w' _ hw' => ⟨hw', hR.refl () w'⟩
  | tryGet c => exact .tryGet hN hw (.inr trivial)
  | get c => exact .get hN hw (.inr trivial)
  | _ => exact hact.elim

theorem browsing_obeys (depth : Nat) :
    (browsing meaning s p).Obeys (Act.toldTo meaning depth) :=
  (browsing_readable hpure).toldTo_obeys
    (fun hN _ _ _ _ hw hc => browsing_runs hpure hc hN hw) depth

end

/-! ## Calls from outside -/

/-- From the store `s` to `w` no cell was evaluated twice, and none that was clean, except for the
tracker `p`. -/
structure EachOnce (s : Store K) (p : CellId) (w : Tale S K) : Prop where
  once : w.past.begun.Nodup
  counted : w.store.evaluations = s.evaluations + w.past.begun.length
  dirty : ∀ c ∈ w.past.begun, (s.cell c).binding.isSome ∧ (s.cell c).state = .dirty ∨
    c = p ∧ (s.cell c).tracker = true

theorem EachOnce.of_none (hb : w.past.begun = []) (he : w.store.evaluations = s.evaluations) :
    EachOnce s p w := by
  refine ⟨?_, ?_, ?_⟩ <;> rw [hb]
  · exact .nil
  · exact he
  · nofun

section

variable (hs : w.store.Sane) (hrest : w.store.consumers = [])
  (hacc : Account w.store ⟨w.store, w.past, none⟩) (hnone : w.past.begun = [])
include hs hrest hacc hnone

theorem Outermost.eachOnce {out : Tale S K} {stop : Option Stop} (h : Outermost p w w' stop)
    (hout : w'.past <:+ out.past) (hbegun : out.past.begun = w'.past.begun)
    (hcount : out.store.evaluations = w'.store.evaluations) (hquiet : out.past.Writeless)
    (hbound : ∀ c ∈ out.past.begun, (w.store.cell c).binding.isSome ∨ c = p) :
    EachOnce w.store p out := by
  replace hquiet := hquiet.of_suffix hout
  rw [hbegun] at hbound
  have hacc' := h.account hs hacc hquiet
  obtain ⟨hp, hstep, path, -⟩ := h
  have hpast : (entering p w).past.begun = [p] := congrArg (p :: ·) hnone
  have hmem : some p ∈ (entering p w).store.stack := by simp [entering]
  have hsu := hstep.sane hs
  have haccu := hstep.account hs hacc (hquiet.of_suffix (Path.past_suffix path.path)) (.inl rfl)
  have hledger : Ledger w.store ⟨(entering p w).store, (entering p w).past, none⟩ :=
    ⟨by rw [hpast]; exact List.nodup_singleton p, by rw [hpast]; exact evaluations_enter ..⟩
  obtain ⟨-, hl⟩ := path.ledger hmem (mem_consumers.mpr hmem) hsu (hstep.kept hs) hs.trackers haccu
    hledger hquiet hbound
  refine ⟨hbegun ▸ hl.once, hcount ▸ hbegun ▸ hl.counted, fun c hc => ?_⟩
  rw [hbegun] at hc
  cases htr : (w.store.cell c).tracker with
  | true =>
    refine .inr ⟨(hbound c hc).resolve_left fun hsome => ?_, rfl⟩
    rw [hs.trackers c htr] at hsome
    cases hsome
  | false =>
    have hsome : (w.store.cell c).binding.isSome := (hbound c hc).elim id fun heq => by
      subst heq
      exact hp.resolve_right (by simp [htr])
    refine .inl ⟨hsome, ?_⟩
    have hlt : c < w.store.cells.size := not_le.1 fun hle => by
      rw [cell_of_size_le hle] at hsome
      cases hsome
    cases hst : (w.store.cell c).state with
    | dirty => rfl
    | evaluating =>
      have hev := hs.evaluating c hst
      rw [hrest] at hev
      cases hev
    | clean =>
      have hkept := (hstep.kept hs).trans (Path.kept path.path hsu)
      exact absurd (hacc'.spared c hlt hst ((hkept.tracker c hlt).trans htr)).1
        (Chronicle.fate_of_mem_begun hc)

theorem ReadOutside.eachOnce {r : EStateM.Result Stop (Tale S K) (Value × Option CycleError)}
    (h : ReadOutside p w r) (hquiet : (Act.outcome r).past.Writeless)
    (hbound : ∀ c ∈ (Act.outcome r).past.begun, (w.store.cell c).binding.isSome ∨ c = p) :
    EachOnce w.store p (Act.outcome r) := by
  cases h with
  | settled hv step hsame => exact .of_none hnone hsame
  | completed h ht hout =>
    subst hout
    exact h.eachOnce hs hrest hacc hnone ((List.suffix_cons ..).trans (List.suffix_cons ..)) rfl rfl
      hquiet hbound
  | @failed w' stop r h heq =>
    have hout : Act.outcome r = leaving p false w' := by
      rcases heq with ⟨v, e, -, rfl⟩ | ⟨-, rfl⟩ <;> rfl
    rw [hout] at hquiet hbound ⊢
    exact h.eachOnce hs hrest hacc hnone (List.suffix_cons ..) rfl rfl hquiet hbound

theorem eachOnce_evaluate {body : Told S K α} (hbody : Flows (fun _ => True) body)
    (ht : w.store.IsTracker p) (hd : (w.store.cell p).dropped = false)
    (hst : (w.store.cell p).state ≠ .evaluating)
    (hquiet : (Act.outcome (evaluate p body w)).past.Writeless)
    (hbound : ∀ c ∈ (Act.outcome (evaluate p body w)).past.begun,
      (w.store.cell c).binding.isSome ∨ c = p) :
    EachOnce w.store p (Act.outcome (evaluate p body w)) := by
  have hstep : Step ⟨w.store, w.past, none⟩
      ⟨(entering p w).store, (entering p w).past, none⟩ := .beginWork ht hd hst
  have hr := hbody (entering p w) (hstep.sane hs) trivial
  have hend := fun completed {w' : Tale S K} {stop} (h : Outermost p w w' stop) =>
    h.eachOnce hs hrest hacc hnone
      (show w'.past <:+ (leaving p completed w').past from List.suffix_cons ..) rfl rfl
  cases hx : body (entering p w) with
  | ok a w' =>
    rw [hx] at hr
    rw [evaluate_of_ok hx] at hquiet hbound ⊢
    exact hend true ⟨.inr ht.2, hstep, hr.1, (Level.leave hr.2 true).1⟩ hquiet hbound
  | error stop w' =>
    rw [hx] at hr
    rcases evaluate_of_error hx with ⟨e, -, -, heq⟩ | ⟨-, heq⟩ <;> rw [heq] at hquiet hbound ⊢ <;>
      exact hend false ⟨.inr ht.2, hstep, hr.1, (Level.leave hr.2 false).1⟩ hquiet hbound

end

/-! ## Sessions -/

/-- What calls that are made from outside in the store `s` evaluate. -/
structure Store.Frugal (meaning : {α : Type} → K α → Act S K α) (s : Store K) : Prop where
  /-- A read that did not fail changes nothing when it is made again. -/
  tryGet : s.active = 0 → ∀ (p : CellId) (depth : Nat) (host : S),
    let r := (Act.tryGet p).tell (Act.toldTo meaning depth) ⟨s, host, []⟩
    untoldResult r = (Act.tryGet p).runTo meaning depth ⟨s, host⟩ ∧ EachOnce s p (Act.outcome r) ∧
      ∀ v w, r = .ok (v, none) w → ∀ (depth' : Nat) (host' : S),
        (Act.get p).runTo meaning depth' ⟨w.store, host'⟩ = .ok v ⟨w.store, host'⟩
  get : s.active = 0 → ∀ (p : CellId) (depth : Nat) (host : S),
    let r := (Act.get p).tell (Act.toldTo meaning depth) ⟨s, host, []⟩
    untoldResult r = (Act.get p).runTo meaning depth ⟨s, host⟩ ∧
      r = reporting ((Act.tryGet p).tell (Act.toldTo meaning depth) ⟨s, host, []⟩) ∧
      EachOnce s p (Act.outcome r)
  track : s.active = 0 → ∀ {α : Type} (t : CellId) (body : Act S K α), body.Readonly →
    ∀ (depth : Nat) (host : S),
    let r := (Act.track t body).tell (Act.toldTo meaning depth) ⟨s, host, []⟩
    untoldResult r = (Act.track t body).runTo meaning depth ⟨s, host⟩ ∧ EachOnce s t (Act.outcome r)

theorem outcome_track (nested : Nested (S × Chronicle K) K) (body : Act S K α)
    (hst : (w.store.cell p).state ≠ .evaluating) :
    Act.outcome ((Act.track p body).tell nested w) = w.beat ∨
      w.store.IsTracker p ∧ (w.store.cell p).dropped = false ∧
        Act.outcome ((Act.track p body).tell nested w) =
          Act.outcome (evaluate p (body.tell nested) w.beat) := by
  have htell : (Act.track p body).tell nested w = if w.store.IsTracker p
      then trackWork p (body.tell nested) w.beat
      else .error (.unknownCell p) w.beat := Run.onTracker_eq ..
  rw [htell]
  split
  · rename_i ht
    by_cases hd : (w.store.cell p).dropped = true
    · refine .inl ?_
      show Act.outcome ((if (w.store.cell p).dropped = true then _ else _ : Told S K _) _) = _
      rw [if_pos hd]
      rfl
    · refine .inr ⟨ht, by simpa using hd, ?_⟩
      show Act.outcome ((if (w.store.cell p).dropped = true then _
        else if (w.store.cell p).state = .evaluating then _ else _ : Told S K _) _) = _
      rw [if_neg hd, if_neg hst]
      show Act.outcome (EStateM.bind (evaluate p (body.tell nested)) _ w.beat) = _
      unfold EStateM.bind
      rcases evaluate p (body.tell nested) w.beat with ⟨_ | _, _⟩ | ⟨_, _⟩ <;> rfl
  · exact .inl rfl

theorem EachOnce.reporting {r : EStateM.Result Stop (Tale S K) (Value × Option CycleError)}
    (h : EachOnce s p (Act.outcome r)) : EachOnce s p (Act.outcome (reporting r)) := by
  rcases r with ⟨⟨v, _ | e⟩, w⟩ | ⟨stop, w⟩
  · exact h
  · refine ⟨h.once, Eq.trans ?_ h.counted, h.dirty⟩
    show (if w.store.reports = true then w.store.record
      (.report e) else w.store.log _).evaluations = _
    split <;> rfl
  · exact h

/-- A read without an error leaves its cell up to date. -/
theorem ReadOutside.fresh {v : Value} (h : ReadOutside p w (.ok (v, none) w'))
    (hunwound : Unwound s w'.store w'.past) : v = (w'.store.cell p).value ∧
      ((w'.store.cell p).state = .clean ∨ (w'.store.cell p).dropped = true) := by
  cases h with
  | settled hv step hsame hset => exact ⟨hv, hset⟩
  | completed h ht hout =>
    subst hout
    exact ⟨rfl, .inl (hunwound.completed p _ (if_pos rfl)).1⟩
  | failed h heq => rcases heq with ⟨_, _, _, ⟨⟩⟩ | ⟨_, ⟨⟩⟩

section

variable (hpure : ∀ code : K Value, (meaning code).Readonly) (hs : s.Sane)
  (hrest : s.consumers = [])
include hpure hs hrest

theorem Store.Sane.eachOnce_tryGet (p : CellId) (depth : Nat) (host : S) :
    let r := (Act.tryGet p).tell (Act.toldTo meaning depth) ⟨s, host, []⟩
    EachOnce s p (Act.outcome r) ∧ ∀ v w, r = .ok (v, none) w → ∀ (depth' : Nat) (host' : S),
      (Act.get p).runTo meaning depth' ⟨w.store, host'⟩ = .ok v ⟨w.store, host'⟩ := by
  set w : Tale S K := World.beat ⟨s, host, []⟩ with hw
  obtain ⟨-, hquiet, hbound, -⟩ := (browsing_runs hpure
    (w := ⟨s, host, []⟩) (show (Act.tryGet p).Readonly from trivial) (browsing_obeys hpure depth)
    ⟨nofun, nofun, fun _ => rfl⟩).outcome trivial
  have htell : (Act.tryGet p).tell (Act.toldTo meaning depth) ⟨s, host, []⟩ =
      if w.store.IsProperty p then tryGet (Act.toldTo meaning depth) p w
      else .error (.unknownCell p) w := Run.onProperty_eq ..
  rw [htell] at hquiet hbound ⊢
  by_cases hp : w.store.IsProperty p
  · rw [if_pos hp] at hquiet hbound ⊢
    have hn := Act.toldTo_flows meaning depth
    have hacc : Account s ⟨w.store, w.past, none⟩ := (Account.start hrest).note fun _ => rfl
    have hread := tryGet_outside hn hs hrest hp
    refine ⟨hread.eachOnce hs hrest hacc rfl hquiet hbound, fun v w' hr depth' host' => ?_⟩
    have hreach := hn.tryGet p w hs hp
    rw [hr] at hreach hread hquiet
    have hrest' : w'.store.consumers = [] := by
      rw [← hrest, consumers, consumers]
      exact congrArg _ hreach.2.stack
    obtain ⟨rfl, hset⟩ := hread.fresh (hread.unwound hs hacc hrest' hquiet)
    exact (Run.onProperty_eq ..).trans ((if_pos (hp.kept (Path.kept hreach.1.path hs))).trans
      (Run.get_of_settled hrest' hset))
  · rw [if_neg hp]
    exact ⟨.of_none rfl rfl, by rintro _ _ ⟨⟩⟩

theorem Store.Sane.eachOnce_track (t : CellId) {body : Act S K α} (hbody : body.Readonly)
    (depth : Nat) (host : S) : EachOnce s t
      (Act.outcome ((Act.track t body).tell (Act.toldTo meaning depth) ⟨s, host, []⟩)) := by
  set w : Tale S K := World.beat ⟨s, host, []⟩ with hw
  have hobeys := browsing_obeys hpure (s := s) (p := t) depth
  have := browsing_readable hpure (s := s) (p := t)
  obtain ⟨-, hquiet, hbound, -⟩ :=
    (Regime.Runs.track (R := browsing meaning s t) (w := ⟨s, host, []⟩) ⟨nofun, nofun, fun _ => rfl⟩
    (fun _ => trivial) (.inr rfl) (fun _ _ hw' => browsing_runs hpure hbody hobeys hw')
      Regime.stable_true).outcome trivial
  have hst : (s.cell t).state ≠ .evaluating := fun hst => by
    have hmem := hs.evaluating t hst
    rw [hrest] at hmem
    cases hmem
  rcases outcome_track (Act.toldTo meaning depth) body (w := ⟨s, host, []⟩) hst with
    heq | ⟨ht, hd, heq⟩
  · rw [heq]
    exact .of_none rfl rfl
  · rw [heq] at hquiet hbound ⊢
    exact eachOnce_evaluate (w := w) hs hrest ((Account.start hrest).note fun _ => rfl) rfl
      (Act.tell_flows (Act.toldTo_flows meaning depth) body) ht hd hst hquiet hbound

omit hrest in
theorem Store.Sane.frugal : s.Frugal meaning := by
  have hrest : s.active = 0 → s.consumers = [] := fun ha =>
    List.length_eq_zero_iff.mp (hs.active.symm.trans ha)
  have hecho : ∀ {α : Type} (act : Act S K α) (depth : Nat) (host : S), untoldResult
      (act.tell (Act.toldTo meaning depth) ⟨s, host, []⟩) = act.runTo meaning depth ⟨s, host⟩ :=
    fun act depth host => Act.tell_echoes (Act.toldTo_echoes meaning depth) act ⟨s, host, []⟩
  refine ⟨fun ha p depth host => ⟨hecho .., hs.eachOnce_tryGet hpure (hrest ha) p depth host⟩,
    fun ha p depth host => ⟨hecho .., tell_get .., ?_⟩,
    fun ha α t body hbody depth host => ⟨hecho .., hs.eachOnce_track hpure
      (hrest ha) t hbody depth host⟩⟩
  rw [tell_get]
  exact (hs.eachOnce_tryGet hpure (hrest ha) p depth host).1.reporting

end

/-- In every session in which the bindings only read, reads from outside and the work of trackers
evaluate every cell once at most, whenever code of others has control and when the session is
over. -/
theorem session_frugal (meaning : {α : Type} → K α → Act S K α)
    (hpure : ∀ code : K Value, (meaning code).Readonly) (depth : Nat) (reports : Bool) (host : S)
    (acts : List (Act S K Unit)) :
    let told := Act.toldSession meaning depth acts ⟨{ reports }, host, []⟩
    told.untold = Act.session meaning depth acts ⟨{ reports }, host⟩ ∧
      told.store.Frugal meaning ∧ ∀ m ∈ told.past, m.event = .control → m.store.Frugal meaning := by
  obtain ⟨hs, hms⟩ := toldSession_sane meaning depth reports host acts
  exact ⟨Act.untold_toldSession .., hs.frugal hpure,
    fun m hm hctl => (hms m hm hctl).frugal hpure⟩

/-- Two cells that ask for one another, and one that both would be computed from. -/
theorem session_frugal_knot :
    (∀ code : Knot Value, (Knot.meaning code).Readonly) ∧ Knot.store.Frugal Knot.meaning ∧
      (Act.outcome ((Act.tryGet 1).tell (Act.toldTo Knot.meaning 3) ⟨Knot.store, (),
        []⟩)).past.begun = [2, 0, 1] := by
  have hpure : ∀ code : Knot Value, (Knot.meaning code).Readonly := fun code => by
    cases code with
    | steady | right => exact trivial
    | left => exact ⟨trivial, fun _ => trivial⟩
  have h := session_frugal Knot.meaning hpure 5 false () Knot.acts
  refine ⟨hpure, ?_, by decide +kernel⟩
  rw [Knot.store, ← h.1]
  exact h.2.1

end ReactiveTree
