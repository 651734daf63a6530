import ReactiveTree.Proofs.Cell.Completes
import ReactiveTree.Proofs.Scene.Composed
import ReactiveTree.Proofs.Text.LastCharacter

/-!
# Typing

A key goes to the focused input, which writes its text and says that it was edited. Where the text
is a plain cell and the code that is told of a change leaves it and the focus alone (`Attentive`),
each key has one such effect, and backspaces take back what was typed, character by character
(`backspace_undoes_typing`).
-/

namespace ReactiveTree

open Store

variable {U X : Type}

namespace Scene

/-- The cell in the spot is a plain one of `P` with this value, and is not animated. -/
structure Direct (P : CellId → Prop) (kind : Kind) (store : Store (Code U)) (s : Scene U X)
    (spot : Spot) (v : Value) : Prop where
  among : P (s.cellAt spot)
  lt : s.cellAt spot < store.cells.size
  content : (store.cell (s.cellAt spot)).content = ⟨false, v, none, none, false⟩
  kind : ((s.table spot.component spot.node).decls.getD spot.slot default).kind = kind
  still : (s.component spot.component).transitions.lookup (s.cellAt spot) = none

def Alive (s : Scene U X) (it : ItemRef) : Prop := (s.component it.component).destroyed = false

end Scene

/-- Delivers keys one after another. -/
def Window.keys (c : ComponentId) (ks : List Key) : SceneM U X Unit :=
  ks.forM fun k => discard (key c k)

/-- The store after a read of a cell that has no binding. -/
def Store.looked {K : Type → Type} (s : Store K) (c : CellId) : Store K :=
  if (s.cell c).state = .clean then s.track c
  else (s.track c).modify c fun cell => { cell with state := .clean }

/-- Keys of the window of `c` go to the item, whose text is a plain cell in the spot. -/
structure Typable (c : ComponentId) (it : ItemRef) (spot : Spot) (t : Text) (store : Store (Code U))
    (s : Scene U X) : Prop extends s.Direct (fun _ => True) .string store spot (.string t) where
  focus : (s.window (s.top c)).focus = some it
  alive : s.Alive it
  keyboard : (s.item it).kind.caps.has .keyboard = true
  text : ((s.item it).table.slot? "text").map (⟨it.component, some it.index, ·⟩) = some spot
  idle : (store.cell (s.cellAt spot)).state ≠ .evaluating

/-- What is `good t n` of a world where the input has the text `t` and has emitted `edited` `n`
times lasts: it can be typed into and is enabled, and what runs when it is edited, observers of the
text and the handler, returns and leaves the text alone. -/
structure Attentive (nested : SceneNested U X) (c : ComponentId) (it : ItemRef) (spot : Spot)
    (good : Text → Nat → Store (Code U) → Scene U X → Prop) : Prop where
  typable : ∀ {t n store s}, good t n store s → Typable c it spot t store s
  looked : ∀ {t n store s}, good t n store s → good t n (store.looked (s.cellAt spot)) s
  told : ∀ {t t' n cells} {w : SceneTale U X}, good t n w.store w.host.1 →
    w.store.toldOfWrite (w.host.1.cellAt spot) (.string t') = some cells →
    ∃ w', Run.notify nested cells
      (w.withStore (w.store.written (w.host.1.cellAt spot) (.string t'))) = .ok () w' ∧
        good t' n w'.store w'.host.1
  enabled : ∀ {t n w}, good t n w.store w.host.1 → (Item.isEnabled it).Completes nested w
    fun w' r => r = true ∧ good t n w'.store w'.host.1
  emitted : ∀ {t n w}, good t n w.store w.host.1 → (Item.emit it "edited" []).Completes nested w
    fun w' _ => good t (n + 1) w'.store w'.host.1

namespace Attentive

variable {nested : SceneNested U X} {c : ComponentId} {it : ItemRef} {spot : Spot} {n : Nat}
  {good : Text → Nat → Store (Code U) → Scene U X → Prop} {w : SceneTale U X} {t : Text}
  (h : Attentive nested c it spot good)
include h

theorem get (hw : good t n w.store w.host.1) : (Item.get it "text").Completes nested w fun w' r =>
    r = .string t ∧ good t n w'.store w'.host.1 := by
  have ht := h.typable hw
  have hdropped := congrArg Content.dropped ht.content
  -- A cell without a binding is read as it is, clean or dirty.
  have htry (past) : ∃ past', Told.tryGet nested (w.host.1.cellAt spot) ⟨w.store, w.host.1, past⟩ =
      .ok (.string t, none) ⟨w.store.looked (w.host.1.cellAt spot), w.host.1, past'⟩ := by
    rw [Store.looked, ← show (w.store.cell _).value = .string t from congrArg Content.value
      ht.content]
    cases hstate : (w.store.cell (w.host.1.cellAt spot)).state with
    | clean => exact ⟨_, Told.tryGet_of_clean hdropped hstate⟩
    | evaluating => exact absurd hstate ht.idle
    | dirty => exact ⟨_, Told.tryGet_of_unbound hdropped hstate
      (congrArg Content.binding ht.content)⟩
  refine .bind (P := fun w' r => r = some (w.host.1.cellAt spot) ∧ w'.store = w.store ∧
    w'.host.1 = w.host.1) (Act.completes_ask ?_) ?_
  · rw [ht.text]
    exact ⟨_, _, rfl, rfl, rfl, rfl⟩
  rintro ⟨_, _, past⟩ _ ⟨rfl, ⟨⟩, ⟨⟩⟩
  obtain ⟨past', htry⟩ : ∃ past', Told.tryGet nested _ (World.beat ⟨w.store, w.host.1, past⟩) =
    .ok _ ⟨_, w.host.1, past'⟩ := htry _
  have hget : (Act.get (w.host.1.cellAt spot)).tell nested ⟨w.store, w.host.1, past⟩ =
      Told.get nested _ (World.beat ⟨w.store, w.host.1, past⟩) := (Run.onProperty_eq ..).trans
    (if_pos ⟨ht.lt, congrArg Content.tracker ht.content⟩)
  refine ⟨.string t, ⟨_, w.host.1, past'⟩, hget.trans ?_, rfl, h.looked hw⟩
  show EStateM.bind (Told.tryGet nested _) _ _ = _
  simp only [EStateM.bind, htry]
  rfl

theorem set (t' : Text) (hw : good t n w.store w.host.1) :
    (Item.set it "text" (.string t')).Completes nested w fun w' _ =>
      good t' n w'.store w'.host.1 := by
  have ht := h.typable hw
  have hplain : (if (w.store.cell (w.host.1.cellAt spot)).binding.isSome then
      w.store.detach (w.host.1.cellAt spot) else w.store) = w.store :=
    if_neg (by simp [show (w.store.cell _).binding = none from congrArg Content.binding ht.content])
  have hset (past) : (Act.set (w.host.1.cellAt spot) (.string t')).Completes nested
      ⟨w.store, w.host.1, past⟩ fun w' _ => good t' n w'.store w'.host.1 := by
    obtain ⟨past', htold⟩ : ∃ past', (Act.set (w.host.1.cellAt spot) (.string t')).tell nested
        ⟨w.store, w.host.1, past⟩ = Run.set nested _ (.string t') ⟨w.store, w.host.1, past'⟩ :=
      ⟨_, (Run.onProperty_eq _ _ (World.beat ⟨w.store, w.host.1, past⟩)).trans
        (if_pos ⟨ht.lt, congrArg Content.tracker ht.content⟩)⟩
    have hset := Told.set_told nested (.string t') (w := ⟨w.store, w.host.1, past'⟩)
      (congrArg Content.dropped ht.content)
    rw [← htold, linkRoot_of_partner (congrArg Content.partner ht.content)] at hset
    cases hcells : w.store.toldOfWrite (w.host.1.cellAt spot) (.string t') with
    | none =>
      -- Nobody is told only if the text is the same.
      have hsame : (w.store.cell (w.host.1.cellAt spot)).value.same (.string t') = true := by
        by_contra hne
        rw [toldOfWrite, hplain, if_neg hne] at hcells
        cases hcells
      rw [hcells, written, hplain, if_pos hsame] at hset
      rw [show (w.store.cell _).value = .string t from congrArg Content.value ht.content] at hsame
      exact ⟨_, _, hset, (eq_of_beq hsame : t = t') ▸ hw⟩
    | some cells =>
      obtain ⟨w', hnotify, hw'⟩ := h.told (w := ⟨w.store, w.host.1, past'⟩) hw hcells
      rw [hcells] at hset
      exact ⟨_, w', hset.trans hnotify, hw'⟩
  refine Act.completes_ask ?_
  rw [ht.text]
  refine Act.completes_ask ?_
  dsimp only
  rw [show (w.beat.host.1.table spot.component spot.node).decls.getD spot.slot default =
    (w.host.1.table spot.component spot.node).decls.getD spot.slot default from rfl, ht.kind]
  refine .bind (P := fun w' r => r = w.host.1.cellAt spot ∧ w'.store = w.store ∧
    w'.host.1 = w.host.1) ⟨_, _, rfl, linkRoot_of_partner (congrArg Content.partner ht.content),
      rfl, rfl⟩ ?_
  rintro ⟨_, _, past⟩ _ ⟨rfl, ⟨⟩, ⟨⟩⟩
  refine Act.completes_ask ?_
  rw [show (w.host.1.component spot.component).transitions.lookup
    (w.host.1.cellAt spot) = none from ht.still]
  exact (hset _).bind fun _ _ hw => Act.completes_pure hw

theorem edit (t' : Text) (hw : good t n w.store w.host.1) :
    (Window.edit it t').Completes nested w fun w' _ => good t' (n + 1) w'.store w'.host.1 := by
  refine .bind (P := fun w' _ => good t' n w'.store w'.host.1) ?_ fun _ _ hw => ?_
  · exact (h.set t' hw).bind fun _ _ hw => Act.completes_pure hw
  · exact (h.emitted hw).bind fun _ _ hw => Act.completes_pure hw

theorem key {k : Window.Key} (hk : k ≠ .tab ∧ k ≠ .escape) {Q : SceneTale U X → Bool → Prop}
    (hw : good t n w.store w.host.1)
    (hQ : ∀ w, good t n w.store w.host.1 → (Window.keyTo it k).Completes nested w Q) :
    (Window.key c k).Completes nested w Q := by
  have ht := h.typable hw
  have hfocus : (Window.focusItem (w.host.1.top c)).Completes nested w.beat fun w' r =>
      r = some it ∧ w'.store = w.store ∧ w'.host.1 = w.host.1 := by
    refine Act.completes_ask ?_
    rw [show (w.beat.host.1.window (w.host.1.top c)).focus = some it from ht.focus]
    refine Act.completes_ask ?_
    rw [show (w.beat.beat.host.1.component it.component).destroyed = false from ht.alive]
    exact ⟨_, _, rfl, rfl, rfl, rfl⟩
  refine Act.completes_ask ?_
  cases k with
  | tab => exact absurd rfl hk.1
  | escape => exact absurd rfl hk.2
  | _ =>
    refine hfocus.bind ?_
    rintro ⟨_, _, past⟩ _ ⟨rfl, ⟨⟩, ⟨⟩⟩
    refine Act.completes_ask ?_
    rw [show (w.host.1.item it).kind.caps.has .keyboard = true from ht.keyboard]
    refine (h.enabled (w := World.beat ⟨w.store, w.host.1, past⟩) hw).bind ?_
    rintro w' _ ⟨rfl, hw'⟩
    exact hQ w' hw'

theorem type {t' : Text} (ht' : t'.isEmpty = false) (hw : good t n w.store w.host.1) :
    (Window.key c (.text t')).Completes nested w fun w' _ => good (t ++ t')
      (n + 1) w'.store w'.host.1 := by
  refine h.key (by simp) hw fun w hw => (h.get hw).bind ?_
  rintro w _ ⟨rfl, hw⟩
  show (if t'.isEmpty then _ else _ : SceneM U X Bool).Completes nested w _
  rw [ht']
  exact (h.edit _ hw).bind fun _ _ hw => Act.completes_pure hw

theorem backspace (hw : good t n w.store w.host.1) : (Window.key c .backspace).Completes nested w
    fun w' _ => good t.dropLast (if t.isEmpty then n else n + 1) w'.store w'.host.1 := by
  refine h.key (by simp) hw fun w hw => (h.get hw).bind ?_
  rintro w _ ⟨rfl, hw⟩
  show (do unless t.isEmpty do Window.edit it t.dropLast
           return true : SceneM U X Bool).Completes nested w _
  cases hempty : t.isEmpty with
  | true =>
    obtain rfl : t = ⟨[]⟩ := congrArg Text.mk (List.isEmpty_iff.1 hempty)
    exact Act.completes_pure hw
  | false => exact (h.edit _ hw).bind fun _ _ hw => Act.completes_pure hw

theorem backspaces (m : Nat) (hw : good t n w.store w.host.1) :
    (Window.keys c (.replicate m .backspace)).Completes nested w fun w' _ =>
      ∃ k, good (Text.dropLast^[m] t) k w'.store w'.host.1 := by
  induction m generalizing w t n with
  | zero => exact Act.completes_pure ⟨n, hw⟩
  | succ m ih => exact ((h.backspace hw).bind fun _ _ hw =>
    Act.completes_pure hw).bind fun _ _ hw => ih hw

/-- As many backspaces as there are characters at the end take them away, one by one. -/
theorem erase {s : Text} {cs : List Char}
    (hw : good ⟨s.bytes ++ Utf8.encode cs⟩ n w.store w.host.1) :
      (Window.keys c (.replicate cs.length .backspace)).Completes nested w fun w' _ => good s
        (n + cs.length) w'.store w'.host.1 := by
  induction cs using List.reverseRecOn generalizing w n with
  | nil =>
    rw [show (⟨s.bytes ++ Utf8.encode []⟩ : Text) = s from congrArg Text.mk
      (List.append_nil _)] at hw
    exact Act.completes_pure hw
  | append_singleton cs char ih =>
    have hfull : (⟨s.bytes ++ Utf8.encode (cs ++ [char])⟩ : Text).isEmpty = false := by
      simp [Text.isEmpty, Utf8.encode_ne_nil]
    have hback := h.backspace hw
    rw [Text.dropLast_append_encode, hfull] at hback
    rw [List.length_append, Nat.add_comm cs.length, ← Nat.add_assoc, Nat.add_comm [char].length]
    refine .bind
      (hback.bind fun _ _ hw => Act.completes_pure hw) fun _ _ hw => ih hw

end Attentive

/-- Typed characters are taken back by as many backspaces, and each of these keys has emitted
`edited` once. A backspace takes one to four bytes, until none are left. -/
theorem backspace_undoes_typing {nested : SceneNested U X} {c : ComponentId} {it : ItemRef}
    {spot : Spot} {good : Text → Nat → Store (Code U) → Scene U X → Prop}
    (h : Attentive nested c it spot good) {s : Text} {n : Nat} {w : SceneTale U X}
    (hw : good s n w.store w.host.1) : (∀ cs : List Char, cs ≠ [] →
      (Window.keys c (.text ⟨Utf8.encode cs⟩ :: .replicate cs.length .backspace)).Completes nested w
        fun w' _ => Typable c it spot s w'.store w'.host.1 ∧
          good s (n + 1 + cs.length) w'.store w'.host.1) ∧
    (s.bytes ≠ [] → (Window.key c .backspace).Completes nested w fun w' _ =>
      ∃ t removed, Typable c it spot t w'.store w'.host.1 ∧ good t (n + 1) w'.store w'.host.1 ∧
        s.bytes = t.bytes ++ removed ∧ 1 ≤ removed.length ∧ removed.length ≤ 4) ∧
    ∀ m, s.bytes.length ≤ m →
      (Window.keys c (.replicate m .backspace)).Completes nested w fun w' _ =>
      Typable c it spot ⟨[]⟩ w'.store w'.host.1 := by
  refine ⟨fun cs hcs => ?_, fun hne => ?_, fun m hm => ?_⟩
  · have hfull : (⟨Utf8.encode cs⟩ : Text).isEmpty = false := by
      simp [Text.isEmpty, Utf8.encode_ne_nil hcs]
    refine .bind (P := fun w' _ => good (s ++ ⟨Utf8.encode cs⟩) (n + 1) w'.store w'.host.1)
      ((h.type hfull hw).bind fun _ _ hw => Act.completes_pure hw) fun w' _ hw' => ?_
    exact (h.erase hw').mono fun _ _ hw => ⟨h.typable hw, hw⟩
  · refine (h.backspace hw).mono fun w' _ hw' => ?_
    obtain ⟨removed, hremoved⟩ := Text.bytes_eq_dropLast_append hne
    rw [show s.isEmpty = false by simp [Text.isEmpty, hne]] at hw'
    exact ⟨_, removed, h.typable hw', hw', hremoved⟩
  · refine (h.backspaces m hw).mono ?_
    rintro w' _ ⟨k, hw'⟩
    exact Text.iterate_dropLast hm ▸ h.typable hw'

namespace Field

/-- An input that has the focus, with a handler that counts. -/
def scene (n : Nat) : Scene Unit Nat where
  components := #[{ definition := { name := "Field" }, window := 0, items := #[
    { id := "field", kind := .textInput, parent := none, children := [],
      table := { decls := [⟨"text", .string, .string ⟨[]⟩⟩], cells := [0] },
      callbacks := [⟨{ name := "edited", args := [] }, 0⟩] }] }]
  windows := #[{ focus := some ⟨0, 0⟩ }]
  signals := #[{ name := "edited", handler := some (.user () none) }]
  user := n

def store (t : Text) : Store (Code Unit) := { cells := #[{ value := .string t }] }

def nested : SceneNested Unit Nat := Host.told (.ofValue fun _ => do
  Act.change fun s => { s with user := s.user + 1 }
  pure .void) 1

theorem attentive : Attentive nested 0 ⟨0, 0⟩ ⟨0, some 0, 0⟩ fun t n st s => st = store t ∧
    s = scene n where
  typable := by
    rintro t n _ _ ⟨rfl, rfl⟩
    exact ⟨⟨trivial, Nat.one_pos, rfl, rfl, rfl⟩, rfl, rfl,
      show ItemKind.textInput.caps.has .keyboard = true by decide, rfl, nofun⟩
  looked := by
    rintro t n _ _ ⟨rfl, rfl⟩
    exact ⟨rfl, rfl⟩
  told := by
    rintro t t' n cells ⟨_, _, past⟩ ⟨rfl, rfl⟩ hcells
    have hwritten : (store t).written 0 (.string t') = if t == t' then store t else store t' := rfl
    have htold : (store t).toldOfWrite 0 (.string t') = if t == t' then none else some [0] := rfl
    cases hsame : t == t' with
    | true =>
      rw [hsame] at htold
      cases htold.symm.trans hcells
    | false =>
      rw [hsame] at htold hwritten
      cases htold.symm.trans hcells
      refine ⟨⟨store t', scene n, past⟩, ?_, rfl, rfl⟩
      show Run.notify nested [0] ⟨(store t).written 0 (.string t'), scene n, past⟩ = _
      rw [hwritten]
      rfl
  enabled := by
    rintro t n ⟨_, _, past⟩ ⟨rfl, rfl⟩
    refine .bind (P := fun w' r => r = none ∧ w'.store = store t ∧ w'.host.1 = scene n)
      (Act.completes_ask ?_) ?_
    · rw [show ((scene n).item ⟨0, 0⟩).table.slot? "enabled" = none from rfl]
      exact Act.completes_pure ⟨rfl, rfl, rfl⟩
    · rintro w' _ ⟨rfl, hw'⟩
      exact Act.completes_pure ⟨rfl, hw'⟩
  emitted := by
    rintro t n ⟨_, _, past⟩ ⟨rfl, rfl⟩
    refine Act.completes_ask ?_
    rw [show Callback.find? ((scene n).item ⟨0, 0⟩).callbacks "edited" =
      some ⟨{ name := "edited", args := [] }, 0⟩ from rfl]
    refine .bind (P := fun w' _ => w'.store = store t ∧ w'.host.1 = scene (n + 1))
      (Act.completes_ask ?_) ?_
    · exact ⟨_, _, rfl, rfl, rfl⟩
    · exact fun _ _ hw' => Act.completes_pure hw'

end Field

/-- Two characters after a stray byte, taken back. -/
theorem backspace_undoes_typing_field : (Window.keys 0 (.text ⟨Utf8.encode ['é', '!']⟩ ::
    .replicate 2 .backspace)).Completes Field.nested ⟨Field.store ⟨[0xC3]⟩, Field.scene 0, []⟩
      fun w' _ => Typable 0 ⟨0, 0⟩ ⟨0, some 0, 0⟩ ⟨[0xC3]⟩ w'.store w'.host.1 ∧
        w'.store = Field.store ⟨[0xC3]⟩ ∧ w'.host.1 = Field.scene 3 :=
  (backspace_undoes_typing Field.attentive ⟨rfl, rfl⟩).1 ['é', '!'] (by decide)

end ReactiveTree
