import ReactiveTree.Proofs.Cell.Regime

/-!
# Programs that complete

`Act.Completes` says of a program that it returns, and what is true when it does. It is for
programs that run no code of others: building cells, tearing them down, changing the host. What
such a program does between its first and its last step is seen by nobody, so an invariant
may be broken in the meantime (`Act.Completes.runs`).
-/

namespace ReactiveTree

variable {S : Type} {K : Type → Type} {α β γ : Type}
variable {act : Act S K α} {R : Regime S K γ} {g : γ}

namespace Act

variable {nested : Nested (S × Chronicle K) K} {w : Tale S K} {Q : Tale S K → α → Prop}

/-- The program, run from `w`, returns a value and ends in a world of which `Q` holds. -/
def Completes (nested : Nested (S × Chronicle K) K) (w : Tale S K) (act : Act S K α)
    (Q : Tale S K → α → Prop) : Prop :=
  ∃ a w', act.tell nested w = .ok a w' ∧ Q w' a

theorem Completes.mono {Q' : Tale S K → α → Prop}
    (h : Completes nested w act Q) (hQ : ∀ w' a, Q w' a → Q' w' a) : Completes nested w act Q' := by
  obtain ⟨a, w', htell, hq⟩ := h
  exact ⟨a, w', htell, hQ w' a hq⟩

theorem Completes.bind {x : Act S K β} {f : β → Act S K α} {P : Tale S K → β → Prop}
    (hx : Completes nested w x P) (hf : ∀ w' b, P w' b → Completes nested w' (f b) Q) :
    Completes nested w (x >>= f) Q := by
  obtain ⟨b, w', htell, hp⟩ := hx
  obtain ⟨a, w'', htell', hq⟩ := hf w' b hp
  exact ⟨a, w'', (tell_bind_of_ok htell).trans htell', hq⟩

theorem completes_pure {a : α} (h : Q w.beat a) :
    Completes nested w (Pure.pure a) Q := ⟨a, _, rfl, h⟩

theorem completes_host {f : S → α × S}
    (h : Q (w.beat.withHost (f w.host.1).2) (f w.host.1).1) :
    Completes nested w (.host f) Q := ⟨_, _, rfl, h⟩

theorem completes_change {f : S → S} {Q : Tale S K → Unit → Prop}
    (h : Q (w.beat.withHost (f w.host.1)) ()) : Completes nested w (Act.change f) Q :=
  ⟨_, _, rfl, h⟩

theorem completes_ask {f : S → β} {k : β → Act S K α}
    (h : Completes nested w.beat (k (f w.host.1)) Q) :
    Completes nested w (Act.ask f >>= k) Q :=
  Completes.bind (P := fun w' b => w' = w.beat ∧ b = f w.host.1) ⟨_, _, rfl, rfl, rfl⟩
    fun w' b hb => by
      obtain ⟨rfl, rfl⟩ := hb
      exact h

theorem completes_record {Q : Tale S K → Unit → Prop} {e : Entry}
    (h : Q (w.beat.withStore (w.store.record e)) ()) :
    Completes nested w (.record e) Q := ⟨_, _, rfl, h⟩

theorem completes_new {Q : Tale S K → CellId → Prop} {name : String} {v : Value}
    (h : Q (w.beat.withStore (w.store.add { name, value := v }).2)
      w.store.cells.size) : Completes nested w (.new name v) Q := ⟨_, _, rfl, h⟩

theorem completes_newTracker {Q : Tale S K → CellId → Prop} {name : String} {code : K Unit}
    (h : Q (w.beat.withStore ((w.store.add { name, tracker := true, state := .dirty }).2.observe
      w.store.cells.size code).2) w.store.cells.size) :
    Completes nested w (.newTracker name (some code)) Q := ⟨_, _, rfl, h⟩

theorem completes_drop {Q : Tale S K → Unit → Prop} {c : CellId} (hc : c < w.store.cells.size)
    (h : Q (w.beat.withStore (w.store.drop c)) ()) :
    Completes nested w (.drop c) Q := ⟨_, _, Run.onCell_of_lt hc, h⟩

/-- Work on the elements of a list: `I` says what is true when some of them are done. -/
theorem completes_forM {xs : List β} {f : β → Act S K PUnit} {I : List β → Tale S K → Prop}
    (h : I [] w) (hnote : ∀ w', I xs w' → I xs w'.beat)
    (hf : ∀ done x rest, xs = done ++ x :: rest → ∀ w', I done w' →
      Completes nested w' (f x) fun w'' _ => I (done ++ [x]) w'') :
    Completes nested w (xs.forM f) fun w' _ => I xs w' := by
  suffices hall : ∀ done rest, xs = done ++ rest → ∀ w', I done w' →
      Completes nested w' (rest.forM f) fun w' _ => I xs w' from hall [] xs rfl w h
  intro done rest
  induction rest generalizing done with
  | nil =>
    intro hxs w' hI
    rw [List.append_nil] at hxs
    exact completes_pure (hnote w' (hxs ▸ hI))
  | cons x rest ih =>
    intro hxs w' hI
    refine .bind (hf done x rest hxs w' hI) fun w'' _ hI' => ?_
    exact ih (done ++ [x]) (by simp [hxs]) w'' hI'

theorem completes_mapM {xs : List β} {f : β → Act S K α} {I : List β → List α → Tale S K → Prop}
    (h : I [] [] w) (hnote : ∀ ys w', I xs ys w' → I xs ys w'.beat)
    (hf : ∀ done x rest, xs = done ++ x :: rest → ∀ ys w', I done ys w' →
      Completes nested w' (f x) fun w'' y => I (done ++ [x]) (ys ++ [y]) w'') :
    Completes nested w (xs.mapM f) fun w' ys => I xs ys w' := by
  suffices hall : ∀ done rest, xs = done ++ rest → ∀ acc w', I done acc.reverse w' →
      Completes nested w' (List.mapM.loop f rest acc) fun w' ys => I xs ys w' from
    hall [] xs rfl [] w h
  intro done rest
  induction rest generalizing done with
  | nil =>
    intro hxs acc w' hI
    rw [List.append_nil] at hxs
    exact completes_pure (hnote _ w' (hxs ▸ hI))
  | cons x rest ih =>
    intro hxs acc w' hI
    refine .bind (hf done x rest hxs _ w' hI) fun w'' y hI' => ?_
    exact ih (done ++ [x]) (by simp [hxs]) (y :: acc) w'' (by simpa using hI')

/-- A program that completes keeps a regime if the regime holds again at its end. -/
theorem Completes.runs {Q' : γ → Tale S K → α → Prop} (h : Completes nested w act Q)
    (hQ : ∀ w' a, Q w' a → ∃ g', R.le g w g' w' ∧ R.holds g' w' ∧ Q' g' w' a) :
    R.Runs nested g w act Q' := by
  obtain ⟨a, w', htell, hq⟩ := h
  show R.Goes g w Q' (act.tell nested w)
  rw [htell]
  exact hQ w' a hq

theorem Completes.keeps (h : Completes nested w act Q)
    (hQ : ∀ w' a, Q w' a → R.le g w g w' ∧ R.holds g w') :
    R.Runs nested g w act fun _ w' a => Q w' a :=
  h.runs fun w' a hq => ⟨g, (hQ w' a hq).1, (hQ w' a hq).2, hq⟩

/-- What a program that completes has done, in a regime that it keeps. -/
theorem Completes.and_runs
    {Q' : γ → Tale S K → α → Prop} (h : Completes nested w act Q) (hR : R.Runs nested g w act Q') :
    R.Runs nested g w act fun g' w' a => Q w' a ∧ Q' g' w' a := by
  obtain ⟨a, w', htell, hq⟩ := h
  have hR : R.Goes g w Q' (act.tell nested w) := hR
  show R.Goes g w _ (act.tell nested w)
  rw [htell] at hR ⊢
  obtain ⟨g', hle, hw', hq'⟩ := hR
  exact ⟨g', hle, hw', hq, hq'⟩

end Act

end ReactiveTree
