import ReactiveTree.Animation.Lerp
import ReactiveTree.Item.Layout
import ReactiveTree.Value.Coerce

/-!
# Values of a declared kind

A value fits a declared kind if it has it; the kind `void` takes every value. What conversion,
the zero of a kind, interpolation and the tables of the item kinds give fits.
-/

namespace ReactiveTree

/-- May a property declared with kind `k` hold this value? -/
def Value.Fits (v : Value) (k : Kind) : Prop := k = .void ∨ v.kind = k

instance (v : Value) (k : Kind) : Decidable (v.Fits k) := inferInstanceAs (Decidable (_ ∨ _))

namespace Value

theorem fits_void (v : Value) : v.Fits .void := .inl rfl

theorem zero_fits (k : Kind) : (zero k).Fits k := .inr (kind_zero k)

theorem kind_of_floatToInt {x : Float} {fail : CoercionFault → CoercionError} {u : Value}
    (h : (match floatToInt x with
      | .ok n => Except.ok (Value.int n)
      | .error fault => .error (fail fault)) = .ok u) : u.kind = .int := by
  split at h
  · cases h; rfl
  · cases h

theorem kind_of_coerce {v u : Value} {k : Kind} (h : v.coerce k = .ok u) : u.kind = k := by
  unfold coerce at h
  split at h
  · next hk => cases h; exact hk
  · split at h
    case h_1 => cases h; exact kind_zero _
    case h_4 => exact kind_of_floatToInt h
    case h_5 =>
      split at h
      · cases h; rfl
      · split at h
        · cases h
        · exact kind_of_floatToInt h
    -- what is read from a text, or has to be finite, has a case in which it fails
    case h_3 | h_8 | h_15 | h_18 =>
      split at h
      · cases h; rfl
      · cases h
    case h_17 =>
      split at h
      · cases h
      · cases h; rfl
    case h_19 => cases h
    all_goals
      cases h
      rfl

theorem coerceTo_fits {v u : Value} {k : Kind} (h : v.coerceTo k = .ok u) : u.Fits k := by
  unfold coerceTo at h
  split at h
  · exact .inl ‹_›
  · exact .inr (kind_of_coerce h)

/-! ## Milliseconds -/

/-- An int becomes a duration without a check. The duration has as many milliseconds, and gives the
int back, exactly if that many fit. -/
theorem coerce_milliseconds (n : Int64) :
    (Value.int n).coerce .duration = .ok (.duration (n * nsPerMs)) ∧
      ((n * nsPerMs).toInt = n.toInt * 1000000 ↔ n.toInt.natAbs ≤ 9223372036854) ∧
      ((Value.duration (n * nsPerMs)).coerce .int = .ok (.int n) ↔
        n.toInt.natAbs ≤ 9223372036854) := by
  have hmul : (n * nsPerMs).toInt = (n.toInt * 1000000).bmod (2 ^ 64) := Int64.toInt_mul ..
  have hdiv : (n * nsPerMs / nsPerMs).toInt = (n * nsPerMs).toInt.tdiv 1000000 :=
    Int64.toInt_div_of_ne_right _ _ (by decide)
  have hle := (n * nsPerMs).le_toInt
  have hlt := (n * nsPerMs).toInt_lt
  rw [Int.bmod_def] at hmul
  refine ⟨rfl, by omega, ?_⟩
  show Except.ok (Value.int (n * nsPerMs / nsPerMs)) = _ ↔ _
  rw [Except.ok.injEq, Value.int.injEq, ← Int64.toInt_inj, hdiv, Int.tdiv_eq_ediv]
  have hsign : Int.sign 1000000 = 1 := rfl
  split at hmul <;> split <;> omega

theorem milliseconds_wrap :
    (Value.int 9223372036855).coerce .duration = .ok (.duration (-9223372036854551616)) := rfl

end Value

/-- Between two values of one kind, interpolation keeps the kind. -/
theorem Lerp.value_fits {a b : Value} {k : Kind} (ha : a.Fits k) (hb : b.Fits k) (t : Float) :
    (Lerp.value a b t).Fits k := by
  rcases ha with rfl | rfl
  · exact .inl rfl
  · rcases hb with hb | hb
    · exact .inl hb
    · right
      cases a <;> cases b <;> cases hb <;> rfl

/-- The initial values of the built-in properties have their kinds. -/
theorem ItemKind.default_fits (k : ItemKind) :
    ∀ decl ∈ k.layout.props, decl.default.Fits decl.kind := by
  cases k <;>
    simp [ItemKind.layout, Layout.make, Layout.geometry, Layout.float, Layout.bool, Layout.string,
      Layout.color, Value.Fits, Value.kind]

end ReactiveTree
