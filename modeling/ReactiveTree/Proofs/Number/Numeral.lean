import Mathlib.Data.List.Forall2
import Mathlib.Tactic.IntervalCases
import ReactiveTree.Number.Reader

/-!
# Numerals

A run of digits is read as the number that its digits make up in their base, if this does not pass
the limit (`readNat_eq_ok_iff`); the digits that a number is written with make up that number
(`readNat_toDigits`).
-/

namespace ReactiveTree.Number

variable {base limit n m : Nat} {cs : List Char} {values : List Nat}

/-- `c` is the digit `d` of base `base`. -/
def Digit (base : Nat) (c : Char) (d : Nat) : Prop := hexValue? c = some d ∧ d < base

/-- The number that digits make up behind the number `n`. -/
def numeral (base : Nat) (n : Nat) (values : List Nat) : Nat :=
  values.foldl (fun n d => n * base + d) n

theorem le_numeral (hbase : 0 < base) (n : Nat) (values : List Nat) :
    n ≤ numeral base n values := by
  induction values generalizing n with
  | nil => exact Nat.le_refl n
  | cons d values ih =>
    calc n ≤ n * base := Nat.le_mul_of_pos_right n hbase
      _ ≤ n * base + d := Nat.le_add_right _ d
      _ ≤ _ := ih _

theorem numeral_lt (hvalues : ∀ d ∈ values, d < base) :
    numeral base n values < (n + 1) * base ^ values.length := by
  induction values generalizing n with
  | nil => simp [numeral]
  | cons d values ih =>
    obtain ⟨hd, hvalues⟩ := List.forall_mem_cons.1 hvalues
    calc numeral base (n * base + d) values
      _ < (n * base + d + 1) * base ^ values.length := ih hvalues
      _ ≤ ((n + 1) * base) * base ^ values.length :=
        Nat.mul_le_mul_right _ (by rw [Nat.add_mul]; omega)
      _ = (n + 1) * base ^ (values.length + 1) := by rw [Nat.mul_assoc, Nat.pow_succ']

theorem addDigit_eq_ok_iff {c : Char} :
    addDigit base limit n c = .ok m ↔ ∃ d, Digit base c d ∧ m = n * base + d ∧ m ≤ limit := by
  unfold addDigit Digit
  cases hexValue? c with
  | none => simp
  | some d =>
    by_cases hd : d < base
    · by_cases hle : n * base + d ≤ limit
      · simp only [if_pos hd, if_pos hle, Except.ok.injEq, Option.some.injEq]
        constructor
        · rintro rfl
          exact ⟨d, ⟨rfl, hd⟩, rfl, hle⟩
        · rintro ⟨-, ⟨rfl, -⟩, rfl, -⟩
          rfl
      · simp only [if_pos hd, if_neg hle, reduceCtorEq, false_iff]
        rintro ⟨d', ⟨heq, -⟩, rfl, hm⟩
        cases heq
        exact hle hm
    · simp only [if_neg hd, reduceCtorEq, false_iff]
      rintro ⟨d', ⟨heq, hd'⟩, -⟩
      cases heq
      exact hd hd'

theorem foldlM_addDigit_iff (hbase : 0 < base) (hn : n ≤ limit) :
    cs.foldlM (addDigit base limit) n = .ok m ↔
      ∃ values, List.Forall₂ (Digit base) cs values ∧ m = numeral base n values ∧ m ≤ limit := by
  induction cs generalizing n with
  | nil =>
    constructor
    · rintro ⟨⟩
      exact ⟨[], .nil, rfl, hn⟩
    · rintro ⟨_, ⟨⟩, rfl, -⟩
      rfl
  | cons c cs ih =>
    rw [List.foldlM_cons]
    constructor
    · intro h
      cases hadd : addDigit base limit n c with
      | error e => rw [hadd] at h; cases h
      | ok k =>
        rw [hadd] at h
        obtain ⟨d, hd, rfl, hk⟩ := addDigit_eq_ok_iff.1 hadd
        obtain ⟨values, hvalues, hm, hle⟩ := (ih hk).1 h
        exact ⟨d :: values, .cons hd hvalues, hm, hle⟩
    · rintro ⟨_, hall, rfl, hle⟩
      obtain ⟨d, values, hd, hvalues, rfl⟩ := List.forall₂_cons_left_iff.1 hall
      -- what was read so far is at most the whole number
      have hk : n * base + d ≤ limit := (le_numeral hbase _ values).trans hle
      rw [addDigit_eq_ok_iff.2 ⟨d, hd, rfl, hk⟩]
      exact (ih hk).2 ⟨values, hvalues, rfl, hle⟩

theorem readNat_eq_ok_iff (hbase : 0 < base) :
    readNat base limit cs = .ok m ↔ cs ≠ [] ∧
      ∃ values, List.Forall₂ (Digit base) cs values ∧ m = numeral base 0 values ∧ m ≤ limit := by
  cases cs with
  | nil => simp [readNat]
  | cons c cs =>
    rw [readNat, if_neg (by simp), foldlM_addDigit_iff hbase (Nat.zero_le limit)]
    simp

/-! ## Written numbers -/

theorem digit_digitChar (hbase : base ≤ 16) (hn : n < base) : Digit base n.digitChar n := by
  refine ⟨?_, hn⟩
  have hn : n < 16 := by omega
  interval_cases n <;> rfl

theorem exists_values_toDigits (hbase : 1 < base) (hbase' : base ≤ 16) (n : Nat) :
    ∃ values, List.Forall₂ (Digit base) (Nat.toDigits base n) values ∧
      numeral base 0 values = n := by
  induction n using Nat.strongRecOn with
  | ind n ih =>
    by_cases hlt : n < base
    · rw [Nat.toDigits_of_lt_base hlt]
      exact ⟨[n], .cons (digit_digitChar hbase' hlt) .nil, by simp [numeral]⟩
    · have hle := not_lt.1 hlt
      obtain ⟨values, hvalues, hnumeral⟩ := ih (n / base) (Nat.div_lt_self (by omega) hbase)
      have hlast := digit_digitChar hbase' (Nat.mod_lt n (by omega))
      refine ⟨values ++ [n % base], ?_, ?_⟩
      · rw [Nat.toDigits_of_base_le hbase hle]
        exact List.rel_append hvalues (.cons hlast .nil)
      · calc numeral base 0 (values ++ [n % base]) = numeral base 0 values * base + n % base := by
              simp [numeral]
          _ = n := by rw [hnumeral, Nat.div_add_mod']

theorem readNat_toDigits (hbase : 1 < base) (hbase' : base ≤ 16) (zeros : Nat) (hn : n ≤ limit) :
    readNat base limit (List.replicate zeros '0' ++ Nat.toDigits base n) = .ok n := by
  refine (readNat_eq_ok_iff (by omega)).2 ⟨by simp [Nat.toDigits_ne_nil], ?_⟩
  induction zeros with
  | zero =>
    obtain ⟨values, hvalues, hnumeral⟩ := exists_values_toDigits hbase hbase' n
    exact ⟨values, hvalues, hnumeral.symm, hn⟩
  | succ zeros ih =>
    obtain ⟨values, hvalues, hnumeral, hn⟩ := ih
    exact ⟨0 :: values, .cons ⟨rfl, by omega⟩ hvalues, by simpa [numeral] using hnumeral, hn⟩

end ReactiveTree.Number
