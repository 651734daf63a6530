import ReactiveTree.Proofs.Number.Numeral
import ReactiveTree.Time.Duration

/-!
# The text of a duration

A duration is written as a row of amounts, of which only the last has a fraction. An amount is read
back as what was written (`readAmounts_showScaled`), and so is the duration (`read_showInt`).
-/

namespace ReactiveTree.Number

theorem isDigit_iff {c : Char} : c.isDigit = true ↔ 48 ≤ c.toNat ∧ c.toNat ≤ 57 := by
  rw [Char.isDigit, Bool.and_eq_true, decide_eq_true_eq, decide_eq_true_eq]
  exact Iff.rfl

theorem isDigit_of_digit {c : Char} {d : Nat} (h : Digit 10 c d) : c.isDigit = true := by
  obtain ⟨h, hd⟩ := h
  unfold hexValue? at h
  split at h
  · rename_i hc
    simpa [Char.isDigit, Char.le_def] using hc
  split at h
  · cases h
    omega
  split at h
  · cases h
    omega
  · cases h

theorem forall_isDigit {cs : List Char} {values : List Nat}
    (h : List.Forall₂ (Digit 10) cs values) : ∀ c ∈ cs, c.isDigit = true := by
  induction h with
  | nil => nofun
  | cons hd _ ih => exact List.forall_mem_cons.2 ⟨isDigit_of_digit hd, ih⟩

theorem isDigit_toDigits (n : Nat) : ∀ c ∈ Nat.toDigits 10 n, c.isDigit = true := by
  obtain ⟨values, h, -⟩ := exists_values_toDigits (show 1 < 10 by omega) (by omega) n
  exact forall_isDigit h

theorem splitSign_toDigits (n : Nat) (rest : List Char) :
    splitSign (Nat.toDigits 10 n ++ rest) = (false, Nat.toDigits 10 n ++ rest) := by
  have hdigits := isDigit_toDigits n
  cases h : Nat.toDigits 10 n with
  | nil => exact absurd h Nat.toDigits_ne_nil
  | cons c cs =>
    have hc : c.isDigit = true := hdigits c (by simp [h])
    rw [List.cons_append]
    unfold splitSign
    split
    · rename_i heq
      cases heq
      cases hc
    · rename_i heq
      cases heq
      cases hc
    · rfl

/-- Zeros at the end of digits, here turned around, stand for powers of the base. -/
theorem exists_dropWhile_zero {cs : List Char} {values : List Nat}
    (h : List.Forall₂ (Digit 10) cs values) :
    ∃ kept, List.Forall₂ (Digit 10) (cs.dropWhile (· == '0')) kept ∧
      kept.length ≤ values.length ∧ numeral 10 0 values.reverse =
        numeral 10 0 kept.reverse * 10 ^ (values.length - kept.length) := by
  induction h with
  | nil => exact ⟨[], .nil, le_rfl, rfl⟩
  | @cons c d cs values hd h ih =>
    by_cases hc : c = '0'
    · obtain ⟨kept, hkept, hle, heq⟩ := ih
      subst hc
      obtain rfl : 0 = d := Option.some.inj hd.1
      refine ⟨kept, hkept, Nat.le_succ_of_le hle, ?_⟩
      calc numeral 10 0 (0 :: values).reverse = numeral 10 0 values.reverse * 10 := by
            simp [numeral]
        _ = numeral 10 0 kept.reverse * 10 ^ ((0 :: values).length - kept.length) := by
            rw [heq, List.length_cons, Nat.succ_sub hle, Nat.pow_succ, Nat.mul_assoc]
    · rw [List.dropWhile_cons_of_neg (by simpa using hc)]
      exact ⟨d :: values, .cons hd h, le_rfl, by simp⟩

end ReactiveTree.Number

namespace ReactiveTree.Duration

open Number

variable {n v total rounds unit places : Nat} {name rest digits : List Char} {values : List Nat}

theorem fractionPart_eq (h : List.Forall₂ (Digit 10) digits values)
    (hle : numeral 10 n values ≤ limit) :
    fractionPart n places digits = (numeral 10 n values, places + values.length) := by
  induction h generalizing n places with
  | nil => rfl
  | @cons c d digits values hd _ ih =>
    have hn : n * 10 + d ≤ limit := (le_numeral (by omega) _ values).trans hle
    rw [fractionPart, addDigit_eq_ok_iff.2 ⟨d, hd, rfl, hn⟩]
    exact (ih hle).trans (by rw [List.length_cons, Nat.add_right_comm]; rfl)

theorem of_unit?_eq_some (h : unit? name = some unit) :
    0 < unit ∧ name ≠ [] ∧ ∀ c ∈ name, isUnitChar c = true := by
  unfold unit? at h
  split at h <;> cases h <;> exact ⟨by decide, by simp, by simp [isUnitChar]⟩

theorem span_append {p : Char → Bool} {l r : List Char} (hl : ∀ c ∈ l, p c = true)
    (hr : ∀ c ∈ r.head?, p c = false) :
    (l ++ r).takeWhile p = l ∧ (l ++ r).dropWhile p = r := by
  rw [List.takeWhile_append_of_pos hl, List.dropWhile_append_of_pos hl]
  cases r with
  | nil => simp
  | cons c r => simp [hr c rfl]

theorem not_isDigit_of_isUnitChar {c : Char} (h : isUnitChar c = true) : c.isDigit = false := by
  simp_all [isUnitChar]

theorem splitFraction_withPoint (hdigits : ∀ c ∈ digits, c.isDigit = true)
    (hname : name ≠ [] ∧ ∀ c ∈ name, isUnitChar c = true) :
    splitFraction (withPoint digits ++ (name ++ rest)) = (digits, name ++ rest) := by
  obtain ⟨c, cs, rfl⟩ := List.exists_cons_of_ne_nil hname.1
  have hc := hname.2 c (by simp)
  cases digits with
  | nil =>
    unfold splitFraction
    split
    · rename_i heq
      cases heq
      cases hc
    · rfl
  | cons d digits =>
    obtain ⟨htake, hdrop⟩ := span_append (r := c :: cs ++ rest) hdigits (by
      rintro _ ⟨⟩
      exact not_isDigit_of_isUnitChar hc)
    exact Prod.ext htake hdrop

/-- Reads one amount and goes on behind its unit. -/
theorem readAmounts_append (hdigits : List.Forall₂ (Digit 10) digits values)
    (hunit : unit? name = some unit) (hrest : ∀ c ∈ rest.head?, isUnitChar c = false)
    (hvalues : numeral 10 0 values ≤ limit)
    (hle : total + v * unit + partOf unit (numeral 10 0 values) values.length ≤ limit) :
    readAmounts (rounds + 1) (Nat.toDigits 10 v ++ (withPoint digits ++ (name ++ rest))) total =
      readAmounts rounds rest
        (total + v * unit + partOf unit (numeral 10 0 values) values.length) := by
  obtain ⟨hpos, hname⟩ := of_unit?_eq_some hunit
  have hsplit : splitFraction (withPoint digits ++ (name ++ rest)) = _ :=
    splitFraction_withPoint (forall_isDigit hdigits) hname
  have hhead : ∀ c ∈ (withPoint digits ++ (name ++ rest)).head?, c.isDigit = false := by
    obtain ⟨c, cs, rfl⟩ := List.exists_cons_of_ne_nil hname.1
    have hc := not_isDigit_of_isUnitChar (hname.2 c (by simp))
    cases digits with
    | nil => simpa [withPoint] using hc
    | cons d digits => simp [withPoint]
  obtain ⟨htake, hdrop⟩ := span_append (isDigit_toDigits v) hhead
  obtain ⟨htake', hdrop'⟩ := span_append hname.2 hrest
  have hv : v ≤ limit := by
    have := Nat.le_mul_of_pos_right v hpos
    omega
  have hread : (Nat.toDigits 10 v).foldlM (addDigit 10 limit) 0 = .ok v := by
    obtain ⟨ds, hds, hnumeral⟩ := exists_values_toDigits (show 1 < 10 by omega) (by omega) v
    exact (foldlM_addDigit_iff (by omega) (by omega)).2 ⟨ds, hds, hnumeral.symm, hv⟩
  have hfraction : fractionPart 0 0 digits = _ := fractionPart_eq hdigits hvalues
  have hnil : (Nat.toDigits 10 v).isEmpty = false := by simp [Nat.toDigits_ne_nil]
  obtain ⟨c, cs, hcons⟩ := List.exists_cons_of_ne_nil
    (show Nat.toDigits 10 v ++ (withPoint digits ++ (name ++ rest)) ≠ [] by
      simp [Nat.toDigits_ne_nil])
  rw [hcons, readAmounts, ← hcons, htake, hdrop, hsplit]
  · dsimp only
    rw [htake', hdrop', hread, hunit, hfraction]
    simp only [hnil, Bool.false_and, Bool.false_eq_true, if_false, List.isEmpty_iff, hname.1,
      Nat.zero_add]
    rw [if_neg (by omega)]
  · nofun

theorem readAmounts_nil : readAmounts rounds [] total = .ok total := by
  cases rounds <;> rfl

theorem exists_showScaled (n places : Nat) : ∃ digits values,
    showScaled n places = Nat.toDigits 10 (n / 10 ^ places) ++ withPoint digits ∧
      List.Forall₂ (Digit 10) digits values ∧ values.length ≤ places ∧
        numeral 10 0 values * 10 ^ (places - values.length) = n % 10 ^ places := by
  cases places with
  | zero =>
    exact ⟨[], [], by simp [showScaled, withPoint, Nat.mod_one], .nil, le_rfl,
      by simp [numeral, Nat.mod_one]⟩
  | succ places =>
    have hread := readNat_toDigits (show 1 < 10 by omega) (by omega)
      (places + 1 - (Nat.toDigits 10 (n % 10 ^ (places + 1))).length)
      (Nat.mod_le n (10 ^ (places + 1)))
    obtain ⟨-, values, hvalues, hnumeral, -⟩ := (readNat_eq_ok_iff (by omega)).1 hread
    obtain ⟨kept, hkept, hlength, heq⟩ := exists_dropWhile_zero (List.rel_reverse hvalues)
    have hlen := hvalues.length_eq
    have hle := (Nat.length_toDigits_le_iff (b := 10) (k := places + 1) (by omega) (by omega)).2
      (Nat.mod_lt n (Nat.pow_pos (by omega)))
    rw [List.length_append, List.length_replicate, Nat.sub_add_cancel hle] at hlen
    rw [List.length_reverse, ← hlen] at hlength heq
    rw [List.reverse_reverse, ← hnumeral] at heq
    refine ⟨_, kept.reverse, rfl, List.rel_reverse hkept, ?_, ?_⟩
    · rwa [List.length_reverse]
    · rw [List.length_reverse, ← heq]

theorem partOf_pow (hle : values.length ≤ places) (hplaces : places ≤ 9)
    (heq : numeral 10 0 values * 10 ^ (places - values.length) = n % 10 ^ places) :
    partOf (10 ^ places) (numeral 10 0 values) values.length = n % 10 ^ places := by
  have hlt : n % 10 ^ places < 2 ^ 53 :=
    calc n % 10 ^ places < 10 ^ places := Nat.mod_lt _ (Nat.pow_pos (by omega))
      _ ≤ 10 ^ 9 := Nat.pow_le_pow_right (by omega) hplaces
      _ ≤ 2 ^ 53 := by omega
  rw [partOf, Nat.pow_eq, Nat.mod_eq_zero_of_dvd (Nat.pow_dvd_pow 10 hle),
    Nat.pow_div hle (by omega), heq, if_pos (by simpa using hlt)]

theorem readAmounts_showScaled (hplaces : places ≤ 9) (hunit : unit? name = some (10 ^ places))
    (hrest : ∀ c ∈ rest.head?, isUnitChar c = false) (hle : total + n ≤ limit) :
    readAmounts (rounds + 1) (showScaled n places ++ (name ++ rest)) total =
      readAmounts rounds rest (total + n) := by
  obtain ⟨digits, values, htext, hdigits, hlength, heq⟩ := exists_showScaled n places
  have hpart := partOf_pow hlength hplaces heq
  have hvalues : numeral 10 0 values ≤ n :=
    calc numeral 10 0 values ≤ numeral 10 0 values * 10 ^ (places - values.length) :=
          Nat.le_mul_of_pos_right _ (Nat.pow_pos (by omega))
      _ ≤ n := heq ▸ Nat.mod_le n _
  have hsum : total + n / 10 ^ places * 10 ^ places + n % 10 ^ places = total + n := by
    rw [Nat.add_assoc, Nat.div_add_mod']
  rw [htext, List.append_assoc, readAmounts_append hdigits hunit hrest (by omega) (by omega),
    hpart, hsum]

theorem readAmounts_whole (hunit : unit? name = some unit)
    (hrest : ∀ c ∈ rest.head?, isUnitChar c = false) (hle : total + v * unit ≤ limit) :
    readAmounts (rounds + 1) (Nat.toDigits 10 v ++ (name ++ rest)) total =
      readAmounts rounds rest (total + v * unit) := by
  have hpart : partOf unit (numeral 10 0 []) ([] : List Nat).length = 0 := by
    simp [partOf, numeral, Nat.mod_one]
  have h : readAmounts (rounds + 1) (Nat.toDigits 10 v ++ (withPoint [] ++ (name ++ rest))) total =
      _ := readAmounts_append .nil hunit hrest (Nat.zero_le _) (by omega)
  rw [hpart] at h
  exact h

theorem readAmounts_last (hplaces : places ≤ 9) (hunit : unit? name = some (10 ^ places))
    (hrounds : 0 < rounds) (hle : total + n ≤ limit) :
    readAmounts rounds (showScaled n places ++ name) total = .ok (total + n) := by
  obtain ⟨rounds, rfl⟩ := Nat.exists_eq_succ_of_ne_zero hrounds.ne'
  have h : readAmounts (rounds + 1) (showScaled n places ++ (name ++ [])) total = _ :=
    readAmounts_showScaled hplaces hunit (by simp) hle
  rwa [List.append_nil, readAmounts_nil] at h

theorem head_toDigits (v : Nat) (rest : List Char) :
    ∀ c ∈ (Nat.toDigits 10 v ++ rest).head?, isUnitChar c = false := by
  have hdigits := isDigit_toDigits v
  cases h : Nat.toDigits 10 v with
  | nil => exact absurd h Nat.toDigits_ne_nil
  | cons c cs =>
    rintro _ ⟨⟩
    simp [isUnitChar, hdigits c (by simp [h])]

theorem readAmounts_showNat (hn : n ≤ limit) :
    readAmounts (showNat n).length (showNat n) 0 = .ok n := by
  have hsum : n / minute / 60 * hour + n / minute % 60 * minute + n % minute = n := by
    simp only [hour, minute, second, millisecond, microsecond]
    omega
  have hseconds {rounds total : Nat} (hrounds : 0 < rounds) (hle : total + n % minute ≤ limit) :
      readAmounts rounds (showScaled (n % minute) 9 ++ ['s']) total = .ok (total + n % minute) :=
    readAmounts_last le_rfl rfl hrounds hle
  have hhead : ∀ c ∈ (showScaled (n % minute) 9 ++ ['s']).head?, isUnitChar c = false := by
    rw [showScaled, List.append_assoc]
    exact head_toDigits _ _
  have hminutes {rounds total : Nat} (hrounds : 1 < rounds)
      (hle : total + n / minute % 60 * minute + n % minute ≤ limit) :
      readAmounts rounds (Nat.toDigits 10 (n / minute % 60) ++
        'm' :: (showScaled (n % minute) 9 ++ ['s'])) total =
        .ok (total + n / minute % 60 * minute + n % minute) := by
    obtain ⟨rounds, rfl⟩ := Nat.exists_eq_add_of_lt hrounds
    have hunit : unit? ['m'] = some minute := rfl
    exact (readAmounts_whole hunit hhead (by omega)).trans (hseconds (by omega) hle)
  have hsmall {places : Nat} {name : List Char} (hplaces : places ≤ 9)
      (hunit : unit? name = some (10 ^ places)) :
      readAmounts (showScaled n places ++ name).length (showScaled n places ++ name) 0 = .ok n := by
    have hpos := List.length_pos_of_ne_nil (of_unit?_eq_some hunit).2.1
    simpa using readAmounts_last hplaces hunit
      (show 0 < (showScaled n places ++ name).length by simp; omega) (show 0 + n ≤ limit by omega)
  unfold showNat
  split
  · rename_i h
    have hzero : ['0', 's'] = showScaled n 9 ++ ['s'] := by
      subst h
      decide
    rw [hzero]
    exact hsmall le_rfl rfl
  split
  · exact hsmall (Nat.zero_le 9) rfl
  split
  · exact hsmall (by omega) rfl
  split
  · exact hsmall (by omega) rfl
  dsimp only
  split
  · rename_i h
    rw [h, Nat.zero_div, Nat.zero_mod, Nat.zero_mul, Nat.zero_mul] at hsum
    exact (hseconds (by simp) (by omega)).trans (congrArg _ hsum)
  split
  · rename_i h
    rw [h, Nat.zero_mul] at hsum
    exact (hminutes (by simp; omega) (by omega)).trans (congrArg _ hsum)
  · have hunit : unit? ['h'] = some hour := rfl
    obtain ⟨rounds, hlength⟩ := Nat.exists_eq_add_of_lt (show 2 < (Nat.toDigits 10
      (n / minute / 60) ++ 'h' :: (Nat.toDigits 10 (n / minute % 60) ++
        'm' :: (showScaled (n % minute) 9 ++ ['s']))).length by simp; omega)
    rw [hlength]
    refine (readAmounts_whole hunit (head_toDigits _ _) (by omega)).trans ?_
    exact (hminutes (by omega) (by omega)).trans (congrArg _ (by omega))

theorem exists_showNat (n : Nat) :
    ∃ v rest, showNat n = Nat.toDigits 10 v ++ rest ∧ 's' ∈ rest := by
  have hscaled (m places : Nat) (name : List Char) (hname : 's' ∈ name) :
      ∃ v rest, showScaled m places ++ name = Nat.toDigits 10 v ++ rest ∧ 's' ∈ rest :=
    ⟨_, _, List.append_assoc .., List.mem_append_right _ hname⟩
  unfold showNat
  split
  · exact ⟨0, ['s'], rfl, by simp⟩
  split
  · exact hscaled _ _ _ (by simp)
  split
  · exact hscaled _ _ _ (by simp)
  split
  · exact hscaled _ _ _ (by simp)
  dsimp only
  split
  · exact hscaled _ _ _ (by simp)
  split
  · exact ⟨_, _, rfl, by simp⟩
  · exact ⟨_, _, rfl, by simp⟩

/-- A duration is read from its text. -/
theorem read_showInt {n : Int} (hn : -limit ≤ n) (hn' : n < limit) : read (showInt n) = .ok n := by
  obtain ⟨v, rest, htext, hs⟩ := exists_showNat n.natAbs
  have hne : showNat n.natAbs ≠ ['0'] := by
    intro h
    have hmem : 's' ∈ showNat n.natAbs := htext ▸ List.mem_append_right _ hs
    simp [h] at hmem
  have hempty : (showNat n.natAbs).isEmpty = false := by
    rw [htext]
    simp [Nat.toDigits_ne_nil]
  have hread := readAmounts_showNat (show n.natAbs ≤ limit by omega)
  unfold showInt
  split
  · have hsign : splitSign ('-' :: showNat n.natAbs) = (true, showNat n.natAbs) := rfl
    rw [read, hsign]
    simp only [if_neg hne, hempty, hread, if_true, Bool.false_eq_true, if_false]
    rw [Except.ok.injEq]
    omega
  · have hsign : splitSign (showNat n.natAbs) = (false, showNat n.natAbs) := by
      rw [htext]
      exact splitSign_toDigits v rest
    rw [read, hsign]
    simp only [if_neg hne, hempty, hread, Bool.false_eq_true, if_false]
    rw [if_pos (by omega), Except.ok.injEq]
    omega

end ReactiveTree.Duration
