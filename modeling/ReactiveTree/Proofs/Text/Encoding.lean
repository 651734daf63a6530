import Mathlib.Data.List.TakeWhile
import ReactiveTree.Text.Basic

/-!
# Reading encoded characters

The encoding of a character is read back as that character, whatever follows it, and what is read
as a character is its encoding. So a byte string is made of its pieces, and a text of characters
has just these as its pieces.
-/

namespace ReactiveTree.Utf8

theorem isContinuation_iff {b : UInt8} :
    isContinuation b = true ↔ 128 ≤ b.toNat ∧ b.toNat ≤ 191 := by
  simp [isContinuation, UInt8.le_iff_toNat_le]

theorem toNat_ofNat {n : Nat} (h : n < 256) : (UInt8.ofNat n).toNat = n :=
  UInt8.toNat_ofNat_of_lt' h

theorem isContinuation_ofNat (n : Nat) : isContinuation (UInt8.ofNat (n % 64 + 128)) = true := by
  rw [isContinuation_iff, toNat_ofNat (by omega)]
  omega

theorem payload_ofNat (n : Nat) : payload (UInt8.ofNat (n % 64 + 128)) = n % 64 := by
  rw [payload, toNat_ofNat (by omega)]
  omega

theorem decodeFirst_append (c : Char) (rest : List UInt8) :
    decodeFirst (String.utf8EncodeChar c ++ rest) =
      some (c, (String.utf8EncodeChar c).length) := by
  have hvalid : c.val.toNat < 0xD800 ∨ 0xDFFF < c.val.toNat ∧ c.val.toNat < 0x110000 := c.valid
  have hc : ∀ n, n = c.val.toNat → Char.ofNat n = c := by
    rintro n rfl
    exact c.ofNat_toNat
  rw [String.utf8EncodeChar]
  generalize c.val.toNat = v at hvalid hc
  have hcont := isContinuation_ofNat
  split
  · simp only [List.singleton_append, decodeFirst, UInt8.lt_iff_toNat_lt, UInt8.reduceToNat,
      toNat_ofNat (n := v) (by omega)]
    rw [if_pos (by omega), hc v rfl]
    rfl
  split
  · simp only [List.cons_append, List.nil_append, decodeFirst, UInt8.lt_iff_toNat_lt,
      UInt8.reduceToNat, toNat_ofNat (n := v / 64 % 32 + 192) (by omega), payload_ofNat]
    rw [if_neg (by omega), if_neg (by omega), if_pos (by omega), if_pos (hcont _), hc _ (by omega)]
    rfl
  split
  · simp only [List.cons_append, List.nil_append, decodeFirst, UInt8.lt_iff_toNat_lt,
      UInt8.le_iff_toNat_le, ← UInt8.toNat_inj, UInt8.reduceToNat, apply_ite UInt8.toNat, hcont,
      payload_ofNat, toNat_ofNat (n := v / 4096 % 16 + 224) (by omega),
      toNat_ofNat (n := v / 64 % 64 + 128) (by omega)]
    rw [if_neg (by omega), if_neg (by omega), if_neg (by omega), if_pos (by omega), if_pos,
      hc _ (by omega)]
    · rfl
    · simp only [Bool.and_true, Bool.and_eq_true, decide_eq_true_eq]
      split <;> split <;> omega
  · simp only [List.cons_append, List.nil_append, decodeFirst, UInt8.lt_iff_toNat_lt,
      UInt8.le_iff_toNat_le, ← UInt8.toNat_inj, UInt8.reduceToNat, apply_ite UInt8.toNat, hcont,
      payload_ofNat, toNat_ofNat (n := v / 262144 % 8 + 240) (by omega),
      toNat_ofNat (n := v / 4096 % 64 + 128) (by omega)]
    rw [if_neg (by omega), if_neg (by omega), if_neg (by omega), if_neg (by omega),
      if_pos (by omega), if_pos, hc _ (by omega)]
    · rfl
    · simp only [Bool.and_true, Bool.and_eq_true, decide_eq_true_eq]
      split <;> split <;> omega

theorem val_ofNat {n : Nat} (h : n.isValidChar) : (Char.ofNat n).val.toNat = n := by
  rw [Char.ofNat, dif_pos h]
  rfl

theorem decodeFirst_eq_some {bs : List UInt8} {c : Char} {width : Nat}
    (h : decodeFirst bs = some (c, width)) :
    ∃ rest, bs = String.utf8EncodeChar c ++ rest ∧ width = (String.utf8EncodeChar c).length := by
  suffices hbytes : ∃ rest, bs = String.utf8EncodeChar c ++ rest by
    obtain ⟨rest, rfl⟩ := hbytes
    rw [decodeFirst_append] at h
    cases h
    exact ⟨rest, rfl, rfl⟩
  have hbyte {n : Nat} (b : UInt8) (hb : n = b.toNat) : UInt8.ofNat n = b := by
    subst hb
    exact UInt8.ofNat_toNat
  revert h
  fun_cases decodeFirst bs with
  | case2 b0 rest h0 =>
    rintro ⟨⟩
    have h0 : b0.toNat < 128 := UInt8.lt_iff_toNat_lt.1 h0
    rw [String.utf8EncodeChar, val_ofNat (.inl (by omega)), if_pos (by omega), hbyte b0 rfl]
    exact ⟨rest, rfl⟩
  | case4 b0 h0 h1 h2 b1 rest hb =>
    rintro ⟨⟩
    simp only [UInt8.lt_iff_toNat_lt, UInt8.reduceToNat, isContinuation_iff] at h0 h1 h2 hb
    rw [String.utf8EncodeChar, payload, val_ofNat (.inl (by omega)), if_neg (by omega),
      if_pos (by omega), hbyte b0 (by omega), hbyte b1 (by omega)]
    exact ⟨rest, rfl⟩
  | case7 b0 h0 h1 h2 h3 b1 b2 rest low high hb =>
    rintro ⟨⟩
    obtain ⟨hb1, hlow, hb2⟩ : (128 ≤ b1.toNat ∧ b1.toNat ≤ 191) ∧
        (b0.toNat = 224 → 160 ≤ b1.toNat) ∧ (b0.toNat = 237 → b1.toNat ≤ 159) ∧
        128 ≤ b2.toNat ∧ b2.toNat ≤ 191 := by
      simp only [low, high, UInt8.le_iff_toNat_le, ← UInt8.toNat_inj, UInt8.reduceToNat,
        isContinuation_iff, apply_ite UInt8.toNat, Bool.and_eq_true, decide_eq_true_eq] at hb
      split at hb <;> split at hb <;> omega
    simp only [UInt8.lt_iff_toNat_lt, UInt8.reduceToNat] at h0 h1 h2 h3
    rw [String.utf8EncodeChar, payload, payload, val_ofNat (by unfold Nat.isValidChar; omega),
      if_neg (by omega), if_neg (by omega), if_pos (by omega), hbyte b0 (by omega),
      hbyte b1 (by omega), hbyte b2 (by omega)]
    exact ⟨rest, rfl⟩
  | case10 b0 h0 h1 h2 h3 h4 b1 b2 b3 rest low high hb =>
    rintro ⟨⟩
    obtain ⟨hb1, hlow, hb2⟩ : (128 ≤ b1.toNat ∧ b1.toNat ≤ 191) ∧
        (b0.toNat = 240 → 144 ≤ b1.toNat) ∧ (b0.toNat = 244 → b1.toNat ≤ 143) ∧
        (128 ≤ b2.toNat ∧ b2.toNat ≤ 191) ∧ 128 ≤ b3.toNat ∧ b3.toNat ≤ 191 := by
      simp only [low, high, UInt8.le_iff_toNat_le, ← UInt8.toNat_inj, UInt8.reduceToNat,
        isContinuation_iff, apply_ite UInt8.toNat, Bool.and_eq_true, decide_eq_true_eq] at hb
      split at hb <;> split at hb <;> omega
    simp only [UInt8.lt_iff_toNat_lt, UInt8.reduceToNat] at h0 h1 h2 h3 h4
    rw [String.utf8EncodeChar, payload, payload, payload,
      val_ofNat (by unfold Nat.isValidChar; omega), if_neg (by omega), if_neg (by omega),
      if_neg (by omega), hbyte b0 (by omega), hbyte b1 (by omega), hbyte b2 (by omega),
      hbyte b3 (by omega)]
    exact ⟨rest, rfl⟩
  | _ => exact nofun

/-! ## Pieces -/

theorem encodeChar_eq_cons (c : Char) : ∃ b bs, String.utf8EncodeChar c = b :: bs :=
  List.exists_cons_of_length_pos (by simp [c.utf8Size_pos])

theorem pieces_append (c : Char) (rest : List UInt8) :
    pieces (String.utf8EncodeChar c ++ rest) = .char c :: pieces rest := by
  have hskip (bs : List UInt8) : piecesAfter bs.length (bs ++ rest) = pieces rest := by
    induction bs with
    | nil => rfl
    | cons b bs ih => exact ih
  have hdecode := decodeFirst_append c rest
  obtain ⟨b, bs, h⟩ := encodeChar_eq_cons c
  rw [h, List.cons_append] at hdecode ⊢
  rw [pieces, piecesAfter, hdecode]
  exact congrArg _ (hskip bs)

theorem encode_append (cs cs' : List Char) : encode (cs ++ cs') = encode cs ++ encode cs' :=
  List.flatMap_append

theorem pieces_encode (cs : List Char) : pieces (encode cs) = cs.map .char := by
  induction cs with
  | nil => rfl
  | cons c cs ih =>
    rw [encode, List.flatMap_cons, pieces_append]
    exact congrArg _ ih

theorem flatMap_bytes_pieces (bs : List UInt8) : (pieces bs).flatMap Piece.bytes = bs := by
  suffices h : ∀ n, (piecesAfter n bs).flatMap Piece.bytes = bs.drop n from h 0
  induction bs with
  | nil => exact fun n => by simp [piecesAfter]
  | cons b bs ih =>
    intro n
    cases n with
    | succ n => exact ih n
    | zero =>
      rw [piecesAfter]
      split
      · rename_i c width h
        obtain ⟨rest, hbytes, rfl⟩ := decodeFirst_eq_some h
        obtain ⟨b', bs', hc⟩ := encodeChar_eq_cons c
        rw [hc, List.cons_append] at hbytes
        obtain ⟨rfl, rfl⟩ := List.cons.inj hbytes
        rw [List.flatMap_cons, ih, Piece.bytes, hc, List.length_cons, Nat.add_sub_cancel,
          List.drop_left]
        rfl
      · rw [List.flatMap_cons, ih]
        rfl

theorem decode?_encode (cs : List Char) : decode? (encode cs) = some cs := by
  rw [decode?, pieces_encode]
  induction cs with
  | nil => rfl
  | cons c cs ih => simp_all

end ReactiveTree.Utf8

namespace ReactiveTree

/-! ## Blanks around a text -/

theorem exists_trimWhere {α : Type} (p : α → Bool) (xs : List α) :
    ∃ l r, xs = l ++ trimWhere p xs ++ r ∧ (∀ x ∈ l, p x = true) ∧ ∀ x ∈ r, p x = true := by
  refine ⟨xs.takeWhile p, ((xs.dropWhile p).reverse.takeWhile p).reverse, ?_,
    fun x => List.mem_takeWhile_imp, fun x hx => List.mem_takeWhile_imp (List.mem_reverse.1 hx)⟩
  rw [List.append_assoc, trimWhere, ← List.reverse_append, List.takeWhile_append_dropWhile,
    List.reverse_reverse, List.takeWhile_append_dropWhile]

theorem trimWhere_append {α : Type} {p : α → Bool} {l xs r : List α} (hl : ∀ x ∈ l, p x = true)
    (hxs : ∀ x ∈ xs, p x = false) (hr : ∀ x ∈ r, p x = true) : trimWhere p (l ++ xs ++ r) = xs := by
  have hkeep (ys : List α) (hys : ∀ y ∈ ys, p y = false) : ys.dropWhile p = ys := by
    cases ys with
    | nil => rfl
    | cons y ys => exact List.dropWhile_cons_of_neg (by simp [hys])
  have hrev : ∀ x ∈ r.reverse, p x = true := fun x hx => hr x (List.mem_reverse.1 hx)
  rw [trimWhere, List.append_assoc, List.dropWhile_append_of_pos hl]
  cases xs with
  | nil => rw [List.nil_append, List.dropWhile_eq_nil_iff.2 hr]; rfl
  | cons x xs =>
    rw [List.cons_append, List.dropWhile_cons_of_neg (by simp [hxs]), ← List.cons_append,
      List.reverse_append, List.dropWhile_append_of_pos hrev,
      hkeep _ fun y hy => hxs y (List.mem_reverse.1 hy), List.reverse_reverse]

def Utf8.Piece.isBlank : Utf8.Piece → Bool
  | .char c => ReactiveTree.isBlank c
  | .stray _ => false

namespace Text

theorem trim_eq (t : Text) :
    t.trim = ⟨(trimWhere Utf8.Piece.isBlank (Utf8.pieces t.bytes)).flatMap Utf8.Piece.bytes⟩ := rfl

/-- A text is what is left of it without the blanks around it, and these. -/
theorem exists_trim (t : Text) : ∃ before after : List Char,
    t.bytes = Utf8.encode before ++ t.trim.bytes ++ Utf8.encode after ∧
      ∀ c ∈ before ++ after, isBlank c = true := by
  have hblank (ps : List Utf8.Piece) (h : ∀ p ∈ ps, p.isBlank = true) : ∃ cs : List Char,
      ps.flatMap Utf8.Piece.bytes = Utf8.encode cs ∧ ∀ c ∈ cs, isBlank c = true := by
    induction ps with
    | nil => exact ⟨[], rfl, nofun⟩
    | cons p ps ih =>
      obtain ⟨hp, hps⟩ := List.forall_mem_cons.1 h
      obtain ⟨cs, hcs, hall⟩ := ih hps
      cases p with
      | char c =>
        exact ⟨c :: cs, by simp [Utf8.encode, Utf8.Piece.bytes, hcs],
          List.forall_mem_cons.2 ⟨hp, hall⟩⟩
      | stray b => cases hp
  obtain ⟨l, r, heq, hl, hr⟩ := exists_trimWhere Utf8.Piece.isBlank (Utf8.pieces t.bytes)
  obtain ⟨before, hbefore, hblank₁⟩ := hblank l hl
  obtain ⟨after, hafter, hblank₂⟩ := hblank r hr
  refine ⟨before, after, ?_, List.forall_mem_append.2 ⟨hblank₁, hblank₂⟩⟩
  have hbytes := Utf8.flatMap_bytes_pieces t.bytes
  rw [heq, List.flatMap_append, List.flatMap_append, hbefore, hafter] at hbytes
  exact hbytes.symm

/-- The blanks around characters that are not blank are taken away. -/
theorem trim_encode {before cs after : List Char} (hblank : ∀ c ∈ before ++ after, isBlank c = true)
    (hcs : ∀ c ∈ cs, isBlank c = false) :
    trim ⟨Utf8.encode (before ++ cs ++ after)⟩ = ⟨Utf8.encode cs⟩ := by
  obtain ⟨hbefore, hafter⟩ := List.forall_mem_append.1 hblank
  rw [trim_eq, Utf8.pieces_encode, List.map_append, List.map_append,
    trimWhere_append (p := Utf8.Piece.isBlank) (List.forall_mem_map.2 hbefore)
      (List.forall_mem_map.2 hcs) (List.forall_mem_map.2 hafter), List.flatMap_map]
  rfl

end Text

end ReactiveTree
