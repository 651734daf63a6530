import ReactiveTree.Proofs.Number.Numeral
import ReactiveTree.Proofs.Text.Encoding
import ReactiveTree.Value.Color

/-!
# The written form of colors

What a text for a color looks like, as a relation between texts and channels, and the main
statement: reading accepts exactly these texts and gives the color with their channels. The text
that a color is written with is one of them.
-/

namespace ReactiveTree.Color

open Number (Digit numeral readNat)

variable {t : Text} {ch : Channels} {rest : List UInt8} {cs : List Char} {values : List Nat}
  {c : Char} {d : Nat}

/-- The hexadecimal digit `d`, in either case. -/
def HexDigit (c : Char) (d : Nat) : Prop :=
  "0123456789abcdef".toList[d]? = some c ∨ "0123456789ABCDEF".toList[d]? = some c

def pair (high low : Nat) : UInt8 := UInt8.ofNat (16 * high + low)

/-- The channels that the digits of a color stand for. -/
inductive Spelled : List Nat → Channels → Prop where
  | three (r g b : Nat) : Spelled [r, g, b] ⟨0xFF, pair r r, pair g g, pair b b⟩
  | six (r r' g g' b b' : Nat) :
      Spelled [r, r', g, g', b, b'] ⟨0xFF, pair r r', pair g g', pair b b'⟩
  | eight (a a' r r' g g' b b' : Nat) :
      Spelled [a, a', r, r', g, g', b, b'] ⟨pair a a', pair r r', pair g g', pair b b'⟩

/-- A text for a color: `#` and digits, with blanks around them. -/
def Written (t : Text) (ch : Channels) : Prop :=
  ∃ before digits after values, t.bytes = Utf8.encode (before ++ '#' :: digits ++ after) ∧
    (∀ c ∈ before ++ after, isBlank c = true) ∧ List.Forall₂ HexDigit digits values ∧
    Spelled values ch

/-! ## Channels -/

theorem channels_eq (c : UInt32) : channels c = ⟨UInt8.ofNat (c.toNat / 2 ^ 24),
    UInt8.ofNat (c.toNat / 2 ^ 16), UInt8.ofNat (c.toNat / 2 ^ 8), UInt8.ofNat c.toNat⟩ := by
  simp [channels, ← UInt8.toNat_inj, Nat.shiftRight_eq_div_pow]

theorem or_eq_add {i x y : Nat} (hx : 2 ^ i ∣ x) (hy : y < 2 ^ i) : x ||| y = x + y := by
  obtain ⟨k, rfl⟩ := hx
  exact (Nat.two_pow_add_eq_or_of_lt hy k).symm

theorem ofChannels_channels (c : UInt32) : ofChannels (channels c) = c := by
  have hc := c.toNat_lt
  have hshift {x k : Nat} (h : x * 2 ^ k < 2 ^ 32) : x <<< k % 2 ^ 32 = x * 2 ^ k := by
    rw [Nat.shiftLeft_eq, Nat.mod_eq_of_lt h]
  rw [← UInt32.toNat_inj, channels_eq]
  simp only [ofChannels, UInt32.toNat_or, UInt32.toNat_shiftLeft, UInt8.toNat_toUInt32,
    UInt8.toNat_ofNat', UInt32.reduceToNat, Nat.reduceMod]
  rw [hshift (by omega), hshift (by omega), hshift (by omega),
    or_eq_add (i := 24) (x := _ * 2 ^ 24) (by omega) (by omega),
    or_eq_add (i := 16) (x := _ + _) (by omega) (by omega),
    or_eq_add (i := 8) (by omega) (by omega)]
  omega

theorem channels_six {r r' g g' b b' : Nat} (h : ∀ d ∈ [r, r', g, g', b, b'], d < 16) :
    channels (0xFF000000 ||| UInt32.ofNat (numeral 16 0 [r, r', g, g', b, b'])) =
      ⟨0xFF, pair r r', pair g g', pair b b'⟩ := by
  have hlt : numeral 16 0 [r, r', g, g', b, b'] < 2 ^ 24 :=
    (Number.numeral_lt h).trans_le (by simp)
  have hor : (0xFF000000 ||| UInt32.ofNat (numeral 16 0 [r, r', g, g', b, b'])).toNat =
      0xFF000000 + numeral 16 0 [r, r', g, g', b, b'] := by
    rw [UInt32.toNat_or, UInt32.toNat_ofNat', Nat.mod_eq_of_lt (by omega)]
    exact or_eq_add (by decide) hlt
  simp only [List.forall_mem_cons] at h
  rw [channels_eq, hor]
  simp only [Channels.mk.injEq, pair, ← UInt8.toNat_inj, UInt8.toNat_ofNat', UInt8.reduceToNat,
    numeral, List.foldl]
  omega

theorem channels_eight {a a' r r' g g' b b' : Nat}
    (h : ∀ d ∈ [a, a', r, r', g, g', b, b'], d < 16) :
    channels (UInt32.ofNat (numeral 16 0 [a, a', r, r', g, g', b, b'])) =
      ⟨pair a a', pair r r', pair g g', pair b b'⟩ := by
  simp only [List.forall_mem_cons] at h
  rw [channels_eq, UInt32.toNat_ofNat']
  simp only [Channels.mk.injEq, pair, ← UInt8.toNat_inj, UInt8.toNat_ofNat', numeral, List.foldl]
  omega

/-! ## Digits -/

theorem hexDigit_iff : HexDigit c d ↔ Digit 16 c d := by
  constructor
  · intro h
    have hd : d < 16 := by rcases h with h | h <;> exact (List.getElem?_eq_some_iff.1 h).1
    refine ⟨?_, hd⟩
    interval_cases d <;> rcases h with h | h <;> cases h <;> rfl
  · rintro ⟨h, -⟩
    have hle (x y : Char) : x ≤ y ↔ x.toNat ≤ y.toNat := UInt32.le_iff_toNat_le
    have hfrom {m n : Nat} (hc : m ≤ c.toNat ∧ c.toNat ≤ n) :
        ∃ k, k ≤ n - m ∧ c = Char.ofNat (m + k) :=
      ⟨c.toNat - m, by omega, by rw [Nat.add_sub_cancel' hc.1, c.ofNat_toNat]⟩
    simp only [Number.hexValue?, hle, Bool.and_eq_true, decide_eq_true_eq, Char.reduceToNat] at h
    split at h
    · obtain ⟨k, hk, rfl⟩ := hfrom ‹_›
      cases h
      interval_cases k <;> exact .inl rfl
    split at h
    · obtain ⟨k, hk, rfl⟩ := hfrom ‹_›
      cases h
      interval_cases k <;> exact .inl rfl
    split at h
    · obtain ⟨k, hk, rfl⟩ := hfrom ‹_›
      cases h
      interval_cases k <;> exact .inr rfl
    · cases h

theorem plain_of_forall₂ (h : List.Forall₂ (Digit 16) cs values) :
    ∀ c ∈ cs, c.toNat < 128 ∧ isBlank c = false := by
  induction h with
  | nil => exact nofun
  | @cons c d _ _ hd _ ih =>
    refine List.forall_mem_cons.2 ⟨?_, ih⟩
    have hlt := hd.2
    have h := hexDigit_iff.2 hd
    interval_cases d <;> rcases h with h | h <;> cases h <;> decide

theorem toNat_byteChar (b : UInt8) : (byteChar b).toNat = b.toNat := by
  have hb := b.toNat_lt
  exact Utf8.val_ofNat (.inl (by omega))

theorem encode_map_byteChar (h : ∀ c ∈ rest.map byteChar, c.toNat < 128) :
    Utf8.encode (rest.map byteChar) = rest := by
  induction rest with
  | nil => rfl
  | cons b bs ih =>
    obtain ⟨hb, hbs⟩ := List.forall_mem_cons.1 h
    have hval : (byteChar b).val.toNat = b.toNat := toNat_byteChar b
    have hbyte : String.utf8EncodeChar (byteChar b) = [b] := by
      rw [String.utf8EncodeChar, hval, if_pos (by rw [toNat_byteChar] at hb; omega),
        UInt8.ofNat_toNat]
    rw [List.map_cons, Utf8.encode, List.flatMap_cons, hbyte]
    exact congrArg _ (ih hbs)

theorem exists_map_byteChar (h : ∀ c ∈ cs, c.toNat < 128) :
    ∃ rest : List UInt8, cs = rest.map byteChar := by
  refine ⟨cs.map fun c => UInt8.ofNat c.toNat, ?_⟩
  rw [List.map_map, List.map_congr_left fun c hc => ?_, List.map_id]
  have hc : c.toNat < 256 := (h c hc).trans (by decide)
  simp only [Function.comp, byteChar, Utf8.toNat_ofNat hc, Char.ofNat_toNat, id]

/-! ## Reading -/

/-- The color that the digits behind the `#` are read as. -/
def Reads (rest : List UInt8) (c : UInt32) : Prop :=
  ∃ n, readNat 16 (UInt32.size - 1) ((expand rest).map byteChar) = .ok n ∧
    ((expand rest).length = 6 ∧ c = 0xFF000000 ||| UInt32.ofNat n ∨
      (expand rest).length = 8 ∧ c = UInt32.ofNat n)

theorem read_eq_ok_iff {c : UInt32} :
    read t = .ok c ↔ ∃ rest, t.trim.bytes = 0x23 :: rest ∧ Reads rest c := by
  have hash (b : UInt8) : byteChar b = '#' ↔ b = 0x23 := by
    rw [← UInt8.toNat_inj, ← toNat_byteChar, ← Char.toNat_inj]
    rfl
  unfold read Reads
  dsimp only
  cases t.trim.bytes with
  | nil => simp
  | cons first rest =>
    simp only [hash, List.cons.injEq]
    by_cases hfirst : first = 0x23
    · simp only [hfirst, if_true, true_and, exists_eq_left']
      cases readNat 16 (UInt32.size - 1) ((expand rest).map byteChar) with
      | error e => exact ⟨nofun, fun ⟨_, h, _⟩ => nomatch h⟩
      | ok n =>
        constructor
        · intro h
          dsimp only at h
          split at h
          · exact ⟨n, rfl, .inl ⟨‹_›, (Except.ok.inj h).symm⟩⟩
          split at h
          · exact ⟨n, rfl, .inr ⟨‹_›, (Except.ok.inj h).symm⟩⟩
          · cases h
        · rintro ⟨_, ⟨⟩, ⟨hlen, rfl⟩ | ⟨hlen, rfl⟩⟩ <;> simp [hlen]
    · simp [hfirst]

theorem lt_of_forall₂ (h : List.Forall₂ (Digit 16) cs values) : ∀ d ∈ values, d < 16 := by
  induction h with
  | nil => exact nofun
  | cons hd _ ih => exact List.forall_mem_cons.2 ⟨hd.2, ih⟩

theorem expand_of_length (h : rest.length ≠ 3) : expand rest = rest := by
  unfold expand
  split
  · exact absurd rfl h
  · rfl

theorem Reads.spelled {c : UInt32} (h : Reads rest c) :
    ∃ values, List.Forall₂ (Digit 16) (rest.map byteChar) values ∧ Spelled values (channels c) := by
  obtain ⟨n, hread, hlength⟩ := h
  obtain ⟨-, values, hvalues, rfl, -⟩ := (Number.readNat_eq_ok_iff (by omega)).1 hread
  have hlt := lt_of_forall₂ hvalues
  by_cases hthree : rest.length = 3
  · obtain ⟨x, y, z, rfl⟩ := List.length_eq_three.1 hthree
    rcases hvalues with _ | ⟨hr, _ | ⟨hr', _ | ⟨hg, _ | ⟨hg', _ | ⟨hb, _ | ⟨hb', _ | _⟩⟩⟩⟩⟩⟩
    obtain rfl := Option.some.inj (hr.1.symm.trans hr'.1)
    obtain rfl := Option.some.inj (hg.1.symm.trans hg'.1)
    obtain rfl := Option.some.inj (hb.1.symm.trans hb'.1)
    obtain ⟨-, rfl⟩ | ⟨height, -⟩ := hlength
    · exact ⟨_, .cons hr (.cons hg (.cons hb .nil)), channels_six hlt ▸ .three ..⟩
    · cases height
  · rw [expand_of_length hthree] at hvalues hlength
    refine ⟨values, hvalues, ?_⟩
    have hlen := hvalues.length_eq
    rw [List.length_map] at hlen
    obtain ⟨hsix, rfl⟩ | ⟨height, rfl⟩ := hlength
    · match values, hlen.symm.trans hsix with
      | [r, r', g, g', b, b'], _ => exact channels_six hlt ▸ .six ..
    · match values, hlen.symm.trans height with
      | [a, a', r, r', g, g', b, b'], _ => exact channels_eight hlt ▸ .eight ..

theorem Spelled.reads (hs : Spelled values ch)
    (h : List.Forall₂ (Digit 16) (rest.map byteChar) values) :
    ∃ c, Reads rest c ∧ channels c = ch := by
  have hread {cs : List Char} {values : List Nat} (h : List.Forall₂ (Digit 16) cs values)
      (hpos : 0 < values.length) (hle : values.length ≤ 8) :
      readNat 16 (UInt32.size - 1) cs = .ok (numeral 16 0 values) := by
    have hlt : numeral 16 0 values < (0 + 1) * 16 ^ values.length :=
      Number.numeral_lt (lt_of_forall₂ h)
    have hpow : 16 ^ values.length ≤ UInt32.size := Nat.pow_le_pow_right (by omega) hle
    refine (Number.readNat_eq_ok_iff (by omega)).2 ⟨?_, values, h, rfl, by omega⟩
    exact List.ne_nil_of_length_pos (h.length_eq ▸ hpos)
  have hlen := h.length_eq
  rw [List.length_map] at hlen
  have hlt := lt_of_forall₂ h
  cases hs with
  | three r g b =>
    obtain ⟨x, y, z, rfl⟩ := List.length_eq_three.1 hlen
    rcases h with _ | ⟨hr, _ | ⟨hg, _ | ⟨hb, _ | _⟩⟩⟩
    have hsix : List.Forall₂ (Digit 16) _ [r, r, g, g, b, b] :=
      .cons hr (.cons hr (.cons hg (.cons hg (.cons hb (.cons hb .nil)))))
    exact ⟨_, ⟨_, hread hsix (by simp) (by simp), .inl ⟨rfl, rfl⟩⟩,
      channels_six (lt_of_forall₂ hsix)⟩
  | six r r' g g' b b' =>
    have hlen : rest.length = 6 := hlen
    rw [← expand_of_length (show rest.length ≠ 3 by omega)] at h hlen
    exact ⟨_, ⟨_, hread h (by simp) (by simp), .inl ⟨hlen, rfl⟩⟩, channels_six hlt⟩
  | eight a a' r r' g g' b b' =>
    have hlen : rest.length = 8 := hlen
    rw [← expand_of_length (show rest.length ≠ 3 by omega)] at h hlen
    exact ⟨_, ⟨_, hread h (by simp) (by simp), .inr ⟨hlen, rfl⟩⟩, channels_eight hlt⟩

theorem read_iff_written : (∃ c, read t = .ok c ∧ channels c = ch) ↔ Written t ch := by
  have hhash (rest : List UInt8) (h : ∀ c ∈ rest.map byteChar, c.toNat < 128 ∧ isBlank c = false) :
      Utf8.encode ('#' :: rest.map byteChar) = 0x23 :: rest :=
    @encode_map_byteChar (0x23 :: rest)
      (List.forall_mem_cons.2 ⟨by decide, fun c hc => (h c hc).1⟩)
  constructor
  · rintro ⟨c, hread, rfl⟩
    obtain ⟨rest, hrest, hreads⟩ := read_eq_ok_iff.1 hread
    obtain ⟨values, hvalues, hs⟩ := hreads.spelled
    obtain ⟨before, after, hbytes, hblank⟩ := t.exists_trim
    refine ⟨before, rest.map byteChar, after, values, ?_, hblank,
      hvalues.imp fun _ _ => hexDigit_iff.2, hs⟩
    rw [hbytes, hrest, Utf8.encode_append, Utf8.encode_append,
      hhash rest (plain_of_forall₂ hvalues)]
  · rintro ⟨before, digits, after, values, hbytes, hblank, hdigits, hs⟩
    have hvalues := hdigits.imp fun _ _ => hexDigit_iff.1
    have hplain := plain_of_forall₂ hvalues
    obtain ⟨rest, rfl⟩ := exists_map_byteChar fun c hc => (hplain c hc).1
    have htrim : t.trim = ⟨Utf8.encode ('#' :: rest.map byteChar)⟩ := by
      obtain ⟨bytes⟩ := t
      subst hbytes
      exact Text.trim_encode hblank
        (List.forall_mem_cons.2 ⟨by decide, fun c hc => (hplain c hc).2⟩)
    rw [hhash rest hplain] at htrim
    obtain ⟨c, hreads, hch⟩ := hs.reads hvalues
    exact ⟨c, read_eq_ok_iff.2 ⟨rest, by rw [htrim], hreads⟩, hch⟩

theorem written_format (c : UInt32) : Written (format c) (channels c) := by
  have hc := c.toNat_lt
  have hread := Number.readNat_toDigits (show 1 < 16 by omega) le_rfl
    (8 - (Nat.toDigits 16 c.toNat).length) (Nat.le_sub_one_of_lt hc)
  obtain ⟨-, values, hvalues, hnumeral, -⟩ := (Number.readNat_eq_ok_iff (by omega)).1 hread
  refine ⟨[], _, [], values, ?_, nofun, hvalues.imp fun _ _ => hexDigit_iff.2, ?_⟩
  · simp [Text.ofString, format, hexDigits]
  · have hlen := hvalues.length_eq
    have hle := (Nat.length_toDigits_le_iff (b := 16) (k := 8) (by omega) (by omega)).2 hc
    rw [List.length_append, List.length_replicate, Nat.sub_add_cancel hle] at hlen
    have hcolor : channels (UInt32.ofNat (numeral 16 0 values)) = channels c := by
      rw [← hnumeral, UInt32.ofNat_toNat]
    match values, hlen with
    | [a, a', r, r', g, g', b, b'], _ =>
      rw [← hcolor, channels_eight (lt_of_forall₂ hvalues)]
      exact .eight ..

theorem read_format (c : UInt32) : read (format c) = .ok c := by
  obtain ⟨c', hread, hchannels⟩ := read_iff_written.2 (written_format c)
  rw [hread, Function.LeftInverse.injective ofChannels_channels hchannels]

/-- Reading accepts a text exactly if it is one for a color, and gives the color with the channels
of its digits; the text of a color is read as that color, and its channels make it up again. -/
theorem color_syntax : (∀ t ch, (∃ c, read t = .ok c ∧ channels c = ch) ↔ Written t ch) ∧
    (∀ c, read (format c) = .ok c) ∧ ∀ c, ofChannels (channels c) = c :=
  ⟨fun _ _ => read_iff_written, read_format, ofChannels_channels⟩

end ReactiveTree.Color
