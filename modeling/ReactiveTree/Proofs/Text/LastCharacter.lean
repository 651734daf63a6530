import Mathlib.Logic.Function.Iterate
import ReactiveTree.Proofs.Text.Encoding

/-!
# The last character of a text

What stands before the bytes of a character does not matter to where they start: `Text.dropLast`
takes just these bytes away, whatever the bytes before (`dropLast_append_encode`). Of bytes that end
in no character it takes one, so it always gets nearer to the empty text.
-/

namespace ReactiveTree

namespace Utf8

/-- Bytes that encode one character: a byte of its own, or a lead byte and up to three that follow.
-/
inductive Encoded : List UInt8 → Prop
  | single {b : UInt8} (h : b < 0x80) : Encoded [b]
  | multi {lead last : UInt8} {m : List UInt8} (hlead : 0xC2 ≤ lead.toNat)
    (hmid : ∀ b ∈ m, isContinuation b = true) (hlength : m.length ≤ 2)
    (hlast : isContinuation last = true)
    (hdecode : (decodeFirst (lead :: (m ++ [last]))).map Prod.snd = some (m.length + 2)) :
    Encoded (lead :: (m ++ [last]))

theorem encoded_utf8EncodeChar (c : Char) : Encoded (String.utf8EncodeChar c) := by
  have hvalid : c.val.toNat < 0xD800 ∨ 0xDFFF < c.val.toNat ∧ c.val.toNat < 0x110000 := c.valid
  have hdecode := congrArg (Option.map Prod.snd) (decodeFirst_append c [])
  rw [List.append_nil] at hdecode
  have hcont := isContinuation_ofNat
  revert hdecode
  rw [String.utf8EncodeChar]
  generalize c.val.toNat = v at hvalid
  split
  · refine fun _ => .single ?_
    rw [UInt8.lt_iff_toNat_lt, toNat_ofNat (by omega)]
    exact Nat.lt_succ_of_le ‹_›
  split
  · exact .multi (m := []) (by rw [toNat_ofNat (by omega)]; omega) nofun (by simp) (hcont _)
  split
  · exact .multi (m := [_]) (by rw [toNat_ofNat (by omega)]; omega)
      (List.forall_mem_singleton.2 (hcont _)) (by simp) (hcont _)
  · exact .multi (m := [_, _]) (by rw [toNat_ofNat (by omega)]; omega)
      (List.forall_mem_cons.2 ⟨hcont _, List.forall_mem_singleton.2 (hcont _)⟩) (by simp) (hcont _)

theorem encode_ne_nil {cs : List Char} (h : cs ≠ []) : encode cs ≠ [] := by
  obtain ⟨c, rest, rfl⟩ := List.exists_cons_of_ne_nil h
  have hlength : 0 < (String.utf8EncodeChar c).length := by simp [c.utf8Size_pos]
  simp [encode, List.ne_nil_of_length_pos hlength]

theorem Encoded.lastWidth_append {bs : List UInt8} (h : Encoded bs) (s : List UInt8) :
    lastWidth (s ++ bs) = bs.length := by
  cases h with
  | single hb => simp [lastWidth, hb]
  | @multi lead last m hlead hmid hlength hlast hdecode =>
    have hlead : isContinuation lead = false := Bool.eq_false_iff.2 fun h => by
      have := isContinuation_iff.1 h
      omega
    have hlast : ¬ last < 0x80 := UInt8.not_lt.2 (isContinuation_iff.1 hlast).1
    obtain ⟨⟨c, -⟩, hdecode, rfl⟩ := Option.map_eq_some_iff.1 hdecode
    have hreverse : (s ++ lead :: (m ++ [last])).reverse =
        last :: (m.reverse ++ lead :: s.reverse) := by simp
    have htake : (m.reverse ++ lead :: s.reverse).take 3 =
        m.reverse ++ lead :: s.reverse.take (2 - m.length) := by
      rw [List.take_append, List.take_of_length_le (by simp; omega), List.length_reverse,
        show 3 - m.length = 2 - m.length + 1 by omega, List.take_succ_cons]
    have hfollow : (m.reverse ++ lead :: s.reverse.take (2 - m.length)).takeWhile isContinuation =
        m.reverse := by
      rw [List.takeWhile_append_of_pos fun b hb => hmid b (List.mem_reverse.1 hb),
        List.takeWhile_cons_of_neg (by simp [hlead]), List.append_nil]
    rw [lastWidth, hreverse]
    simp only [if_neg hlast, htake, hfollow, List.drop_left, List.reverse_reverse, hdecode]
    simp

/-- What is looked at is there, and no more than four bytes are. -/
theorem lastWidth_bounds {bs : List UInt8} (h : bs ≠ []) :
    1 ≤ lastWidth bs ∧ lastWidth bs ≤ 4 ∧ lastWidth bs ≤ bs.length := by
  rw [lastWidth]
  split
  · rename_i hnil
    exact absurd (List.reverse_eq_nil_iff.1 hnil) h
  · rename_i last before hreverse
    have hbefore : bs.length = before.length + 1 := by
      rw [← List.length_reverse, hreverse, List.length_cons]
    split
    · omega
    · simp only
      split
      · omega
      · rename_i lead rest hrest
        have htake : ((before.take 3).takeWhile isContinuation).length + rest.length + 1 =
            min 3 before.length := by
          have := congrArg List.length hrest
          rw [List.length_drop, List.length_take, List.length_cons] at this
          omega
        split
        · split <;> omega
        · omega

end Utf8

namespace Text

theorem dropLast_append_encode (s : Text) (cs : List Char) (c : Char) :
    dropLast ⟨s.bytes ++ Utf8.encode (cs ++ [c])⟩ = ⟨s.bytes ++ Utf8.encode cs⟩ := by
  have hbytes : s.bytes ++ Utf8.encode (cs ++ [c]) =
      s.bytes ++ Utf8.encode cs ++ String.utf8EncodeChar c := by
    simp [Utf8.encode]
  rw [dropLast, hbytes, (Utf8.encoded_utf8EncodeChar c).lastWidth_append, List.length_append,
    Nat.add_sub_cancel, List.take_left]

theorem bytes_eq_dropLast_append {t : Text} (h : t.bytes ≠ []) :
    ∃ removed, t.bytes = t.dropLast.bytes ++ removed ∧ 1 ≤ removed.length ∧ removed.length ≤ 4 := by
  have hbounds := Utf8.lastWidth_bounds h
  refine ⟨t.bytes.drop (t.bytes.length - Utf8.lastWidth t.bytes),
    (List.take_append_drop ..).symm, ?_⟩
  rw [List.length_drop]
  omega

theorem iterate_dropLast {t : Text} {n : Nat} (h : t.bytes.length ≤ n) : dropLast^[n] t = ⟨[]⟩ := by
  induction n generalizing t with
  | zero => exact congrArg Text.mk (List.length_eq_zero_iff.1 (Nat.le_zero.1 h))
  | succ n ih =>
    refine ih ?_
    by_cases ht : t.bytes = []
    · simp [dropLast, ht]
    · obtain ⟨removed, hbytes, hone, -⟩ := bytes_eq_dropLast_append ht
      rw [hbytes, List.length_append] at h
      omega

end Text

end ReactiveTree
