import ReactiveTree.Proofs.Time.DurationText
import ReactiveTree.Proofs.Value.ColorSyntax
import ReactiveTree.Value.Coerce

/-!
# Values as text

A value of kind bool, int, color or duration is read back from its text. No text of these has a
blank in it, so nothing is taken away from its ends before it is read.
-/

namespace ReactiveTree

theorem isBlank_of_isDigit {c : Char} (h : c.isDigit = true) : isBlank c = false := by
  rw [Number.isDigit_iff] at h
  simp only [isBlank, Bool.or_eq_false_iff, Bool.and_eq_false_iff, decide_eq_false_iff_not]
  omega

theorem isBlank_toDigits (n : Nat) : ∀ c ∈ Nat.toDigits 10 n, isBlank c = false :=
  fun c hc => isBlank_of_isDigit (Number.isDigit_toDigits n c hc)

theorem toList_toString (n : Int) : (toString n).toList =
    if n < 0 then '-' :: Nat.toDigits 10 n.natAbs else Nat.toDigits 10 n.natAbs := by
  cases n with
  | ofNat m => exact String.toList_ofList
  | negSucc m =>
    rw [if_pos (Int.negSucc_lt_zero m)]
    show ("-" ++ Nat.repr (m + 1)).toList = _
    simp [Nat.repr]

theorem Number.readInt?_toString {n : Int} (h : leastInt64 ≤ n) (h' : n < -leastInt64) :
    readInt? (toString n).toList = some n := by
  have hread {limit : Nat} (hle : n.natAbs ≤ limit) :
      readNat 10 limit (Nat.toDigits 10 n.natAbs) = .ok n.natAbs :=
    readNat_toDigits (by omega) (by omega) 0 hle
  have hsign := splitSign_toDigits n.natAbs []
  rw [List.append_nil] at hsign
  unfold leastInt64 at h h'
  rw [toList_toString]
  split
  · rw [readInt?, show splitSign ('-' :: _) = (true, _) from rfl]
    simp only [hread (show n.natAbs ≤ greatest true by rw [greatest, if_pos rfl]; omega), if_true]
    rw [Option.some.injEq]
    omega
  · rw [readInt?, hsign]
    simp only [hread (show n.natAbs ≤ greatest false by rw [greatest, if_neg (by simp)]; omega)]
    rw [if_neg (by simp), Option.some.injEq]
    omega

namespace Duration

theorem isBlank_showScaled (n places : Nat) : ∀ c ∈ showScaled n places, isBlank c = false := by
  obtain ⟨digits, values, htext, hdigits, -⟩ := exists_showScaled n places
  rw [htext]
  refine List.forall_mem_append.2 ⟨isBlank_toDigits _, ?_⟩
  unfold withPoint
  split
  · simp
  · exact List.forall_mem_cons.2
      ⟨by decide, fun c hc => isBlank_of_isDigit (Number.forall_isDigit hdigits c hc)⟩

theorem isBlank_showInt (n : Int) : ∀ c ∈ showInt n, isBlank c = false := by
  have hnat (n : Nat) : ∀ c ∈ showNat n, isBlank c = false := by
    have hscaled (m places : Nat) {name : List Char} (hname : ∀ c ∈ name, isBlank c = false) :
        ∀ c ∈ showScaled m places ++ name, isBlank c = false :=
      List.forall_mem_append.2 ⟨isBlank_showScaled m places, hname⟩
    have hwhole (v : Nat) {c : Char} {cs : List Char} (hc : isBlank c = false)
        (hcs : ∀ c ∈ cs, isBlank c = false) :
        ∀ c' ∈ Nat.toDigits 10 v ++ c :: cs, isBlank c' = false :=
      List.forall_mem_append.2 ⟨isBlank_toDigits v, List.forall_mem_cons.2 ⟨hc, hcs⟩⟩
    unfold showNat
    split
    · simp [isBlank]
    split
    · exact hscaled _ _ (by simp [isBlank])
    split
    · exact hscaled _ _ (by simp [isBlank])
    split
    · exact hscaled _ _ (by simp [isBlank])
    dsimp only
    have hseconds := hscaled (n % minute) 9 (show ∀ c ∈ ['s'], isBlank c = false by simp [isBlank])
    split
    · exact hseconds
    split
    · exact hwhole _ rfl hseconds
    · exact hwhole _ rfl (hwhole _ rfl hseconds)
  unfold showInt
  split
  · exact List.forall_mem_cons.2 ⟨by decide, hnat _⟩
  · exact hnat _

end Duration

namespace Value

theorem literal?_ofString {s : String} (h : ∀ c ∈ s.toList, isBlank c = false) :
    literal? (Text.ofString s) = some s.toList := by
  have htrim : (Text.ofString s).trim = Text.ofString s := by
    have h := Text.trim_encode (show ∀ c ∈ ([] ++ [] : List Char), isBlank c = true by simp) h
    rwa [List.append_nil] at h
  rw [literal?, htrim, Text.toString?, Text.ofString, Utf8.decode?_encode]
  simp

/-- A bool, an int, a color or a duration becomes its text as a string, and the string becomes it
again. -/
theorem coerce_text_round_trip (v : Value)
    (hv : v.kind = .bool ∨ v.kind = .int ∨ v.kind = .color ∨ v.kind = .duration) :
    v.coerce .string = .ok (.string (Text.ofString v.text)) ∧
      (Value.string (Text.ofString v.text)).coerce v.kind = .ok v := by
  cases v with
  | bool b =>
    refine ⟨rfl, ?_⟩
    cases b with
    | true =>
      have hlit : literal? (Text.ofString "true") = some "true".toList :=
        literal?_ofString (by simp [isBlank])
      simp [coerce, kind, text, hlit, readBool?]
    | false =>
      have hlit : literal? (Text.ofString "false") = some "false".toList :=
        literal?_ofString (by simp [isBlank])
      simp [coerce, kind, text, hlit, readBool?]
  | int n =>
    have hblank : ∀ c ∈ (toString n.toInt).toList, isBlank c = false := by
      rw [toList_toString]
      split
      · exact List.forall_mem_cons.2 ⟨by decide, isBlank_toDigits _⟩
      · exact isBlank_toDigits _
    have hread := Number.readInt?_toString n.le_toInt n.toInt_lt
    refine ⟨rfl, ?_⟩
    simp only [coerce, kind, text, literal?_ofString hblank, Option.bind_some, hread, reduceCtorEq,
      if_false, Int64.ofInt_toInt]
  | color c =>
    refine ⟨rfl, ?_⟩
    have hread : Color.read (Text.ofString (Color.format c)) = .ok c := Color.read_format c
    simp [coerce, kind, text, hread]
  | duration n =>
    have hlist : (showDuration n).toList = Duration.showInt n.toInt := String.toList_ofList
    have hlit := literal?_ofString (hlist ▸ Duration.isBlank_showInt n.toInt)
    have hread := Duration.read_showInt n.le_toInt n.toInt_lt
    refine ⟨rfl, ?_⟩
    simp [coerce, kind, text, hlit, hlist, hread, Except.toOption]
  | _ => simp [kind] at hv

theorem coerce_text_round_trip_least : ∃ s,
    (Value.duration Int64.minValue).coerce .string = .ok s ∧
      s.coerce .duration = .ok (.duration Int64.minValue) :=
  ⟨_, coerce_text_round_trip (.duration Int64.minValue) (.inr (.inr (.inr rfl)))⟩

end Value

end ReactiveTree
