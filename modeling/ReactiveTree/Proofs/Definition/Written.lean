import ReactiveTree.Description.Entries

/-!
# The written form of references

What a reference can look like, as a relation between texts and references, and the main
statement: reading accepts exactly these texts and gives the reference each of them stands for,
whose written form is the text again. So reading and writing are inverse to each other, also where
an element or a property is called `outer`.
-/

namespace ReactiveTree

/-! ## Splitting -/

theorem splitAll_eq_splitOn (mark : Char) (cs : List Char) :
    splitAll mark cs = cs.splitOn mark := by
  induction cs with
  | nil => rfl
  | cons c cs ih =>
    obtain ⟨part, parts, hs⟩ := List.exists_cons_of_ne_nil (List.splitOn_ne_nil mark cs)
    rw [splitAll, List.foldr_cons, ← splitAll, ih, List.splitOn_cons_eq_if_modifyHead, hs]
    by_cases hc : c = mark <;> simp [hc]

theorem not_mem_of_mem_splitOn {mark : Char} {cs part : List Char} (h : part ∈ cs.splitOn mark) :
    mark ∉ part := by
  induction cs generalizing part with
  | nil => simp_all
  | cons c cs ih =>
    obtain ⟨first, parts, hs⟩ := List.exists_cons_of_ne_nil (List.splitOn_ne_nil mark cs)
    rw [hs] at ih
    rw [List.splitOn_cons_eq_if_modifyHead, hs] at h
    split at h
    · rcases List.mem_cons.mp h with rfl | h
      · simp
      · exact ih h
    · rename_i hc
      rcases List.mem_cons.mp h with rfl | h
      · have hc : c ≠ mark := by simpa using hc
        simp [Ne.symm hc, ih List.mem_cons_self]
      · exact ih (List.mem_cons_of_mem _ h)

namespace Reference

variable {s : String} {r : Reference}

/-- A name that can stand between dots. -/
def Plain (s : String) : Prop := s ≠ "" ∧ '.' ∉ s.toList

def outers (n : Nat) : String := String.join (List.replicate n "outer.")

/-- What a text stands for. -/
inductive Reading : String → Reference → Prop where
  | own (n : Nat) {name : String} (h : Plain name) :
      Reading (outers n ++ name) { outer := n, prop := name }
  | element (n : Nat) {id name : String} (hid : Plain id) (hne : id ≠ "outer") (h : Plain name) :
      Reading (outers n ++ (id ++ "." ++ name)) { outer := n, id, prop := name }

theorem Reading.text (h : Reading s r) : r.text = s := by
  cases h with
  | own n h => simp [Reference.text, outers]
  | element n hid hne h => simp [Reference.text, outers, hid.1, String.append_assoc]

theorem outers_succ (n : Nat) : outers (n + 1) = "outer." ++ outers n := by
  simp [outers, List.replicate_succ]

/-- The parts of a text with prefixes, when there is a part after them. -/
theorem stripOuter_outers (n : Nat) (cs : List Char) :
    stripOuter (((outers n).toList ++ cs).splitOn '.') =
      ((stripOuter (cs.splitOn '.')).1 + n, (stripOuter (cs.splitOn '.')).2) := by
  induction n with
  | zero => simp [outers]
  | succ n ih =>
    have houter : (outers (n + 1)).toList ++ cs =
        ['o', 'u', 't', 'e', 'r'] ++ '.' :: ((outers n).toList ++ cs) := by
      rw [outers_succ]
      simp
    obtain ⟨part, parts, hs⟩ := List.exists_cons_of_ne_nil
      (List.splitOn_ne_nil '.' ((outers n).toList ++ cs))
    rw [houter, List.splitOn_append_cons_self_of_not_mem (by decide), hs, stripOuter, if_pos rfl,
      ← hs, ih]
    rfl

theorem Reading.read? (h : Reading s r) : Reference.read? s = some r := by
  cases h with
  | @own n name h =>
    have hsplit : stripOuter (name.toList.splitOn '.') = (0, [name.toList]) := by
      rw [List.splitOn_eq_singleton h.2]
      rfl
    rw [Reference.read?, splitAll_eq_splitOn, String.toList_append, stripOuter_outers, hsplit]
    simp [h.1]
  | @element n id name hid hne h =>
    have hparts : (id ++ "." ++ name).toList = id.toList ++ '.' :: name.toList := by simp
    have hsplit : stripOuter ((id ++ "." ++ name).toList.splitOn '.') =
        (0, [id.toList, name.toList]) := by
      rw [hparts, List.splitOn_append_cons_self_of_not_mem hid.2, List.splitOn_eq_singleton h.2,
        stripOuter, if_neg]
      exact fun heq => hne (String.toList_inj.mp heq)
    rw [Reference.read?, splitAll_eq_splitOn, String.toList_append, stripOuter_outers, hsplit]
    simp [hid.1, h.1]

theorem stripOuter_eq {parts rest : List (List Char)} {n : Nat} (h : stripOuter parts = (n, rest)) :
    parts = List.replicate n ['o', 'u', 't', 'e', 'r'] ++ rest ∧
      ∀ id prop, rest = [id, prop] → id ≠ ['o', 'u', 't', 'e', 'r'] := by
  fun_induction stripOuter parts generalizing n rest with
  | case1 next tail n' parts' heq ih =>
    cases h
    obtain ⟨hparts, hid⟩ := ih heq
    exact ⟨by rw [hparts]; rfl, hid⟩
  | case2 part next tail hne =>
    cases h
    refine ⟨rfl, fun id prop heq => ?_⟩
    cases heq
    exact hne
  | case3 parts hshort =>
    cases h
    refine ⟨rfl, fun id prop heq => ?_⟩
    exact absurd heq (hshort _ _ _)

theorem toList_outers (n : Nat) (part : List Char) (parts : List (List Char)) :
    ['.'].intercalate (List.replicate n ['o', 'u', 't', 'e', 'r'] ++ part :: parts) =
      (outers n).toList ++ ['.'].intercalate (part :: parts) := by
  induction n with
  | zero => rfl
  | succ n ih =>
    obtain ⟨next, rest, hs⟩ := List.exists_cons_of_ne_nil
      (List.append_ne_nil_of_right_ne_nil (List.replicate n ['o', 'u', 't', 'e', 'r'])
        (List.cons_ne_nil part parts))
    rw [List.replicate_succ, List.cons_append, hs, List.intercalate_cons_cons, ← hs, ih,
      outers_succ]
    simp

theorem reading_of_read? (h : Reference.read? s = some r) : Reading s r := by
  unfold Reference.read? at h
  rw [splitAll_eq_splitOn] at h
  cases hstrip : stripOuter (s.toList.splitOn '.') with
  | mk n rest =>
  obtain ⟨hparts, hid⟩ := stripOuter_eq hstrip
  rw [hstrip] at h
  dsimp only at h
  have hplain : ∀ cs ∈ rest, cs ≠ [] → Plain (String.ofList cs) := by
    intro cs hcs hne
    refine ⟨by simpa using hne, ?_⟩
    rw [String.toList_ofList]
    exact not_mem_of_mem_splitOn (hparts ▸ List.mem_append_right _ hcs)
  have htext :
      s.toList = ['.'].intercalate (List.replicate n ['o', 'u', 't', 'e', 'r'] ++ rest) := by
    rw [← hparts, List.intercalate_splitOn]
  split at h
  · rename_i prop
    rw [toList_outers] at htext
    split at h
    · cases h
    · rename_i hne
      cases h
      have hs : s = outers n ++ String.ofList prop := by
        rw [← String.toList_inj, htext]
        simp
      exact hs ▸ .own n (hplain prop (by simp) (by simpa using hne))
  · rename_i id prop
    rw [toList_outers] at htext
    split at h
    · cases h
    · rename_i hne
      cases h
      have hs : s = outers n ++ (String.ofList id ++ "." ++ String.ofList prop) := by
        rw [← String.toList_inj, htext]
        simp [List.intercalate_cons_cons]
      have hne : id ≠ [] ∧ prop ≠ [] := by simpa using hne
      refine hs ▸ .element n (hplain id (by simp) hne.1) (fun heq => ?_)
        (hplain prop (by simp) hne.2)
      exact hid id prop rfl (by simpa using congrArg String.toList heq)
  · cases h

end Reference

/-- A text is accepted as a reference exactly when it can be read as prefixes, an element and a
name, or prefixes and a name. The answer is what it was read as, and that is written as the same
text. -/
theorem reference_syntax (path : String) (line : Nat) (tag : Text) (s : String)
    (anchor : Option Nat) (r : Reference) :
    (Description.referenceOf path (.scalar line tag s anchor) = .ok r ↔ Reference.Reading s r) ∧
      (Reference.Reading s r → r.text = s) := by
  have hread : Description.referenceOf path (.scalar line tag s anchor) = .ok r ↔
      Reference.read? s = some r := by
    unfold Description.referenceOf Description.refuse
    by_cases hs : s = ""
    · have hnone : Reference.read? "" = none := by decide
      simp [hs, hnone]
    · simp only [hs, if_false]
      cases Reference.read? s <;> simp
  exact ⟨hread.trans ⟨Reference.reading_of_read?, Reference.Reading.read?⟩, Reference.Reading.text⟩

end ReactiveTree
