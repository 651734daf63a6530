import ReactiveTree.Text.Split

/-!
# References

A reference names a property as seen from a component: `counter` is one of its own,
`caption.text` one of its element `caption`, and each `outer.` in front goes one repeater
level up.
-/

namespace ReactiveTree

structure Reference where
  outer : Nat := 0
  id : String := ""
  prop : String
  deriving DecidableEq, Repr, Inhabited

namespace Reference

def stripOuter : List (List Char) → Nat × List (List Char)
  | part :: next :: rest =>
    if part = ['o', 'u', 't', 'e', 'r'] then
      let (n, parts) := stripOuter (next :: rest)
      (n + 1, parts)
    else (0, part :: next :: rest)
  | parts => (0, parts)

def read? (s : String) : Option Reference :=
  let (outer, parts) := stripOuter (splitAll '.' s.toList)
  match parts with
  | [prop] => if prop.isEmpty then none else some { outer, prop := String.ofList prop }
  | [id, prop] =>
    if id.isEmpty || prop.isEmpty then none
    else some { outer, id := String.ofList id, prop := String.ofList prop }
  | _ => none

def text (r : Reference) : String :=
  String.join (List.replicate r.outer "outer.") ++ (if r.id = "" then "" else r.id ++ ".") ++ r.prop

end Reference

end ReactiveTree
