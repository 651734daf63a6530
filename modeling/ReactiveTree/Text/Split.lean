/-!
# Splitting text
-/

namespace ReactiveTree

/-- The parts of a text between the occurrences of a character. There is one more of them
than occurrences. -/
def splitAll (mark : Char) (cs : List Char) : List (List Char) :=
  cs.foldr (fun c parts =>
    if c = mark then [] :: parts
    else match parts with
      | part :: rest => (c :: part) :: rest
      | [] => [[c]]) [[]]

end ReactiveTree
