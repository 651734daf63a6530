/-!
# Numbers in groups of three digits
-/

namespace ReactiveTree

def groupDigits : List Char → List Char
  | a :: b :: c :: d :: rest => a :: b :: c :: ',' :: groupDigits (d :: rest)
  | ds => ds

def withCommas (n : Int) : String :=
  let digits := (groupDigits (toString n.natAbs).toList.reverse).reverse
  (if n < 0 then "-" else "") ++ String.ofList digits

end ReactiveTree
