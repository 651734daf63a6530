import ReactiveTree.Text.Utf8
import ReactiveTree.Text.Blank

/-!
# Byte strings

The text a value carries is a string of bytes. It usually is UTF-8, but nothing here
requires it: deleting, joining and comparing work on the bytes.
-/

namespace ReactiveTree

structure Text where
  bytes : List UInt8
  deriving DecidableEq, Repr, Inhabited

namespace Text

def ofString (s : String) : Text := ⟨Utf8.encode s.toList⟩

instance : Coe String Text := ⟨ofString⟩

def toString? (t : Text) : Option String := (Utf8.decode? t.bytes).map String.ofList

instance : Append Text := ⟨fun a b => ⟨a.bytes ++ b.bytes⟩⟩

def isEmpty (t : Text) : Bool := t.bytes.isEmpty

def compare (a b : Text) : Ordering := go a.bytes b.bytes
where
  go : List UInt8 → List UInt8 → Ordering
    | [], [] => .eq
    | [], _ :: _ => .lt
    | _ :: _, [] => .gt
    | x :: xs, y :: ys => if x < y then .lt else if y < x then .gt else go xs ys

def trim (t : Text) : Text :=
  let blank : Utf8.Piece → Bool
    | .char c => isBlank c
    | .stray _ => false
  ⟨(trimWhere blank (Utf8.pieces t.bytes)).flatMap Utf8.Piece.bytes⟩

def dropLast (t : Text) : Text :=
  ⟨t.bytes.take (t.bytes.length - Utf8.lastWidth t.bytes)⟩

end Text

end ReactiveTree
