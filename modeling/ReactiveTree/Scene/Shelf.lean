import ReactiveTree.Cell.Room

/-!
# Shelves

A list that grows and shrinks while readers go along it. It stands on a shelf with so many
places. Cut short, it may leave what stood behind its end, and a push writes over that: a
reader that noted the shelf and the length earlier finds in each place what stands there
now. A list that has filled its shelf moves to a larger one. Readers stay with the shelf they
began on, which keeps what it held at the move.
-/

namespace ReactiveTree

structure Shelf (α : Type) where
  list : Array α := #[]
  behind : List α := []
  room : Nat := 0
  left : Array (Array α) := #[]
  deriving Inhabited

/-! ## The list -/

namespace Shelf

variable {α : Type}

def size (s : Shelf α) : Nat := s.list.size

def push (next : Nat → Nat) (s : Shelf α) (a : α) : Shelf α :=
  if s.size < s.room then { s with list := s.list.push a, behind := s.behind.tail }
  else { list := s.list.push a, room := next s.room, left := s.left.push (s.list ++ s.behind) }

/-- Shortens the list; what was cut off stays behind it. -/
def cut (s : Shelf α) (n : Nat) : Shelf α :=
  { s with list := s.list.take n, behind := (s.list.drop n).toList ++ s.behind }

def truncate (s : Shelf α) (n : Nat) : Shelf α :=
  { s with list := s.list.take n, behind := [] }

def clear (s : Shelf α) : Shelf α := { left := s.left.push (s.list ++ s.behind) }

def change (s : Shelf α) (f : Array α → Array α) : Shelf α := { s with list := f s.list }

/-! ## Readers -/

def number (s : Shelf α) : Nat := s.left.size

/-- What stands in place `i` of a shelf, this one or one that was left. -/
def onShelf? (s : Shelf α) (shelf i : Nat) : Option α :=
  if shelf = s.number then
    match s.list[i]? with
    | some a => some a
    | none => s.behind[i - s.size]?
  else
    match s.left[shelf]? with
    | some places => places[i]?
    | none => none

@[simp]
theorem list_push (next : Nat → Nat) (s : Shelf α) (a : α) :
    (s.push next a).list = s.list.push a := by
  unfold push
  split <;> rfl

theorem onShelf?_number (s : Shelf α) {i : Nat} (h : i < s.size) :
    s.onShelf? s.number i = s.list[i]? := by
  simp only [onShelf?, if_true]
  rw [Array.getElem?_eq_getElem h]

end Shelf

end ReactiveTree
