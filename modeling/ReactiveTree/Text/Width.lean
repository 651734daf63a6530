import ReactiveTree.Text.Escape
import ReactiveTree.Text.Printable

/-!
# Display width

How many columns a character takes on a terminal: none for control characters and marks that
combine with the character before, two for the wide characters of East Asian scripts and
pictures, one for all others.
-/

namespace ReactiveTree

/-- The lengths of runs of characters: one that takes columns, one that takes none, and so on. -/
def zeroWidthRuns : List Nat := [
  0, 32, 95, 33, 13, 1, 594, 112, 275, 5, 647, 1, 219, 9, 1036, 1, 3, 1, 238, 1, 12, 2, 1627, 3,
  1195, 4, 624, 1, 48, 31, 156, 9, 588, 64, 523, 5, 24, 7, 59, 6, 96, 33, 3070, 3, 238, 32, 665,
  2, 30164, 4, 1, 10, 32, 2, 80, 2, 494, 18, 21806, 16, 207, 1, 249, 3, 2, 2, 509, 1, 376, 5,
  2864, 2, 153, 11, 49, 4, 890, 2, 57, 2, 41, 7, 3, 5, 22395, 5, 25611, 46, 2, 23, 542, 5, 3, 6,
  8, 8, 2, 7, 30, 4, 148, 3, 3515, 7, 1, 17, 2, 7, 1, 2, 1, 5, 100, 1, 2112, 7]

/-- The lengths of runs of characters: one that is not wide, one that is, and so on. -/
def wideRuns : List Nat := [
  4352, 96, 4538, 2, 13, 2, 190, 4, 3, 1, 2, 1, 521, 2, 21, 2, 50, 12, 43, 1, 19, 1, 13, 1, 8, 2,
  17, 2, 5, 2, 8, 1, 5, 1, 21, 1, 7, 2, 1, 1, 4, 1, 2, 1, 7, 1, 4, 2, 28, 1, 35, 1, 1, 1, 4, 3, 1,
  1, 61, 3, 24, 1, 14, 1, 859, 2, 51, 1, 4, 1, 810, 26, 1, 89, 12, 214, 26, 79, 2, 86, 2, 103, 5,
  43, 1, 94, 1, 84, 11, 48, 1, 40, 8, 7024, 64, 22157, 3, 55, 1177, 29, 643, 11172, 8540, 512,
  784, 10, 22, 35, 1, 19, 1, 4, 149, 96, 127, 7, 28665, 5, 11, 2, 14, 6136, 8, 1238, 42, 9, 8935,
  4, 1, 7, 1, 2, 1, 291, 15, 1, 29, 3, 2, 1, 14, 4, 8, 396, 15624, 1, 202, 1, 190, 1, 2, 10, 101,
  3, 13, 44, 4, 9, 7, 2, 14, 6, 154, 33, 12, 9, 1, 70, 1, 22, 12, 43, 4, 5, 12, 17, 3, 1, 3, 71,
  1, 1, 1, 187, 2, 63, 13, 4, 1, 24, 18, 1, 26, 2, 13, 1, 86, 85, 48, 70, 6, 1, 3, 3, 2, 3, 4, 4,
  11, 2, 7, 9, 227, 12, 4, 1, 283, 47, 1, 10, 1, 185, 112, 13, 3, 9, 7, 46, 1, 7, 8, 14, 4, 9, 7,
  9, 1287, 65534, 2, 65534]

def charWidth (c : Char) : Nat :=
  let n := c.toNat
  if 0x20 ≤ n && n < 0x7F then 1
  else if inEvenRun zeroWidthRuns n then 0
  else if inEvenRun wideRuns n then 2
  else 1

def displayWidth (line : List Char) : Nat :=
  (visibleChars line).foldl (fun w c => w + charWidth c) 0

end ReactiveTree
