/-!
# Room

A list that grows takes more places than it needs, so that it need not move at every push.
How many it takes when it is full depends on the width of what it holds. That shows where a
full list first gives up what it no longer needs, or where readers stay with the old places.
-/

namespace ReactiveTree.Room

def widths : List Nat :=
  [8, 16, 24, 32, 48, 64, 80, 96, 112, 128, 144, 160, 176, 192, 208, 224, 240, 256, 288, 320,
   352, 384, 416, 448, 480, 512, 576, 640, 704, 768, 896, 1024, 1152, 1280, 1408, 1536, 1792,
   2048, 2304, 2688, 3072, 3200, 3456, 4096, 4864, 5120, 5376, 6144, 6528, 6784, 6912, 8192,
   9472, 9728, 10240, 10880, 12288, 13568, 14336, 16384, 18432, 19072, 20480, 21760, 24576,
   27264, 28672, 32768]

def plank : Nat := 8192

/-- How many places a list asks for that has filled `room` of them: twice as many, and about
a quarter more once there are many. -/
def wanted (room : Nat) : Nat :=
  if room = 0 then 1 else if room < 256 then 2 * room else room + (room + 768) / 4

def fitting (width rim : Nat) : Nat :=
  if width ≤ 32760 then
    match widths.find? (width + rim ≤ ·) with
    | some w => w - rim
    | none => width
  else (width + plank - 1) / plank * plank

def ofFlags (room : Nat) : Nat := fitting (wanted room) 0

/-- The next room for references, each of width 8. Shelves of more than 64 have a rim as wide
as a place. -/
def ofReferences (room : Nat) : Nat :=
  let width := 8 * wanted room
  fitting width (if width ≤ 512 then 0 else 8) / 8

def ofEdges (room : Nat) : Nat := fitting (12 * wanted room) 0 / 12

end ReactiveTree.Room
