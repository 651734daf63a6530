import ReactiveTree.Scene.Repeater

/-!
# Walking the tree

The items of an instance and of everything repeated below it, in paint order: an item, its
children in order, then the instances of its repeaters, brought up to date first. Hit tests
go through the same list from the end.
-/

namespace ReactiveTree

variable {U X : Type}

namespace Scene

/-- The item around an item. Around the root of a repeated instance it is the host of the
repeater. -/
def parent? (s : Scene U X) (it : ItemRef) : Option ItemRef :=
  match (s.item it).parent with
  | some p => some ⟨it.component, p⟩
  | none => (s.component it.component).host

def itemCount (s : Scene U X) : Nat := s.components.foldl (fun n c => n + c.items.size) 0

def ancestorsTo (s : Scene U X) : (limit : Nat) → ItemRef → List ItemRef
  | 0, _ => []
  | limit + 1, it =>
    match s.parent? it with
    | none => []
    | some p => p :: s.ancestorsTo limit p

def ancestors (s : Scene U X) (it : ItemRef) : List ItemRef := s.ancestorsTo s.itemCount it

def topTo (s : Scene U X) : (limit : Nat) → ComponentId → ComponentId
  | 0, c => c
  | limit + 1, c =>
    match (s.component c).outer with
    | some outer => s.topTo limit outer
    | none => c

def top (s : Scene U X) (c : ComponentId) : ComponentId := s.topTo s.components.size c

def itemName (s : Scene U X) (it : ItemRef) : String :=
  let item := s.item it
  s!"{item.kind.name}#{item.id}"

end Scene

/-! ## Geometry -/

structure Rect where
  x : Float
  y : Float
  width : Float
  height : Float

def Rect.contains (r : Rect) (x y : Float) : Bool :=
  r.x ≤ x && r.y ≤ y && x < r.x + r.width && y < r.y + r.height

namespace Item

def geometry (it : ItemRef) : SceneM U X Rect := do
  let x ← get it "x"
  let y ← get it "y"
  let width ← get it "width"
  let height ← get it "height"
  return ⟨x.asFloat, y.asFloat, width.asFloat, height.asFloat⟩

/-- Moves a rectangle by the positions of the items around it. Content of a flickable is
moved by its viewport too. -/
def place : List ItemRef → Rect → SceneM U X Rect
  | [], r => return r
  | p :: rest, r => do
    let g ← geometry p
    let r := { r with x := r.x + g.x, y := r.y + g.y }
    if (← Act.ask fun s => (s.item p).kind) = .flickable then
      let dx ← get p "viewport_x"
      let dy ← get p "viewport_y"
      place rest { r with x := r.x + dx.asFloat, y := r.y + dy.asFloat }
    else place rest r

def absolute (it : ItemRef) : SceneM U X Rect := do
  let g ← geometry it
  place (← Act.ask fun s => s.ancestors it) g

def has (it : ItemRef) (c : Capability) : SceneM U X Bool :=
  Act.ask fun s => (s.item it).kind.caps.has c

def isEnabled (it : ItemRef) : SceneM U X Bool := do
  match ← cell? it "enabled" with
  | none => return true
  | some cell => return (← Act.get cell).asBool

end Item

/-! ## The walk -/

inductive Order where
  | preOrder
  | frontToBack
  deriving DecidableEq, Repr

/-- What a visitor does with an item: it turns what it has gathered so far into what it has
then, and says whether to go on. -/
abbrev Visitor (U X β : Type) := ItemRef → β → SceneM U X (Bool × β)

namespace Component

variable {β : Type}

def visitAll (visit : Visitor U X β) : List ItemRef → β → SceneM U X (Bool × β)
  | [], b => return (true, b)
  | it :: rest, b => do
    let (more, b) ← visit it b
    if more then visitAll visit rest b else return (false, b)

/-- Goes through some rows of a repeater, `down` each of them, along the shelf its instances
stood on at the start. -/
def walkShelf (down : Visitor U X β) (r : RepeaterId) (shelf : Nat) :
    (rows : List Nat) → β → SceneM U X (Bool × β)
  | [], b => return (true, b)
  | i :: rest, b => do
    match ← Act.ask fun s => (s.repeater r).instances.onShelf? shelf i with
    | none => SceneM.absent
    | some h =>
      let (more, b) ← down ⟨← Act.ask fun s => (s.handle h).component, 0⟩ b
      if more then walkShelf down r shelf rest b else return (false, b)

def walkRows (down : Visitor U X β) : List RepeaterId → β → SceneM U X (Bool × β)
  | [], b => return (true, b)
  | r :: rest, b => do
    Repeater.ensureUpdated r
    let instances ← Act.ask fun s => (s.repeater r).instances
    let (more, b) ← walkShelf down r instances.number (List.range instances.size) b
    if more then walkRows down rest b else return (false, b)

def walkTo (visit : Visitor U X β) : (limit : Nat) → Visitor U X β
  | 0, _, b => return (true, b)
  | limit + 1, it, b => do
    let (more, b) ← visit it b
    if more then
      let item ← Act.ask fun s => s.item it
      let children := item.children.map fun n => (⟨it.component, n⟩ : ItemRef)
      let (more, b) ← visitAll (walkTo visit limit) children b
      if more then walkRows (walkTo visit limit) item.repeaters b else return (false, b)
    else return (false, b)

def walk (c : ComponentId) (visit : Visitor U X β) (b : β) : SceneM U X (Bool × β) := do
  let limit ← Act.ask fun s => (s.component c).definition.height
  walkTo visit limit ⟨c, 0⟩ b

/-- Visits the items of an instance until the visitor stops. Returns whether it never did,
and what it gathered. A destroyed instance has no items. -/
def visit (c : ComponentId) (order : Order) (visit : Visitor U X β) (b : β) :
    SceneM U X (Bool × β) := do
  if ← Act.ask fun s => (s.component c).destroyed then return (true, b)
  match order with
  | .preOrder => walk c visit b
  | .frontToBack =>
    let (_, all) ← walk c (fun it all => return (true, it :: all)) []
    visitAll visit all b

end Component

end ReactiveTree
