import ReactiveTree.Scene.Walk

/-!
# Windows

Focus, pointer and keys. A window has at most one focused item, one item that holds the
pointer between press and release, and one item under the pointer; the cells `has_focus`,
`pressed` and `has_hover` of the items follow them.
-/

namespace ReactiveTree.Window

variable {U X : Type}

def top (c : ComponentId) : SceneM U X ComponentId := Act.ask fun s => s.top c

def read (c : ComponentId) : SceneM U X Window := Act.ask fun s => s.window c

def modify (c : ComponentId) (f : Window → Window) : SceneM U X Unit :=
  Act.change fun s => s.modifyWindow c f

def isDestroyed (c : ComponentId) : SceneM U X Bool := Act.ask fun s => (s.component c).destroyed

/-! ## Focus -/

def takesFocus (c : ComponentId) (it : ItemRef) : SceneM U X Bool :=
  Act.ask fun s =>
    (s.item it).kind.caps.has .focusable && !(s.component it.component).destroyed
      && (s.component it.component).window = (s.component c).window

def withdraw (it : Option ItemRef) (flag : String) : SceneM U X Unit := do
  if let some it := it then
    unless ← isDestroyed it.component do Item.setIfPresent it flag (.bool false)

def setFocus (c : ComponentId) (it : Option ItemRef) : SceneM U X Bool := do
  let accepted ← match it with
    | some it => takesFocus c it
    | none => pure true
  if !accepted then return false
  let previous := (← read c).focus
  if previous = it then return true
  withdraw previous "has_focus"
  modify c fun w => { w with focus := it }
  if let some it := it then Item.setIfPresent it "has_focus" (.bool true)
  return true

def focusItem (c : ComponentId) : SceneM U X (Option ItemRef) := do
  match (← read c).focus with
  | none => return none
  | some it => return if ← isDestroyed it.component then none else some it

/-- The item after `current` in a list, the first after the last. What is not in the list
is followed by the first. -/
def next? (current : Option ItemRef) (all : List ItemRef) : Option ItemRef :=
  match all.findIdx? fun it => some it = current with
  | some i => all[(i + 1) % all.length]?
  | none => all.head?

def focusables (c : ComponentId) : SceneM U X (List ItemRef) := do
  let gather : Visitor U X (List ItemRef) := fun it all => do
    if ← Item.has it .focusable then
      if ← Item.isEnabled it then return (true, it :: all)
    return (true, all)
  let (_, all) ← Component.visit c .preOrder gather []
  return all.reverse

def focusNext (c : ComponentId) : SceneM U X Bool := do
  let top ← top c
  let all ← focusables top
  match next? (← read top).focus all with
  | none => return false
  | some it => setFocus top (some it)

def activate (c : ComponentId) : SceneM U X Unit := do
  let top ← top c
  unless (← read top).shown do
    modify top fun w => { w with shown := true }
    if let some n ← Act.ask fun s => (s.component top).definition.initialFocus then
      discard <| setFocus top (some ⟨top, n⟩)

/-! ## Pointer -/

inductive PointerKind where
  | move
  | press
  | release
  | exit
  | other
  deriving DecidableEq, Repr

def isClipped (x y : Float) : List ItemRef → SceneM U X Bool
  | [] => return false
  | p :: rest => do
    if ← Item.has p .clip then
      if (← Item.absolute p).contains x y then isClipped x y rest else return true
    else isClipped x y rest

def itemAt (c : ComponentId) (x y : Float) : SceneM U X (Option ItemRef) := do
  let test : Visitor U X (Option ItemRef) := fun it hit => do
    if ← Item.has it .pointer then
      if ← Item.isEnabled it then
        if (← Item.absolute it).contains x y then
          unless ← isClipped x y (← Act.ask fun s => s.ancestors it) do
            return (false, some it)
    return (true, hit)
  return (← Component.visit (← top c) .frontToBack test none).2

def setHover (c : ComponentId) (it : Option ItemRef) : SceneM U X Unit := do
  let previous := (← read c).hover
  unless previous = it do
    withdraw previous "has_hover"
    modify c fun w => { w with hover := it }
    if let some it := it then Item.setIfPresent it "has_hover" (.bool true)

def setMouse (it : ItemRef) (x y : Float) : SceneM U X Unit := do
  Item.setIfPresent it "mouse_x" (.float x)
  Item.setIfPresent it "mouse_y" (.float y)

def pointerExit (c : ComponentId) : SceneM U X Unit := do
  if let some g := (← read c).grabber then
    Item.setIfPresent g "pressed" (.bool false)
    modify c fun w => { w with grabber := none }
  setHover c none

/-- The item that holds the pointer gets every event until the release, which is a click
when it happens inside the item. -/
def pointerGrabbed (c : ComponentId) (g : ItemRef) (kind : PointerKind) (x y : Float) :
    SceneM U X Unit := do
  let r ← Item.absolute g
  setMouse g (x - r.x) (y - r.y)
  if kind = .release then
    modify c fun w => { w with grabber := none }
    Item.setIfPresent g "pressed" (.bool false)
    if r.contains x y && (← Item.callback? g "clicked").isSome then
      discard <| Item.emit g "clicked" []

/-- Routes a pointer event to the item under it. A press grabs the pointer. Returns whether
an item took the event. -/
def pointer (c : ComponentId) (kind : PointerKind) (x y : Float) : SceneM U X Bool := do
  let top ← top c
  if let some g := (← read top).grabber then
    if ← isDestroyed g.component then modify top fun w => { w with grabber := none }
  if kind = .exit then
    pointerExit top
    return false
  if let some g := (← read top).grabber then
    pointerGrabbed top g kind x y
    return true
  let target ← itemAt top x y
  setHover top target
  match target with
  | none => return false
  | some it =>
    let r ← Item.absolute it
    setMouse it (x - r.x) (y - r.y)
    if kind = .press then
      modify top fun w => { w with grabber := some it }
      Item.setIfPresent it "pressed" (.bool true)
      if ← Item.has it .focusable then discard <| setFocus top (some it)
    return true

/-! ## Keys -/

inductive Key where
  | text (t : Text)
  | backspace
  | return
  | tab
  | escape
  | other

def edit (it : ItemRef) (t : Text) : SceneM U X Unit := do
  discard <| Item.set it "text" (.string t)
  discard <| Item.emit it "edited" []

def keyTo (it : ItemRef) (key : Key) : SceneM U X Bool := do
  let old := (← Item.get it "text").asText
  match key with
  | .text t =>
    if t.isEmpty then return false
    edit it (old ++ t)
    return true
  | .backspace =>
    unless old.isEmpty do edit it old.dropLast
    return true
  | .return =>
    discard <| Item.emit it "accepted" []
    return true
  | _ => return false

/-- Delivers a key: tab moves the focus, escape clears it, the others go to the focused
input. Returns whether the key was taken. -/
def key (c : ComponentId) (key : Key) : SceneM U X Bool := do
  let top ← top c
  match key with
  | .tab => focusNext top
  | .escape =>
    if (← focusItem top).isNone then return false
    setFocus top none
  | _ =>
    match ← focusItem top with
    | none => return false
    | some it =>
      if !(← Item.has it .keyboard) then return false
      if !(← Item.isEnabled it) then return false
      keyTo it key

end ReactiveTree.Window
