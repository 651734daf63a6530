import ReactiveTree.Text.Fold
import ReactiveTree.Value.Basic

/-!
# Item kinds and their property tables

An item belongs to one of ten built-in kinds. The kind fixes its capabilities, its table
of properties (geometry first, in the same order for every kind) and its callbacks.
-/

namespace ReactiveTree

inductive ItemKind where
  | window
  | empty
  | rectangle
  | borderRectangle
  | text
  | textInput
  | touchArea
  | image
  | flickable
  | path
  deriving DecidableEq, Repr, Inhabited

namespace ItemKind

def all : List ItemKind :=
  [.window, .empty, .rectangle, .borderRectangle, .text, .textInput, .touchArea, .image,
    .flickable, .path]

def name : ItemKind → String
  | .window => "Window"
  | .empty => "Empty"
  | .rectangle => "Rectangle"
  | .borderRectangle => "BorderRectangle"
  | .text => "Text"
  | .textInput => "TextInput"
  | .touchArea => "TouchArea"
  | .image => "Image"
  | .flickable => "Flickable"
  | .path => "Path"

def ofNumber? (n : Nat) : Option ItemKind := all[n]?

def number (k : ItemKind) : Nat := all.idxOf k

def numberName (n : Nat) : String :=
  match ofNumber? n with
  | some k => k.name
  | none => s!"Kind({n})"

def ofName? (s : String) : Option ItemKind := all.find? fun k => matchesWord k.name s

end ItemKind

inductive Capability where
  | geometry
  | paint
  | pointer
  | keyboard
  | focusable
  | text
  | clip
  deriving DecidableEq, Repr

namespace Capability

def all : List Capability := [.geometry, .paint, .pointer, .keyboard, .focusable, .text, .clip]

def name : Capability → String
  | .geometry => "geometry"
  | .paint => "paint"
  | .pointer => "pointer"
  | .keyboard => "keyboard"
  | .focusable => "focusable"
  | .text => "text"
  | .clip => "clip"

def bit : Capability → UInt16
  | .geometry => 1
  | .paint => 2
  | .pointer => 4
  | .keyboard => 8
  | .focusable => 16
  | .text => 32
  | .clip => 64

end Capability

structure Caps where
  bits : UInt16
  deriving DecidableEq, Repr, Inhabited

namespace Caps

def ofList (cs : List Capability) : Caps := ⟨cs.foldl (fun bits c => bits ||| c.bit) 0⟩

def includes (a b : Caps) : Bool := a.bits &&& b.bits == b.bits

def has (a : Caps) (c : Capability) : Bool := a.includes ⟨c.bit⟩

def text (a : Caps) : String :=
  match (Capability.all.filter a.has).map Capability.name with
  | [] => "none"
  | names => "|".intercalate names

end Caps

/-- A declared property: its name, the kind every stored value is coerced to, and the
initial value. The kind `void` stores any value as it is. -/
structure PropDecl where
  name : String
  kind : Kind
  default : Value
  deriving Inhabited

structure CallbackDecl where
  name : String
  args : List Kind
  deriving DecidableEq, Repr, Inhabited

structure Layout where
  caps : Caps
  props : List PropDecl
  callbacks : List CallbackDecl
  deriving Inhabited

namespace Layout

def float (name : String) : PropDecl := ⟨name, .float, .float 0⟩

def bool (name : String) (b : Bool) : PropDecl := ⟨name, .bool, .bool b⟩

def string (name s : String) : PropDecl := ⟨name, .string, .string (Text.ofString s)⟩

def color (name : String) (c : UInt32) : PropDecl := ⟨name, .color, .color c⟩

def geometry : List PropDecl := [float "x", float "y", float "width", float "height"]

def make (caps : List Capability) (props : List PropDecl) (callbacks : List String) : Layout where
  caps := Caps.ofList (.geometry :: caps)
  props := geometry ++ props
  callbacks := callbacks.map fun name => ⟨name, []⟩

end Layout

open Layout in
def ItemKind.layout : ItemKind → Layout
  | .window => make [.paint] [string "title" "", color "background" 0xFFFFFFFF] []
  | .empty => make [] [] []
  | .rectangle => make [.paint] [color "color" 0] []
  | .borderRectangle =>
    make [.paint]
      [color "color" 0, float "border_width", float "border_radius", color "border_color" 0] []
  | .text =>
    make [.paint, .text]
      [string "text" "", color "color" 0xFF000000, float "font_size",
        string "horizontal_alignment" "left"] []
  | .textInput =>
    make [.paint, .text, .pointer, .keyboard, .focusable]
      [string "text" "", color "color" 0xFF000000, float "font_size", bool "enabled" true,
        bool "has_focus" false]
      ["edited", "accepted"]
  | .touchArea =>
    make [.pointer]
      [bool "enabled" true, bool "pressed" false, bool "has_hover" false, float "mouse_x",
        float "mouse_y"]
      ["clicked"]
  | .image => make [.paint] [string "source" "", string "image_fit" "fill"] []
  | .flickable =>
    make [.clip]
      [float "viewport_x", float "viewport_y", float "viewport_width", float "viewport_height",
        bool "interactive" true] []
  | .path =>
    make [.paint]
      [string "commands" "", color "fill" 0, color "stroke" 0, float "stroke_width"] []

def ItemKind.caps (k : ItemKind) : Caps := k.layout.caps

def PropDecl.index? (decls : List PropDecl) (name : String) : Option Nat :=
  decls.findIdx? (·.name == name)

namespace Layout

def index? (l : Layout) (name : String) : Option Nat := PropDecl.index? l.props name

def callback? (l : Layout) (name : String) : Option Nat := l.callbacks.findIdx? (·.name == name)

end Layout

end ReactiveTree
