import ReactiveTree.Yaml.Mark

/-!
# A text that is read portion by portion

A text becomes available in portions of a fixed number of bytes, each when it is first
needed. A character that no text may have spoils the portion it stands in, so it does not
matter while what is before that portion suffices.
-/

namespace ReactiveTree.Yaml

structure Portion where
  size : Nat
  spoilt : Bool := false
  deriving DecidableEq, Repr

namespace Portion

def bytes : Nat := 512

def split : (room size : Nat) → List Char → List Portion
  | _, size, [] => if size = 0 then [] else [{ size }]
  | room, size, c :: rest =>
    if c.utf8Size ≤ room then
      if isAllowed c then split (room - c.utf8Size) (size + 1) rest
      else [{ size, spoilt := true }]
    else
      { size } ::
        if isAllowed c then split (bytes - c.utf8Size) 1 rest
        else [{ size := 0, spoilt := true }]

end Portion

structure Source where
  rest : List Char
  mark : Mark := {}
  newlines : Nat := 0
  available : Nat := 0
  portions : List Portion
  marked : Bool := false

namespace Source

def ofText (text : List Char) : Source :=
  match text with
  | c :: rest =>
    if c = byteOrderMark then
      { rest, portions := Portion.split (Portion.bytes - c.utf8Size) 0 rest }
    else { rest := text, portions := Portion.split Portion.bytes 0 text }
  | [] => { rest := [], portions := [] }

/-! ## Looking -/

def atEnd (s : Source) : Bool := s.rest.isEmpty

def sees (s : Source) (c : Char) : Bool := s.rest.head? = some c

def onGap (s : Source) : Bool := s.rest.head?.any isGap

def onBreak (s : Source) : Bool := s.rest.head?.any isBreak

def blankAt (s : Source) (n : Nat) : Bool :=
  match s.rest[n]? with
  | none => true
  | some c => isGap c || isBreak c

def atLineEnd (s : Source) : Bool := s.atEnd || s.onBreak

def onDocumentMark (s : Source) (c : Char) : Bool :=
  s.mark.column = 0 && [c, c, c].isPrefixOf s.rest && s.blankAt 3

def onAnyDocumentMark (s : Source) : Bool := s.onDocumentMark '-' || s.onDocumentMark '.'

/-! ## Moving on -/

def fill (n : Nat) : (available : Nat) → List Portion → Nat × List Portion × Bool
  | available, [] => (if n ≤ available then available else available + 1, [], true)
  | available, p :: rest =>
    if n ≤ available then (available, p :: rest, true)
    else if p.spoilt then (available + p.size, [{ p with size := 0 }], false)
    else fill n (available + p.size) rest

def provide (s : Source) (n : Nat) : Source × Bool :=
  if n ≤ s.available then (s, true)
  else
    let (available, portions, fine) := fill n s.available s.portions
    ({ s with available, portions, marked := s.rest.head? = some byteOrderMark }, fine)

def skip (s : Source) : Source :=
  { s with
    rest := s.rest.tail
    mark := { s.mark with column := s.mark.column + 1, index := s.mark.index + 1 }
    newlines := if s.onGap then s.newlines else 0
    available := s.available - 1 }

def nextLine (s : Source) (n : Nat) : Source :=
  { s with
    rest := s.rest.drop n
    mark := { line := s.mark.line + 1, column := 0, index := s.mark.index + n }
    newlines := s.newlines + 1
    available := s.available - n }

def readBreak (s : Source) : List Char × Source :=
  match s.rest with
  | '\r' :: '\n' :: _ => (['\n'], s.nextLine 2)
  | c :: _ =>
    if c = '\n' || c = '\r' || c.toNat = 0x85 then (['\n'], s.nextLine 1)
    else if isBreak c then ([c], s.nextLine 1)
    else ([], s)
  | [] => ([], s)

end Source

end ReactiveTree.Yaml
