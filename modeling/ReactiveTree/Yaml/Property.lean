import ReactiveTree.Number.Reader
import ReactiveTree.Yaml.Lexer

/-!
# Anchors, tags and directives
-/

namespace ReactiveTree.Yaml

def readAnchor : Lex String := do
  let start ← Lex.mark
  Lex.skip
  let name ← Lex.readWhile isWordChar
  let s ← Lex.source
  let ends := s.blankAt 0 || s.rest.head?.any fun c => "?:,]\x7d%@\x60".toList.contains c
  if name.isEmpty || !ends then
    Lex.fail start "did not find expected alphabetic or numeric character"
  return String.ofList name

/-! ## Tags -/

def isTagChar (c : Char) : Bool := isWordChar c || ";/?:@&=+$,.!~*\x27()[]%".toList.contains c

def sequenceLength? (b : UInt8) : Option Nat :=
  if b < 0x80 then some 1
  else if b < 0xC0 then none
  else if b < 0xE0 then some 2
  else if b < 0xF0 then some 3
  else if b < 0xF8 then some 4
  else none

def readOctet (start : Mark) : Lex UInt8 := do
  Lex.need 3
  match (← Lex.source).rest with
  | '%' :: a :: b :: _ =>
    match Number.hexValue? a, Number.hexValue? b with
    | some x, some y => return UInt8.ofNat (x * 16 + y)
    | _, _ => Lex.fail start "did not find URI escaped octet"
  | _ => Lex.fail start "did not find URI escaped octet"

def readTrailingOctets (start : Mark) : (n : Nat) → (read : List UInt8) → Lex (List UInt8)
  | 0, read => return read
  | n + 1, read => do
    let b ← readOctet start
    if b < 0x80 || 0xC0 ≤ b then Lex.fail start "found an incorrect trailing UTF-8 octet"
    Lex.skipMany 3
    readTrailingOctets start n (b :: read)

def readOctets (start : Mark) (read : List UInt8) : Lex (List UInt8) := do
  let b ← readOctet start
  match sequenceLength? b with
  | none => Lex.fail start "found an incorrect leading UTF-8 octet"
  | some n =>
    Lex.skipMany 3
    readTrailingOctets start (n - 1) (b :: read)

def readUriBytes (start : Mark) : (limit : Nat) → (read : List UInt8) → Lex (List UInt8)
  | 0, read => return read
  | limit + 1, read => do
    Lex.need 1
    match (← Lex.source).rest with
    | [] => return read
    | c :: _ =>
      if c = '%' then readUriBytes start limit (← readOctets start read)
      else if isTagChar c then
        Lex.skip
        readUriBytes start limit ((String.utf8EncodeChar c).reverse ++ read)
      else return read

def readUri (start : Mark) : Lex Text := do
  let bytes ← readUriBytes start (← Lex.bound) []
  if bytes.isEmpty then Lex.fail start "did not find expected tag URI"
  return ⟨bytes.reverse⟩

def readTag : Lex (String × Text) := do
  let start ← Lex.mark
  Lex.need 2
  let tag ←
    if (← Lex.source).rest[1]? = some '<' then do
      Lex.skipMany 2
      let uri ← readUri start
      if !(← Lex.source).sees '>' then Lex.fail start "did not find the expected '>'"
      Lex.skip
      pure ("", uri)
    else do
      Lex.skip
      let word ← Lex.readWhile isWordChar
      if (← Lex.source).sees '!' then
        Lex.skip
        pure ("!" ++ String.ofList word ++ "!", ← readUri start)
      else
        let uri ← readUriBytes start (← Lex.bound) (Utf8.encode word).reverse
        pure (if uri.isEmpty then ("", Text.ofString "!") else ("!", ⟨uri.reverse⟩))
  Lex.need 1
  if !(← Lex.source).blankAt 0 then
    Lex.fail start "did not find expected whitespace or line break"
  return tag

/-! ## Directives -/

def readVersionPart (start : Mark) : Lex Nat := do
  Lex.need 1
  let digits ← Lex.readMany Char.isDigit 2 []
  Lex.need 1
  if digits.length = 2 && (← Lex.source).rest.head?.any Char.isDigit then
    Lex.fail start "found extremely long version number"
  if digits.isEmpty then Lex.fail start "did not find expected version number"
  return digits.foldr (fun c n => n * 10 + Number.digitValue c) 0

def readVersion (start : Mark) : Lex TokenKind := do
  Lex.skipWhile isGap
  let major ← readVersionPart start
  if !(← Lex.source).sees '.' then
    Lex.fail start "did not find expected digit or '.' character"
  Lex.skip
  return .versionDirective major (← readVersionPart start)

def readHandle (start : Mark) : Lex String := do
  Lex.need 1
  if !(← Lex.source).sees '!' then Lex.fail start "did not find expected '!'"
  Lex.skip
  let word ← Lex.readWhile isWordChar
  if (← Lex.source).sees '!' then
    Lex.skip
    return "!" ++ String.ofList word ++ "!"
  if !word.isEmpty then Lex.fail start "did not find expected '!'"
  return "!"

def readTagDirective (start : Mark) : Lex TokenKind := do
  Lex.skipWhile isGap
  let handle ← readHandle start
  Lex.need 1
  if !(← Lex.source).onGap then Lex.fail start "did not find expected whitespace"
  Lex.skipWhile isGap
  let uri ← readUri start
  Lex.need 1
  if !(← Lex.source).blankAt 0 then
    Lex.fail start "did not find expected whitespace or line break"
  return .tagDirective handle uri

def readDirective : Lex TokenKind := do
  let start ← Lex.mark
  Lex.skip
  let name ← Lex.readWhile isWordChar
  if name.isEmpty then Lex.fail start "could not find expected directive name"
  if !(← Lex.source).blankAt 0 then
    Lex.fail start "found unexpected non-alphabetical character"
  let kind ←
    if name = "YAML".toList then readVersion start
    else if name = "TAG".toList then readTagDirective start
    else Lex.fail start "found unknown directive name"
  Lex.skipWhile isGap
  if (← Lex.source).sees '#' then Lex.skipWhile (!isBreak ·)
  if !(← Lex.source).atLineEnd then
    Lex.fail start "did not find expected comment or line break"
  if (← Lex.source).onBreak then
    Lex.need 2
    Lex.skipBreak
  return kind

end ReactiveTree.Yaml
