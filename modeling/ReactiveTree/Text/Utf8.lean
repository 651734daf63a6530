/-!
# UTF-8 over arbitrary bytes

A byte string is read as a run of pieces: encoded characters, and stray bytes that
belong to no character. Reading never fails and never skips a byte.
-/

namespace ReactiveTree.Utf8

def isContinuation (b : UInt8) : Bool := 0x80 ≤ b && b ≤ 0xBF

def payload (b : UInt8) : Nat := b.toNat % 64

/-- The character encoded at the head of `bs`, with the number of bytes it takes.
Overlong forms, surrogates and values past the last code point are not characters. -/
def decodeFirst : List UInt8 → Option (Char × Nat)
  | [] => none
  | b0 :: rest =>
    if b0 < 0x80 then some (Char.ofNat b0.toNat, 1)
    else if b0 < 0xC2 then none
    else if b0 < 0xE0 then
      match rest with
      | b1 :: _ =>
        if isContinuation b1 then
          some (Char.ofNat (b0.toNat % 32 * 64 + payload b1), 2)
        else none
      | _ => none
    else if b0 < 0xF0 then
      match rest with
      | b1 :: b2 :: _ =>
        let low := if b0 = 0xE0 then 0xA0 else 0x80
        let high := if b0 = 0xED then 0x9F else 0xBF
        if low ≤ b1 && b1 ≤ high && isContinuation b2 then
          some (Char.ofNat ((b0.toNat % 16 * 64 + payload b1) * 64 + payload b2), 3)
        else none
      | _ => none
    else if b0 < 0xF5 then
      match rest with
      | b1 :: b2 :: b3 :: _ =>
        let low := if b0 = 0xF0 then 0x90 else 0x80
        let high := if b0 = 0xF4 then 0x8F else 0xBF
        if low ≤ b1 && b1 ≤ high && isContinuation b2 && isContinuation b3 then
          some (Char.ofNat (((b0.toNat % 8 * 64 + payload b1) * 64 + payload b2) * 64 + payload b3),
            4)
        else none
      | _ => none
    else none

inductive Piece where
  | char (c : Char)
  | stray (b : UInt8)
  deriving DecidableEq, Repr

def Piece.bytes : Piece → List UInt8
  | .char c => String.utf8EncodeChar c
  | .stray b => [b]

def piecesAfter : Nat → List UInt8 → List Piece
  | _, [] => []
  | skip + 1, _ :: rest => piecesAfter skip rest
  | 0, b :: rest =>
    match decodeFirst (b :: rest) with
    | some (c, width) => .char c :: piecesAfter (width - 1) rest
    | none => .stray b :: piecesAfter 0 rest

def pieces (bs : List UInt8) : List Piece := piecesAfter 0 bs

def encode (cs : List Char) : List UInt8 := cs.flatMap String.utf8EncodeChar

def decode? (bs : List UInt8) : Option (List Char) :=
  (pieces bs).mapM fun
    | .char c => some c
    | .stray _ => none

/-- How many bytes the last character of `bs` takes; a stray last byte counts one.
At most four bytes are looked at: the nearest byte before the last that is no
continuation starts the character, if its encoding ends exactly at the end. -/
def lastWidth (bs : List UInt8) : Nat :=
  match bs.reverse with
  | [] => 0
  | b0 :: before =>
    if b0 < 0x80 then 1
    else
      let follow := (before.take 3).takeWhile isContinuation
      match (before.take 3).drop follow.length with
      | [] => 1
      | lead :: _ =>
        match decodeFirst (lead :: (follow.reverse ++ [b0])) with
        | some (_, width) => if width = follow.length + 2 then width else 1
        | none => 1

end ReactiveTree.Utf8
