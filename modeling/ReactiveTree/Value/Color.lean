import ReactiveTree.Text.Quoted
import ReactiveTree.Number.Reader

/-!
# Colors

A color is four 8-bit channels in 32 bits, alpha highest. It is written `#aarrggbb` and
read in that form or, opaque, as `#rrggbb` or `#rgb`.
-/

namespace ReactiveTree.Color

structure Channels where
  alpha : UInt8
  red : UInt8
  green : UInt8
  blue : UInt8
  deriving DecidableEq, Repr

def channels (c : UInt32) : Channels where
  alpha := (c >>> 24).toUInt8
  red := (c >>> 16).toUInt8
  green := (c >>> 8).toUInt8
  blue := c.toUInt8

def ofChannels (ch : Channels) : UInt32 :=
  ch.alpha.toUInt32 <<< 24 ||| ch.red.toUInt32 <<< 16 ||| ch.green.toUInt32 <<< 8
    ||| ch.blue.toUInt32

def format (c : UInt32) : String := "#" ++ hexDigits 8 c.toNat

inductive ReadError where
  | noHash (s : Text)
  | digits (s : Text) (hex : Text) (cause : Number.ReadError)
  | length (s : Text) (digits : Nat)
  deriving DecidableEq, Repr

def ReadError.message : ReadError → String
  | .noHash s => s!"color {s.quote} must start with #"
  | .digits s hex cause =>
    let problem := match cause with
      | .invalid => "invalid syntax"
      | .outOfRange => "value out of range"
    s!"color {s.quote}: strconv.ParseUint: parsing {hex.quote}: {problem}"
  | .length s n => s!"color {s.quote} has {n} digits"

def byteChar (b : UInt8) : Char := Char.ofNat b.toNat

def expand : List UInt8 → List UInt8
  | [r, g, b] => [r, r, g, g, b, b]
  | hex => hex

def read (t : Text) : Except ReadError UInt32 :=
  let s := t.trim
  match s.bytes with
  | [] => .error (.noHash s)
  | first :: rest =>
    if byteChar first = '#' then
      let hex := expand rest
      match Number.readNat 16 (UInt32.size - 1) (hex.map byteChar) with
      | .error cause => .error (.digits s ⟨hex⟩ cause)
      | .ok n =>
        if hex.length = 6 then .ok (0xFF000000 ||| UInt32.ofNat n)
        else if hex.length = 8 then .ok (UInt32.ofNat n)
        else .error (.length s hex.length)
    else .error (.noHash s)

end ReactiveTree.Color
