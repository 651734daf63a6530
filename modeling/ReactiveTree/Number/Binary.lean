/-!
# Binary floating point, read from the bits

A finite float is an integer mantissa times a power of two. Everything exact about
floats (printing, truncation, rounding) is computed from that pair.
-/

namespace ReactiveTree.Number

inductive Decoded where
  | nan
  | infinite (negative : Bool)
  /-- `± mantissa * 2 ^ exponent`. The gap to the next number below is half the gap
  above exactly when `narrowBelow`. -/
  | finite (negative : Bool) (mantissa : Nat) (exponent : Int) (narrowBelow : Bool)
  deriving DecidableEq, Repr

def decodeBits (fractionBits exponentBits bits : Nat) : Decoded :=
  let fraction := bits % Nat.pow 2 fractionBits
  let biased := bits / Nat.pow 2 fractionBits % Nat.pow 2 exponentBits
  let negative := bits / Nat.pow 2 (fractionBits + exponentBits) % 2 = 1
  let bias : Int := Nat.pow 2 (exponentBits - 1) - 1 + fractionBits
  if biased = Nat.pow 2 exponentBits - 1 then
    if fraction = 0 then .infinite negative else .nan
  else if biased = 0 then .finite negative fraction (1 - bias) false
  else
    .finite negative (Nat.pow 2 fractionBits + fraction) (biased - bias)
      (fraction = 0 && 1 < biased)

def decode64 (x : Float) : Decoded := decodeBits 52 11 x.toBits.toNat

def decode32 (x : Float32) : Decoded := decodeBits 23 8 x.toBits.toNat

def shiftDown (n : Nat) (q : Int) : Nat := n * Nat.pow 2 q.toNat / Nat.pow 2 (-q).toNat

def shiftRound (n : Nat) (q : Int) : Nat :=
  (2 * n * Nat.pow 2 q.toNat + Nat.pow 2 (-q).toNat) / (2 * Nat.pow 2 (-q).toNat)

def signed (negative : Bool) (n : Nat) : Int := if negative then -n else n

def truncate? (x : Float) : Option Int :=
  match decode64 x with
  | .finite negative m q _ => some (signed negative (shiftDown m q))
  | _ => none

def nearest? (x : Float) : Option Int :=
  match decode64 x with
  | .finite negative m q _ => some (signed negative (shiftRound m q))
  | _ => none

def leastInt64 : Int := -0x8000000000000000

def clampInt64 : Option Int → Int64
  | some n => if leastInt64 ≤ n && n < -leastInt64 then Int64.ofInt n else Int64.ofInt leastInt64
  | none => Int64.ofInt leastInt64

def toInt64 (x : Float) : Int64 := clampInt64 (truncate? x)

def ofInt64 (n : Int64) : Float := Float.ofInt n.toInt

end ReactiveTree.Number
