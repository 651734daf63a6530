import ReactiveTree.Number.Binary

/-!
# The shortest decimal that reads back

Of all decimals that round to a given float, the text has the fewest digits, and of
those the digits nearest to the exact value. The search goes through grids of decimals
with 1, 2, 3, ... digits: if any point of a grid rounds to the float, one of the two grid
points around the exact value does.
-/

namespace ReactiveTree.Number

def compareScaled (a : Nat) (k : Int) (b : Nat) (q : Int) : Ordering :=
  compare (a * Nat.pow 10 k.toNat * Nat.pow 2 (-q).toNat)
    (b * Nat.pow 2 q.toNat * Nat.pow 10 (-k).toNat)

/-- Does `d * 10 ^ k` round to `m * 2 ^ q`? The ends of the interval belong to it exactly
when the mantissa is even. -/
def roundsTo (m : Nat) (q : Int) (narrowBelow : Bool) (d : Nat) (k : Int) : Bool :=
  let low := compareScaled d k (if narrowBelow then 4 * m - 1 else 4 * m - 2) (q - 2)
  let high := compareScaled d k (4 * m + 2) (q - 2)
  if m % 2 = 0 then low != .lt && high != .gt else low == .gt && high == .lt

/-- The exponent of the first decimal digit of `m * 2 ^ q`, starting from an estimate
that is off by at most a few and correcting it. -/
def leadingExponent (m : Nat) (q : Int) : Int :=
  let estimate : Int := ((m.log2 : Int) + q) * 30103 / 100000
  let up := if compareScaled 1 (estimate + 1) m q != .gt then estimate + 1 else estimate
  if compareScaled 1 up m q == .gt then up - 1 else up

/-- The decimal `d * 10 ^ k` on the grid with step `10 ^ k` that is chosen for
`m * 2 ^ q`, if one on the grid rounds to it. -/
def onGrid? (m : Nat) (q : Int) (narrowBelow : Bool) (k : Int) : Option Nat :=
  let below := m * Nat.pow 2 q.toNat * Nat.pow 10 (-k).toNat
    / (Nat.pow 2 (-q).toNat * Nat.pow 10 k.toNat)
  let lowFits := roundsTo m q narrowBelow below k
  let highFits := roundsTo m q narrowBelow (below + 1) k
  if lowFits && highFits then
    match compareScaled (2 * below + 1) k (2 * m) q with
    | .gt => some below
    | .lt => some (below + 1)
    | .eq => some (if below % 2 = 0 then below else below + 1)
  else if lowFits then some below
  else if highFits then some (below + 1)
  else none

def searchGrids (m : Nat) (q : Int) (narrowBelow : Bool) (lead : Int) :
    (tries : Nat) → (digits : Nat) → Nat × Int
  | 0, _ => (0, 0)
  | tries + 1, digits =>
    let k := lead - digits
    match onGrid? m q narrowBelow k with
    | some d => (d, k)
    | none => searchGrids m q narrowBelow lead tries (digits + 1)

def shortestDigits (m : Nat) (q : Int) (narrowBelow : Bool) : List Char × Int :=
  if m = 0 then (['0'], 0)
  else
    let (d, k) := searchGrids m q narrowBelow (leadingExponent m q) 20 0
    let digits := Nat.toDigits 10 d
    ((digits.reverse.dropWhile (· == '0')).reverse, k + digits.length - 1)

structure DecimalLayout where
  firstPositional : Int
  endPositional : Int
  exponentWidth : Nat

/-- Numbers from a ten-thousandth to below a million are written positionally, others
with a signed exponent of two digits or more. -/
def DecimalLayout.general : DecimalLayout := ⟨-4, 6, 2⟩

def layOut (layout : DecimalLayout) (digits : List Char) (exponent : Int) : List Char :=
  if layout.firstPositional ≤ exponent && exponent < layout.endPositional then
    if exponent < 0 then
      '0' :: '.' :: List.replicate (-exponent - 1).toNat '0' ++ digits
    else
      let whole := exponent.toNat + 1
      if digits.length ≤ whole then
        digits ++ List.replicate (whole - digits.length) '0'
      else digits.take whole ++ '.' :: digits.drop whole
  else
    let power := Nat.toDigits 10 exponent.natAbs
    let fraction := if digits.length ≤ 1 then [] else '.' :: digits.drop 1
    digits.take 1 ++ fraction ++ 'e' :: (if exponent < 0 then '-' else '+')
      :: List.replicate (layout.exponentWidth - power.length) '0' ++ power

def Decoded.text : Decoded → String
  | .nan => "NaN"
  | .infinite negative => if negative then "-Inf" else "+Inf"
  | .finite negative m q narrowBelow =>
    let (digits, exponent) := shortestDigits m q narrowBelow
    let body := layOut .general digits exponent
    String.ofList (if negative then '-' :: body else body)

def showFloat (x : Float) : String := (decode64 x).text

def showFloat32 (x : Float32) : String := (decode32 x).text

end ReactiveTree.Number
