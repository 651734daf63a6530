/-!
# Reading numbers

The grammar of number literals: an optional sign, decimal digits with an optional
fraction and exponent, or hexadecimal digits with a binary exponent; underscores may
stand between digits. Reading rounds to the nearest double.
-/

namespace ReactiveTree.Number

inductive ReadError where
  | invalid
  | outOfRange
  deriving DecidableEq, Repr

def digitValue (c : Char) : Nat := c.toNat - '0'.toNat

def hexValue? (c : Char) : Option Nat :=
  if '0' ≤ c && c ≤ '9' then some (c.toNat - '0'.toNat)
  else if 'a' ≤ c && c ≤ 'f' then some (c.toNat - 'a'.toNat + 10)
  else if 'A' ≤ c && c ≤ 'F' then some (c.toNat - 'A'.toNat + 10)
  else none

def splitSign : List Char → Bool × List Char
  | '-' :: rest => (true, rest)
  | '+' :: rest => (false, rest)
  | rest => (false, rest)

def addDigit (base limit n : Nat) (c : Char) : Except ReadError Nat :=
  match hexValue? c with
  | some d =>
    if d < base then
      if n * base + d ≤ limit then .ok (n * base + d) else .error .outOfRange
    else .error .invalid
  | none => .error .invalid

/-- An unsigned whole number of base `base`, at most `limit`. Digits are read from the
left, so an early overflow hides a later bad digit. -/
def readNat (base limit : Nat) (digits : List Char) : Except ReadError Nat :=
  if digits.isEmpty then .error .invalid else digits.foldlM (addDigit base limit) 0

def greatest (negative : Bool) : Nat := if negative then 0x8000000000000000 else 0x7FFFFFFFFFFFFFFF

def readInt? (s : List Char) : Option Int :=
  let (negative, digits) := splitSign s
  match readNat 10 (greatest negative) digits with
  | .ok n => some (if negative then -n else n)
  | .error _ => none

def splitBase : List Char → Nat × List Char
  | '0' :: m :: d :: rest =>
    if m = 'x' || m = 'X' then (16, d :: rest)
    else if m = 'o' || m = 'O' then (8, d :: rest)
    else if m = 'b' || m = 'B' then (2, d :: rest)
    else (8, m :: d :: rest)
  | '0' :: m :: rest => (8, m :: rest)
  | cs => (10, cs)

inductive Seen where
  | start | digit | underscore | other
  deriving DecidableEq

def underscoresFit (s : List Char) : Bool :=
  let (_, body) := splitSign s
  let (hex, seen, body) := match body with
    | '0' :: c :: rest =>
      if c.toLower = 'x' then (true, Seen.digit, rest)
      else if c.toLower = 'b' || c.toLower = 'o' then (false, Seen.digit, rest)
      else (false, Seen.start, body)
    | _ => (false, Seen.start, body)
  go hex seen body
where
  go (hex : Bool) : Seen → List Char → Bool
    | seen, [] => seen != .underscore
    | seen, c :: rest =>
      if c.isDigit || (hex && (hexValue? c).isSome) then go hex .digit rest
      else if c = '_' then seen == .digit && go hex .underscore rest
      else if seen == .underscore then false
      else go hex .other rest

/-- An unsigned whole number in the base that its mark says. Underscores may stand between its
digits; an overflow hides one in a wrong place. -/
def readMarkedNat (limit : Nat) (cs : List Char) : Except ReadError Nat := do
  let (base, digits) := splitBase cs
  if cs.isEmpty then throw .invalid
  let n ← (digits.filter (· ≠ '_')).foldlM (addDigit base limit) 0
  if cs.contains '_' && !underscoresFit cs then throw .invalid
  return n

def readMarkedInt (cs : List Char) : Except ReadError Int := do
  let (negative, digits) := splitSign cs
  let n ← readMarkedNat (greatest negative) digits
  return if negative then -n else n

structure Digits where
  mantissa : Nat := 0
  fraction : Nat := 0
  point : Bool := false
  any : Bool := false
  underscores : Bool := false

def readDigits (base : Nat) : Digits → List Char → Digits × List Char
  | acc, [] => (acc, [])
  | acc, c :: rest =>
    if c = '_' then readDigits base { acc with underscores := true } rest
    else if c = '.' then
      if acc.point then (acc, c :: rest) else readDigits base { acc with point := true } rest
    else
      match hexValue? c with
      | some d =>
        if d < base then
          readDigits base
            { acc with
              mantissa := acc.mantissa * base + d
              fraction := if acc.point then acc.fraction + 1 else acc.fraction
              any := true } rest
        else (acc, c :: rest)
      | none => (acc, c :: rest)

def extendExponent (e : Nat) (c : Char) : Nat :=
  if e < 10000 then e * 10 + digitValue c else e

def readExponent : Nat → Bool → List Char → Option (Nat × Bool)
  | e, underscores, [] => some (e, underscores)
  | e, underscores, c :: rest =>
    if c = '_' then readExponent e true rest
    else if c.isDigit then readExponent (extendExponent e c) underscores rest
    else none

def ofDecimal (m : Nat) (e : Int) : Float :=
  if m = 0 then 0
  else if (400 : Int) + e < 0 && (m.log2 : Int) < -3 * (400 + e) then 0
  else if 400 < e then Float.ofBits 0x7FF0000000000000
  else Float.ofScientific m (e < 0) e.natAbs

def ofBinary (m : Nat) (e : Int) : Float :=
  if m = 0 then 0
  else if 1100 < e then Float.ofBits 0x7FF0000000000000
  else if (m.log2 : Int) + e < -1100 then 0
  else if 0 ≤ e then Float.ofNat (m * Nat.pow 2 e.toNat)
  else Float.ofScientific (m * Nat.pow 5 e.natAbs) true e.natAbs

def readSpecial? (s : List Char) : Option Float :=
  let (negative, name) := splitSign s
  let signedName := s != name
  let word := String.ofList (name.map Char.toLower)
  if word = "inf" || word = "infinity" then
    some (Float.ofBits (if negative then 0xFFF0000000000000 else 0x7FF0000000000000))
  else if word = "nan" && !signedName then some (Float.ofBits 0x7FF8000000000001)
  else none

def readFloat (s : List Char) : Except ReadError Float :=
  match readSpecial? s with
  | some x => .ok x
  | none =>
    let (negative, body) := splitSign s
    let (hex, body) := match body with
      | '0' :: x :: c :: rest => if x = 'x' || x = 'X' then (true, c :: rest) else (false, body)
      | _ => (false, body)
    let (digits, rest) := readDigits (if hex then 16 else 10) {} body
    if !digits.any then .error .invalid
    else
      let exponent : Option (Int × Bool) := match rest with
        | [] => if hex then none else some (0, false)
        | c :: rest =>
          if c.toLower = (if hex then 'p' else 'e') then
            let (negative, rest) := splitSign rest
            match rest with
            | [] => none
            | d :: _ =>
              if d.isDigit then
                (readExponent 0 false rest).map fun (e, underscores) =>
                  (if negative then -e else e, underscores)
              else none
          else none
      match exponent with
      | none => .error .invalid
      | some (e, underscores) =>
        if (digits.underscores || underscores) && !underscoresFit s then .error .invalid
        else
          let magnitude :=
            if hex then ofBinary digits.mantissa (e - 4 * digits.fraction)
            else ofDecimal digits.mantissa (e - digits.fraction)
          if magnitude.isInf then .error .outOfRange
          else .ok (if negative then -magnitude else magnitude)

end ReactiveTree.Number
