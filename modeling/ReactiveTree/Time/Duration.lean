import ReactiveTree.Text.Quoted
import ReactiveTree.Number.Binary
import ReactiveTree.Number.Reader

/-!
# Durations

A duration is a count of nanoseconds. Its text mixes hours, minutes and seconds
(`1h2m3.5s`), or for less than a second one small unit (`1.5ms`), with trailing zeros of
the fraction removed.
-/

namespace ReactiveTree.Duration

def microsecond : Nat := 1000
def millisecond : Nat := 1000 * microsecond
def second : Nat := 1000 * millisecond
def minute : Nat := 60 * second
def hour : Nat := 60 * minute

/-- The greatest duration, without its sign. -/
def limit : Nat := 0x8000000000000000

def withPoint (digits : List Char) : List Char :=
  if digits.isEmpty then [] else '.' :: digits

/-- `n / 10 ^ places` in decimal: the fraction without trailing zeros, and no point
without a fraction. -/
def showScaled (n places : Nat) : List Char :=
  let fraction := Nat.toDigits 10 (n % Nat.pow 10 places)
  let padded := List.replicate (places - fraction.length) '0' ++ fraction
  Nat.toDigits 10 (n / Nat.pow 10 places) ++ withPoint (padded.reverse.dropWhile (· == '0')).reverse

def showNat (n : Nat) : List Char :=
  if n = 0 then ['0', 's']
  else if n < microsecond then showScaled n 0 ++ ['n', 's']
  else if n < millisecond then showScaled n 3 ++ ['µ', 's']
  else if n < second then showScaled n 6 ++ ['m', 's']
  else
    let seconds := showScaled (n % minute) 9 ++ ['s']
    let minutes := n / minute
    if minutes = 0 then seconds
    else
      let hours := minutes / 60
      let body := Nat.toDigits 10 (minutes % 60) ++ 'm' :: seconds
      if hours = 0 then body else Nat.toDigits 10 hours ++ 'h' :: body

def showInt (n : Int) : List Char :=
  if n < 0 then '-' :: showNat n.natAbs else showNat n.natAbs

end ReactiveTree.Duration

namespace ReactiveTree

def showDuration (n : Int64) : String := String.ofList (Duration.showInt n.toInt)

end ReactiveTree

namespace ReactiveTree.Duration

inductive ReadError where
  | invalid
  | missingUnit
  | unknownUnit (unit : List Char)
  deriving DecidableEq, Repr

def unit? : List Char → Option Nat
  | ['n', 's'] => some 1
  | ['u', 's'] | ['µ', 's'] | ['μ', 's'] => some microsecond
  | ['m', 's'] => some millisecond
  | ['s'] => some second
  | ['m'] => some minute
  | ['h'] => some hour
  | _ => none

/-- The digits after the point as a number, and how many they are. Digits past the precision of 63
bits are dropped. -/
def fractionPart (n places : Nat) : List Char → Nat × Nat
  | [] => (n, places)
  | c :: rest =>
    match Number.addDigit 10 limit n c with
    | .ok n => fractionPart n (places + 1) rest
    | .error _ => (n, places)

def splitFraction : List Char → List Char × List Char
  | '.' :: rest => (rest.takeWhile Char.isDigit, rest.dropWhile Char.isDigit)
  | rest => ([], rest)

def isUnitChar (c : Char) : Bool := !(c = '.' || c.isDigit)

/-- `n / 10 ^ places` of a unit. It is computed with floats, which are exact for whole numbers that
are not too large. -/
def partOf (unit n places : Nat) : Nat :=
  let step := unit / Nat.pow 10 places
  if unit % Nat.pow 10 places = 0 && n * step < 0x20000000000000 then n * step
  else
    let scale : Float := Nat.repeat (· * 10) places 1
    ((Number.truncate? (Float.ofNat n * (Float.ofNat unit / scale))).getD 0).toNat

/-- Reads a run of amounts with units and adds them up. Each round takes at least one
character, so the length of the text bounds the rounds. -/
def readAmounts : (rounds : Nat) → List Char → Nat → Except ReadError Nat
  | _, [], total => .ok total
  | 0, _ :: _, _ => .error .invalid
  | rounds + 1, s, total =>
    let whole := s.takeWhile Char.isDigit
    let (fraction, s) := splitFraction (s.dropWhile Char.isDigit)
    let name := s.takeWhile isUnitChar
    match whole.foldlM (Number.addDigit 10 limit) 0 with
    | .error _ => .error .invalid
    | .ok v =>
      if whole.isEmpty && fraction.isEmpty then .error .invalid
      else if name.isEmpty then .error .missingUnit
      else
        match unit? name with
        | none => .error (.unknownUnit name)
        | some unit =>
          let (n, places) := fractionPart 0 0 fraction
          let total := total + v * unit + partOf unit n places
          if limit < total then .error .invalid
          else readAmounts rounds (s.dropWhile isUnitChar) total

def read (s : List Char) : Except ReadError Int :=
  let (negative, body) := Number.splitSign s
  if body = ['0'] then .ok 0
  else if body.isEmpty then .error .invalid
  else
    match readAmounts body.length body 0 with
    | .error e => .error e
    | .ok n =>
      if negative then .ok (-n)
      else if n < limit then .ok n
      else .error .invalid

/-- In messages about durations every byte outside printable ASCII is written in
hexadecimal. -/
def quoteBytes (s : List Char) : String :=
  let escape (c : Char) : String :=
    if c.toNat < 0x20 || 0x80 ≤ c.toNat then
      String.join ((String.utf8EncodeChar c).map fun b => "\\x" ++ hexDigits 2 b.toNat)
    else if c = '"' || c = '\\' then String.ofList ['\\', c]
    else c.toString
  "\"" ++ String.join (s.map escape) ++ "\""

def ReadError.message (e : ReadError) (s : List Char) : String :=
  match e with
  | .invalid => "time: invalid duration " ++ quoteBytes s
  | .missingUnit => "time: missing unit in duration " ++ quoteBytes s
  | .unknownUnit unit =>
    "time: unknown unit " ++ quoteBytes unit ++ " in duration " ++ quoteBytes s

end ReactiveTree.Duration
