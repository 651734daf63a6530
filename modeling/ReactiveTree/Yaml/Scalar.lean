import ReactiveTree.Number.Binary
import ReactiveTree.Number.Reader
import ReactiveTree.Text.Quoted

/-!
# What a scalar stands for

A plain scalar is null, a truth value, a number, a date or a text, by its characters alone.
An explicit tag says what it has to be.
-/

namespace ReactiveTree.Yaml

inductive Resolved where
  | null
  | bool (b : Bool)
  | int (n : Int)
  | float (x : Float)
  | timestamp
  | text
  deriving Inhabited

def Resolved.tag : Resolved → String
  | .null => "!!null"
  | .bool _ => "!!bool"
  | .int _ => "!!int"
  | .float _ => "!!float"
  | .timestamp => "!!timestamp"
  | .text => "!!str"

/-! ## Words -/

def word? (s : String) : Option Resolved :=
  if ["true", "True", "TRUE"].contains s then some (.bool true)
  else if ["false", "False", "FALSE"].contains s then some (.bool false)
  else if ["", "~", "null", "Null", "NULL"].contains s then some .null
  else if [".nan", ".NaN", ".NAN"].contains s then some (.float (0.0 / 0.0))
  else if [".inf", ".Inf", ".INF", "+.inf", "+.Inf", "+.INF"].contains s then
    some (.float (1.0 / 0.0))
  else if ["-.inf", "-.Inf", "-.INF"].contains s then some (.float (-1.0 / 0.0))
  else none

/-! ## Numbers -/

def readSignedIn? (base : Nat) (cs : List Char) : Option Int :=
  let (negative, digits) := Number.splitSign cs
  (Number.readNat base (Number.greatest negative) digits).toOption.map (Number.signed negative)

def readMarked? : List Char → Option Int
  | '0' :: 'b' :: rest => readSignedIn? 2 rest
  | '0' :: 'o' :: rest => readSignedIn? 8 rest
  | '-' :: '0' :: 'b' :: rest => readSignedIn? 2 ('-' :: rest)
  | '-' :: '0' :: 'o' :: rest => readSignedIn? 8 ('-' :: rest)
  | _ => none

def isExponent : List Char → Bool
  | [] => true
  | e :: rest =>
    let (_, digits) := Number.splitSign rest
    (e = 'e' || e = 'E') && !digits.isEmpty && digits.all Char.isDigit

def isDecimal (cs : List Char) : Bool :=
  let (_, body) := Number.splitSign cs
  match body with
  | '.' :: rest => rest.head?.any Char.isDigit && isExponent (rest.dropWhile Char.isDigit)
  | _ =>
    body.head?.any Char.isDigit &&
      match body.dropWhile Char.isDigit with
      | '.' :: rest => isExponent (rest.dropWhile Char.isDigit)
      | rest => isExponent rest

def number? (cs : List Char) : Option Resolved :=
  let cs := cs.filter (· ≠ '_')
  match Number.readMarkedInt cs with
  | .ok n => some (.int n)
  | .error _ =>
    match Number.readMarkedNat (UInt64.size - 1) cs with
    | .ok n => some (.int n)
    | .error _ =>
      match if isDecimal cs then (Number.readFloat cs).toOption else none with
      | some x => some (.float x)
      | none => (readMarked? cs).map .int

/-! ## Dates -/

def readTwo? : List Char → Option (Nat × List Char)
  | a :: rest =>
    if a.isDigit then
      match rest with
      | b :: rest =>
        if b.isDigit then some (Number.digitValue a * 10 + Number.digitValue b, rest)
        else some (Number.digitValue a, b :: rest)
      | [] => some (Number.digitValue a, [])
    else none
  | [] => none

def daysIn (year month : Nat) : Nat :=
  if month = 2 then (if year % 4 = 0 && (year % 100 ≠ 0 || year % 400 = 0) then 29 else 28)
  else if [4, 6, 9, 11].contains month then 30
  else 31

def readDate? (cs : List Char) : Option (List Char) := do
  let (digits, rest) := (cs.takeWhile Char.isDigit, cs.dropWhile Char.isDigit)
  guard (digits.length = 4 && rest.head? = some '-')
  let year := digits.foldl (fun n c => n * 10 + Number.digitValue c) 0
  let (month, rest) ← readTwo? rest.tail
  guard (1 ≤ month && month ≤ 12 && rest.head? = some '-')
  let (day, rest) ← readTwo? rest.tail
  guard (1 ≤ day && day ≤ daysIn year month)
  return rest

def skipFraction : List Char → List Char
  | p :: d :: rest =>
    if (p = '.' || p = ',') && d.isDigit then rest.dropWhile Char.isDigit else p :: d :: rest
  | cs => cs

def readClock? (cs : List Char) : Option (List Char) := do
  let (hour, rest) ← readTwo? cs
  guard (hour < 24 && rest.head? = some ':')
  let (minute, rest) ← readTwo? rest.tail
  guard (minute < 60 && rest.head? = some ':')
  let (second, rest) ← readTwo? rest.tail
  guard (second < 60)
  return skipFraction rest

def isZone : List Char → Bool
  | ['Z'] => true
  | [sign, h1, h2, ':', m1, m2] =>
    (sign = '+' || sign = '-') && [h1, h2, m1, m2].all Char.isDigit &&
      Number.digitValue h1 * 10 + Number.digitValue h2 ≤ 24 &&
      Number.digitValue m1 * 10 + Number.digitValue m2 ≤ 60
  | _ => false

def isTimestamp (cs : List Char) : Bool :=
  match readDate? cs with
  | none => false
  | some [] => true
  | some (c :: rest) =>
    if c = 'T' || c = 't' then (readClock? rest).any isZone
    else c = ' ' && (readClock? (rest.dropWhile (· = ' '))).any List.isEmpty

/-! ## Resolution -/

def guess (dates : Bool) (s : String) : Resolved :=
  match word? s with
  | some r => r
  | none =>
    match s.toList with
    | [] => .text
    | c :: rest =>
      if c = '.' then
        match Number.readFloat (c :: rest) with
        | .ok x => .float x
        | .error _ => .text
      else if c.isDigit || c = '+' || c = '-' then
        if dates && isTimestamp (c :: rest) then .timestamp
        else (number? (c :: rest)).getD .text
      else .text

inductive DecodeError where
  | mismatch (found text : String) (tag : Text)
  | unfit (line : Nat) (tag : Text) (text : String) (type : String)
  | malformedBinary
  | duplicateKeys (keys : List (Nat × String × Nat))
  deriving DecidableEq, Repr

def excerpt (s : String) : Text :=
  let bytes := Utf8.encode s.toList
  let shown := if 10 < bytes.length then bytes.take 7 ++ Utf8.encode "...".toList else bytes
  Text.ofString " `" ++ ⟨shown⟩ ++ Text.ofString "`"

def DecodeError.message : DecodeError → Text
  | .mismatch found text tag => Text.ofString s!"cannot decode {found} `{text}` as a " ++ tag
  | .unfit line tag text type =>
    let shown := if tag = "!!seq" || tag = "!!map" then Text.ofString text else excerpt text
    Text.ofString s!"unmarshal errors:\n  line {line}: cannot unmarshal " ++ tag ++ shown
      ++ Text.ofString s!" into {type}"
  | .malformedBinary => "!!binary value contains invalid base64 data"
  | .duplicateKeys keys =>
    let lines := keys.map fun (line, key, first) =>
      s!"\n  line {line}: mapping key {quoteString key} already defined at line {first}"
    Text.ofString ("unmarshal errors:" ++ String.join lines)

def resolvableTags : List String :=
  ["", "!!bool", "!!int", "!!float", "!!null", "!!timestamp"]

def resolve (tag : Text) (text : String) : Except DecodeError Resolved :=
  if !resolvableTags.any (tag = ·) then .ok .text
  else
    let found := guess (tag = "" || tag = "!!timestamp") text
    if tag = "" || tag = found.tag then .ok found
    else
      let wrong : Except DecodeError Resolved := .error (.mismatch found.tag text tag)
      match found with
      | .int n =>
        if tag = "!!float" && n ≤ Number.greatest false then .ok (.float (Float.ofInt n)) else wrong
      | _ => wrong

/-! ## Binary data -/

def isBase64Digit (c : Char) : Bool := c.isAlphanum || c = '+' || c = '/'

def isBase64Groups : List Char → Bool
  | [] => true
  | a :: b :: c :: d :: rest =>
    [a, b].all isBase64Digit &&
      if rest.isEmpty && d = '=' then c = '=' || isBase64Digit c
      else [c, d].all isBase64Digit && isBase64Groups rest
  | _ => false

def isBase64 (s : String) : Bool := isBase64Groups (s.toList.filter fun c => c ≠ '\n' && c ≠ '\r')

end ReactiveTree.Yaml
