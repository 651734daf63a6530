import ReactiveTree.Number.Reader
import ReactiveTree.Yaml.Comment

/-!
# The text of scalars

Reading plain, quoted and block scalars. Line breaks inside plain and quoted scalars are
folded: a single one counts as a space, of several the first is dropped. Texts are
collected with the last character first.
-/

namespace ReactiveTree.Yaml

structure Gap where
  blanks : List Char := []
  broken : Bool := false
  first : List Char := []
  more : List Char := []

namespace Gap

def onto (g : Gap) (text : List Char) : List Char :=
  if g.broken then
    if g.first.head? = some '\n' then (if g.more.isEmpty then ' ' :: text else g.more ++ text)
    else g.more ++ g.first ++ text
  else g.blanks ++ text

def addBlank (g : Gap) (c : Char) : Gap :=
  if g.broken then g else { g with blanks := c :: g.blanks }

def addBreak (g : Gap) (b : List Char) : Gap :=
  if g.broken then { g with more := b ++ g.more } else { broken := true, first := b }

def read (check : Gap → Lex Unit) : (limit : Nat) → Gap → Lex Gap
  | 0, g => return g
  | limit + 1, g => do
    match (← Lex.source).rest with
    | [] => return g
    | c :: _ =>
      if isGap c then
        check g
        Lex.skip
        Lex.need 1
        read check limit (g.addBlank c)
      else if isBreak c then
        Lex.need 2
        let b ← Lex.readBreak
        Lex.need 1
        read check limit (g.addBreak b)
      else return g

end Gap

/-! ## Quoted scalars -/

def escapedChar? : Char → Option Char
  | '0' => some (Char.ofNat 0)
  | 'a' => some (Char.ofNat 7)
  | 'b' => some (Char.ofNat 8)
  | 't' | '\t' => some '\t'
  | 'n' => some '\n'
  | 'v' => some (Char.ofNat 11)
  | 'f' => some (Char.ofNat 12)
  | 'r' => some '\r'
  | 'e' => some (Char.ofNat 27)
  | ' ' => some ' '
  | '"' => some '"'
  | '\x27' => some '\x27'
  | '\\' => some '\\'
  | 'N' => some (Char.ofNat 0x85)
  | '_' => some (Char.ofNat 0xA0)
  | 'L' => some (Char.ofNat 0x2028)
  | 'P' => some (Char.ofNat 0x2029)
  | _ => none

def escapeDigits? : Char → Option Nat
  | 'x' => some 2
  | 'u' => some 4
  | 'U' => some 8
  | _ => none

def hexNumber? (cs : List Char) : Option Nat :=
  cs.foldlM (fun n c => (Number.hexValue? c).map (n * 16 + ·)) 0

def readEscape (start : Mark) : Lex Char := do
  match (← Lex.source).rest.tail with
  | [] => Lex.fail start "found unknown escape character"
  | e :: rest =>
    match escapedChar? e, escapeDigits? e with
    | some c, _ =>
      Lex.skipMany 2
      return c
    | none, none => Lex.fail start "found unknown escape character"
    | none, some n =>
      Lex.skipMany 2
      Lex.need n
      let digits := rest.take n
      match if digits.length = n then hexNumber? digits else none with
      | none => Lex.fail start "did not find expected hexdecimal number"
      | some code =>
        if !code.isValidChar then Lex.fail start "found invalid Unicode character escape code"
        Lex.skipMany n
        return Char.ofNat code

def quoteChar (single : Bool) : Char := if single then '\x27' else '"'

def readQuotedRun (single : Bool) (start : Mark) :
    (limit : Nat) → (text : List Char) → Lex (List Char × Bool)
  | 0, text => return (text, false)
  | limit + 1, text => do
    match (← Lex.source).rest with
    | [] => return (text, false)
    | c :: rest =>
      if isGap c || isBreak c then return (text, false)
      else if single && c = quoteChar single && rest.head? = some c then
        Lex.skipMany 2
        Lex.need 2
        readQuotedRun single start limit (c :: text)
      else if c = quoteChar single then return (text, false)
      else if !single && c = '\\' then
        if rest.head?.any isBreak then
          Lex.need 3
          Lex.skip
          Lex.skipBreak
          return (text, true)
        else
          let x ← readEscape start
          Lex.need 2
          readQuotedRun single start limit (x :: text)
      else
        Lex.skip
        Lex.need 2
        readQuotedRun single start limit (c :: text)

def readQuotedBody (single : Bool) (start : Mark) :
    (limit : Nat) → (text : List Char) → Lex (List Char)
  | 0, text => return text
  | limit + 1, text => do
    Lex.need 4
    if (← Lex.source).onAnyDocumentMark then
      Lex.fail start "found unexpected document indicator"
    if (← Lex.source).atEnd then Lex.fail start "found unexpected end of stream"
    let (text, escaped) ← readQuotedRun single start (← Lex.bound) text
    Lex.need 1
    if (← Lex.source).sees (quoteChar single) then
      Lex.skip
      return text
    let g ← Gap.read (fun _ => pure ()) (← Lex.bound) { broken := escaped }
    readQuotedBody single start limit (g.onto text)

def readQuoted (single : Bool) : Lex String := do
  let start ← Lex.mark
  Lex.skip
  return String.ofList (← readQuotedBody single start (← Lex.bound) []).reverse

/-! ## Plain scalars -/

def endsPlain (flow : Bool) : List Char → Bool
  | [] => true
  | c :: rest =>
    isGap c || isBreak c
      || c = ':' && (match rest with
        | [] => true
        | d :: _ => isGap d || isBreak d)
      || flow && (c = ',' || c = '?' || c = '[' || c = ']' || c = '\x7b' || c = '\x7d')

def readPlainRun (flow : Bool) : (limit : Nat) → (text : List Char) → Lex (List Char)
  | 0, text => return text
  | limit + 1, text => do
    let rest := (← Lex.source).rest
    match rest with
    | [] => return text
    | c :: _ =>
      if endsPlain flow rest then return text
      Lex.skip
      Lex.need 2
      readPlainRun flow limit (c :: text)

def readPlainWords (flow : Bool) (indent : Nat) (start : Mark) :
    (limit : Nat) → (text : List Char) → Gap → Lex (List Char × Bool)
  | 0, text, g => return (text, g.broken)
  | limit + 1, text, g => do
    Lex.need 4
    if (← Lex.source).onAnyDocumentMark || (← Lex.source).sees '#' then return (text, g.broken)
    let (text, g) ←
      if endsPlain flow (← Lex.source).rest then pure (text, g)
      else pure (← readPlainRun flow (← Lex.bound) (g.onto text), {})
    if !((← Lex.source).onGap || (← Lex.source).onBreak) then return (text, g.broken)
    let check (g : Gap) : Lex Unit := do
      if g.broken && (← Lex.mark).column < indent && (← Lex.source).sees '\t' then
        Lex.fail start "found a tab character that violates indentation"
    Lex.need 1
    let g ← Gap.read check (← Lex.bound) g
    if !flow && (← Lex.mark).column < indent then return (text, g.broken)
    readPlainWords flow indent start limit text g

def readPlain (flow : Bool) (indent : Nat) : Lex (String × Bool) := do
  let (text, broken) ← readPlainWords flow indent (← Lex.mark) (← Lex.bound) [] {}
  return (String.ofList text.reverse, broken)

/-! ## Block scalars -/

inductive Chomping where
  | strip
  | clip
  | keep
  deriving DecidableEq, Repr

structure BlockHeader where
  chomping : Chomping := .clip
  indent : Nat := 0

def chompingOf? : Char → Option Chomping
  | '+' => some .keep
  | '-' => some .strip
  | _ => none

def readIndicator (start : Mark) : Lex Nat := do
  Lex.need 1
  match (← Lex.source).rest with
  | c :: _ =>
    if c = '0' then Lex.fail start "found an indentation indicator equal to 0"
    else if c.isDigit then
      Lex.skip
      return c.toNat - '0'.toNat
    else return 0
  | [] => return 0

def readChomping : Lex (Option Chomping) := do
  Lex.need 1
  match (← Lex.source).rest.head?.bind chompingOf? with
  | some c =>
    Lex.skip
    return some c
  | none => return none

def readBlockHeader (start : Mark) : Lex BlockHeader := do
  let before ← readChomping
  let indent ← readIndicator start
  let chomping ← match before with
    | some c => pure c
    | none =>
      if indent = 0 then pure .clip
      else pure ((← readChomping).getD .clip)
  Lex.skipWhile isGap
  if (← Lex.source).sees '#' then readLineComment start
  if !(← Lex.source).atLineEnd then
    Lex.fail start "did not find expected comment or line break"
  if (← Lex.source).onBreak then
    Lex.need 2
    Lex.skipBreak
  return { chomping, indent }

def readBlockBreaks (start : Mark) (indent : Nat) :
    (limit : Nat) → (breaks : List Char) → (widest : Nat) → Lex (List Char × Nat)
  | 0, breaks, widest => return (breaks, widest)
  | limit + 1, breaks, widest => do
    let bound ← Lex.bound
    let column := (← Lex.mark).column
    discard <| Lex.readMany (· = ' ') (if indent = 0 then bound else indent - column) []
    Lex.need 1
    let column := (← Lex.mark).column
    let widest := max widest column
    if (indent = 0 || column < indent) && (← Lex.source).sees '\t' then
      Lex.fail start "found a tab character where an indentation space is expected"
    else if (← Lex.source).onBreak then
      Lex.need 2
      let b ← Lex.readBreak
      readBlockBreaks start indent limit (b ++ breaks) widest
    else return (breaks, widest)

structure BlockState where
  text : List Char := []
  leading : List Char := []
  trailing : List Char := []
  leadingBlank : Bool := false

def BlockState.startLine (b : BlockState) (literal blank : Bool) : BlockState :=
  let joined :=
    if !literal && !b.leadingBlank && !blank && b.leading.head? = some '\n' then
      if b.trailing.isEmpty then [' '] else []
    else b.leading
  { text := b.trailing ++ joined ++ b.text, leadingBlank := blank }

def readBlockLines (literal : Bool) (start : Mark) (indent : Nat) :
    (limit : Nat) → BlockState → Lex BlockState
  | 0, b => return b
  | limit + 1, b => do
    let s ← Lex.source
    if s.mark.column = indent && !s.atEnd then
      let b := b.startLine literal s.onGap
      let text ← Lex.readMany (!isBreak ·) (← Lex.bound) b.text
      Lex.need 2
      let leading ← Lex.readBreak
      let (trailing, _) ← readBlockBreaks start indent (← Lex.bound) [] 0
      readBlockLines literal start indent limit { b with text, leading, trailing }
    else return b

def readBlock (literal : Bool) (outer : Option Nat) : Lex String := do
  let start ← Lex.mark
  Lex.skip
  let header ← readBlockHeader start
  let explicit := if header.indent = 0 then 0 else outer.getD 0 + header.indent
  let (trailing, widest) ← readBlockBreaks start explicit (← Lex.bound) [] 0
  let least := match outer with
    | some n => n + 1
    | none => 1
  let indent := if explicit = 0 then max widest least else explicit
  Lex.need 1
  let b ← readBlockLines literal start indent (← Lex.bound) { trailing }
  let tail := match header.chomping with
    | .strip => []
    | .clip => b.leading
    | .keep => b.trailing ++ b.leading
  return String.ofList (tail ++ b.text).reverse

end ReactiveTree.Yaml
