import ReactiveTree.Yaml.Source
import ReactiveTree.Yaml.Token

/-!
# What is known while a text is split into tokens

Tokens are handed out one by one, and the text is read only as far as the next of them
needs it. After a problem the state is kept as it was when the problem was met.
-/

namespace ReactiveTree.Yaml

/-- Where a key may start. -/
structure KeyPlace where
  possible : Bool := false
  required : Bool := false
  token : Nat := 0
  mark : Mark := {}
  deriving Inhabited

/-- A comment, and the token it belongs to. -/
structure Comment where
  scan : Nat := 0
  token : Nat := 0
  start : Mark := {}
  stop : Nat := 0
  isHead : Bool := false
  isLine : Bool := false
  spaced : Bool := false
  deriving Inhabited

structure Lexer where
  source : Source
  size : Nat
  tokens : Array Token := #[]
  taken : Nat := 0
  isReady : Bool := false
  indents : List Nat := []
  keyAllowed : Bool := true
  keys : Array KeyPlace := #[{}]
  noted : List (Nat × Nat) := []
  comments : Array Comment := #[]
  attached : Nat := 0
  heads : Nat := 0
  headSpaced : Bool := false
  passedOver : Option Problem := none

abbrev Lex := EStateM Problem Lexer

namespace Lex

def source : Lex Source := return (← get).source

def mark : Lex Mark := return (← get).source.mark

/-- More steps than a loop over the text takes. -/
def bound : Lex Nat := return (← get).size + 8

/-- Inside brackets or braces. -/
def inFlow : Lex Bool := return decide (1 < (← get).keys.size)

def fail {α : Type} (context : Mark) (text : String) : Lex α := do
  throw { text, context := context.line, line := (← mark).line, lexical := true }

def failHere {α : Type} (text : String) : Lex α := do fail (← mark) text

/-- Makes sure of the next characters: those that are there have to be allowed. -/
def need (n : Nat) : Lex Unit := do
  let s ← get
  let (source, fine) := s.source.provide n
  set { s with source }
  if !fine then
    throw { s.passedOver.getD {} with
            text := "control characters are not allowed", lexical := false }

/-- Keeps a problem for later instead of failing. -/
def passOver {α : Type} (x : Lex α) : Lex (Option α) :=
  tryCatch (some <$> x) fun p => do
    modify fun s => { s with passedOver := some p }
    return none

def skip : Lex Unit := modify fun s => { s with source := s.source.skip }

def skipMany : (n : Nat) → Lex Unit
  | 0 => return
  | n + 1 => do
    skip
    skipMany n

def readBreak : Lex (List Char) := do
  let s ← get
  let (b, source) := s.source.readBreak
  set { s with source }
  return b

def skipBreak : Lex Unit := discard readBreak

/-- Reads as long as `p` holds, in reverse. -/
def readMany (p : Char → Bool) : (limit : Nat) → (read : List Char) → Lex (List Char)
  | 0, read => return read
  | limit + 1, read => do
    need 1
    match (← source).rest with
    | [] => return read
    | c :: _ =>
      if p c then
        skip
        readMany p limit (c :: read)
      else return read

def readWhile (p : Char → Bool) : Lex (List Char) := do
  return (← readMany p (← bound) []).reverse

def skipWhile (p : Char → Bool) : Lex Unit := do
  discard <| readMany p (← bound) []

def push (kind : TokenKind) (start : Mark) : Lex Unit :=
  modify fun s => { s with tokens := s.tokens.push ⟨kind, start⟩ }

/-- Adds a token before others, unless those are taken. -/
def insert (i : Nat) (kind : TokenKind) (start : Mark) : Lex Unit :=
  modify fun s =>
    if i < s.taken then { s with tokens := s.tokens.push ⟨kind, start⟩ }
    else { s with tokens := s.tokens.insertIdxIfInBounds i ⟨kind, start⟩ }

def pushChars (kind : TokenKind) (n : Nat) : Lex Unit := do
  let start ← mark
  skipMany n
  push kind start

def allowKey (allowed : Bool) : Lex Unit := modify fun s => { s with keyAllowed := allowed }

end Lex

end ReactiveTree.Yaml
