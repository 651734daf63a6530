/-!
# Escape sequences of terminals

Text for a terminal may hold sequences that set colors or links and take no place. A
sequence starts with the escape character. The first `[` in it says that it ends with `m`,
the first `]` that it ends with a backslash; a link ends only with the two characters
escape and backslash. A sequence that does not end goes on to the end of the line.
-/

namespace ReactiveTree

def escapeChar : Char := Char.ofNat 27

inductive EscapeKind where
  | unknown
  | style
  | command
  deriving DecidableEq, Repr

inductive EscapeState where
  | outside
  | inside (kind : EscapeKind) (seen : List Char)
  deriving DecidableEq, Repr

namespace EscapeState

def ends (kind : EscapeKind) (seen : List Char) : Bool :=
  if [escapeChar, ']', '8', ';'].isPrefixOf seen.reverse then ['\\', escapeChar].isPrefixOf seen
  else
    match kind with
    | .unknown => false
    | .style => seen.head? = some 'm'
    | .command => seen.head? = some '\\'

def step : EscapeState → Char → EscapeState
  | .outside, c => if c = escapeChar then .inside .unknown [c] else .outside
  | .inside kind seen, c =>
    let kind :=
      if kind ≠ .unknown then kind
      else if c = '[' then .style
      else if c = ']' then .command
      else kind
    if ends kind (c :: seen) then .outside else .inside kind (c :: seen)

def visible : EscapeState → List Char → List Char
  | _, [] => []
  | state, c :: rest =>
    let next := state.step c
    if state = .outside && next = .outside then c :: visible next rest else visible next rest

end EscapeState

def visibleChars (line : List Char) : List Char := EscapeState.outside.visible line

end ReactiveTree
