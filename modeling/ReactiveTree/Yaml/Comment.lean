import ReactiveTree.Yaml.Lexer

/-!
# Comments

A comment on the line of a token belongs to that token. Others stand before what they
belong to, or after it when an empty line follows them or the indentation says so. All
that matters of them later is where they are: see `Lex.endBlocks`.

A search looks at no more than a fixed number of characters at once. A comment is
consumed together with what lies between it and the one before, so nothing there can be
a problem.
-/

namespace ReactiveTree.Yaml

def commentReach : Nat := 512

def addComment (c : Comment) : Lex Unit :=
  modify fun s => { s with comments := s.comments.push c }

def moveTo (index : Nat) : (limit : Nat) → Lex Unit
  | 0 => return
  | limit + 1 => do
    Lex.need 1
    let s ← Lex.source
    if index ≤ s.mark.index then return
    if s.atLineEnd then
      Lex.need 2
      Lex.skipBreak
    else Lex.skip
    moveTo index limit

def consumeComment (ahead : Nat) : Lex Unit := do
  moveTo ((← Lex.mark).index + ahead) (commentReach + 1)
  Lex.skipWhile (!isBreak ·)

/-! ## On the line of a token -/

def blanksBeforeComment : (reach ahead : Nat) → (rest : List Char) → Lex (Option Nat)
  | 0, _, _ => return none
  | reach + 1, ahead, rest => do
    if (← Lex.passOver (Lex.need (ahead + 1))).isNone then return none
    match rest with
    | c :: rest =>
      if isGap c then blanksBeforeComment reach (ahead + 1) rest
      else return if c = '#' then some ahead else none
    | [] => return none

def readLineComment (token : Mark) : Lex Unit := do
  let s ← Lex.source
  if s.newlines = 0 then
    if let some ahead := ← blanksBeforeComment commentReach 0 s.rest then
      moveTo (s.mark.index + ahead) (commentReach + 1)
      let start ← Lex.mark
      consumeComment 0
      addComment { token := token.index, start, isLine := true }

/-! ## On lines of their own -/

structure CommentSearch where
  scan : Nat
  token : Nat
  afterValue : Bool
  start : Mark := {}
  isOpen : Bool := false
  spaced : Bool := false
  recentEmpty : Bool := false
  firstEmpty : Bool
  footLine : Option Nat
  line : Nat
  column : Nat

namespace CommentSearch

def close (c : CommentSearch) (token ahead : Nat) : Lex CommentSearch := do
  let stop := (← Lex.mark).index + ahead
  addComment { scan := c.scan, token, start := c.start, stop }
  return { c with scan := stop, token := stop, isOpen := false, spaced := false }

def endLine (c : CommentSearch) (indent ahead : Nat) (closes atEnd : Bool) :
    Lex CommentSearch := do
  if !closes && c.recentEmpty then return c
  let dedented := c.start.column - 1 < indent
  if closes || c.firstEmpty && (some c.start.line = c.footLine && !c.afterValue || dedented) then
    if c.isOpen then c.close (if dedented then c.start.index else c.token) ahead
    else return c
  else return { c with spaced := c.spaced || c.isOpen && !atEnd }

def pastBreak (x : Char) (rest : List Char) : List Char :=
  if x.utf8Size = 1 then rest else '\uFFFD' :: rest

def look (indent : Nat) (flow : Bool) :
    (reach ahead : Nat) → (rest : List Char) → CommentSearch → Lex (CommentSearch × Nat × Bool)
  | 0, ahead, _, c => return (c, ahead, false)
  | reach + 1, ahead, rest, c => do
    if (← Lex.passOver (Lex.need (ahead + 1))).isNone then return (c, ahead, false)
    let c := { c with column := c.column + 1 }
    match rest with
    | [] => return (← c.endLine indent ahead false true, ahead, false)
    | x :: rest =>
      if isGap x then look indent flow reach (ahead + 1) rest c
      else if flow && (x = ']' || x = '\x7d') then
        return (← c.endLine indent ahead true false, ahead, false)
      else if isBreak x then
        let c ← c.endLine indent ahead false false
        look indent flow reach (ahead + 1) (pastBreak x rest)
          { c with firstEmpty := false, recentEmpty := true, column := 0, line := c.line + 1 }
      else
        let c ←
          if c.isOpen && c.column - 1 < indent && c.column ≠ c.start.column then
            c.close c.token ahead
          else pure c
        return (c, ahead, x = '#')

def run (indent : Nat) (flow : Bool) : (limit : Nat) → (again : Bool) → CommentSearch → Lex Unit
  | 0, _, _ => return
  | limit + 1, again, c => do
    let s ← Lex.source
    let ahead := if again then 1 else 0
    let rest :=
      match again, s.rest with
      | true, x :: rest => pastBreak x rest
      | _, rest => rest
    let (c, ahead, found) ← c.look indent flow (commentReach - ahead) ahead rest
    if found then
      let start := { line := c.line, column := c.column, index := s.mark.index + ahead }
      let c := if c.isOpen then c else { c with start }
      consumeComment ahead
      let line := (← Lex.mark).line
      run indent flow limit true
        { c with isOpen := true, spaced := false, recentEmpty := false, column := 0, line }
    else if c.isOpen then
      addComment
        { scan := c.scan
          token := c.start.index
          start := c.start
          stop := s.mark.index + ahead - 1
          isHead := true
          spaced := c.spaced }

end CommentSearch

def readComments (scan : Mark) : Lex Unit := do
  let s ← get
  let flow ← Lex.inFlow
  let last := s.tokens.size - 1
  let lastIsEntry := (s.tokens[last]?.map (·.kind)) = some .flowEntry
  let before := if lastIsEntry && 0 < last then last - 1 else last
  let token := (s.tokens[before]?).getD ⟨.streamStart, {}⟩
  let mark := s.source.mark
  let newlines := s.source.newlines
  let line := mark.line + 1 - newlines
  let footLine :=
    if scan.line = 0 then none
    else some (if newlines = 0 && 1 < mark.column then line + 1 else line)
  CommentSearch.run (s.indents.head?.getD 0) flow (← Lex.bound) false
    { scan := scan.index
      token := token.start.index
      afterValue := decide (token.kind = .value)
      firstEmpty := decide (newlines ≤ 1)
      footLine
      line := mark.line
      column := mark.column }

def promoteComment : Lex Unit :=
  modify fun s =>
    let n := s.tokens.size
    let opens := (s.tokens[n - 2]?.map (·.kind)) = some .blockSequenceStart &&
      (s.tokens[n - 1]?.map (·.kind)) = some .blockEntry
    match s.comments.back? with
    | some c =>
      if opens && c.isLine && !s.source.onBreak then
        let mark := s.source.mark
        let token := if c.start.line + 1 = mark.line then mark.index else c.token
        { s with comments := s.comments.pop.push { c with token, isHead := true, isLine := false } }
      else s
    | none => s

end ReactiveTree.Yaml
