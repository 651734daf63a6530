import ReactiveTree.Yaml.Property
import ReactiveTree.Yaml.ScalarText

/-!
# From text to tokens

Indentation becomes tokens of its own: a block starts where a line is indented deeper than
the block around it, and ends where one is indented less. A mapping key without `?` is
recognised only when its `:` is found; the tokens that announce it are then put before it.
So a token is certain only when two more are known, and when it cannot become a key any
more.
-/

namespace ReactiveTree.Yaml.Lex

/-! ## Keys -/

def noColon : String := "could not find expected ':'"

def forget (token : Nat) : Lex Unit :=
  modify fun s => { s with noted := s.noted.filter (·.1 ≠ token) }

def keyPlace : Lex KeyPlace := return (← get).keys.back?.getD {}

def setKeyPlace (key : KeyPlace) : Lex Unit :=
  modify fun s => { s with keys := s.keys.pop.push key }

def dropKey : Lex Unit := do
  let key ← keyPlace
  if key.possible then
    if key.required then fail key.mark noColon
    setKeyPlace { key with possible := false }
    forget key.token

/-- A key may start here. -/
def saveKey : Lex Unit := do
  let s ← get
  if s.keyAllowed then
    let mark := s.source.mark
    let required := !(← inFlow) && s.indents.head? = some mark.column
    dropKey
    let token := s.tokens.size
    setKeyPlace { possible := true, required, token, mark }
    forget token
    modify fun s =>
      { s with noted := (token, s.keys.size - 1) :: s.noted.filter (s.taken ≤ ·.1) }

def keyReach : Nat := 1024

/-- Can the key still get its colon? -/
def keyFits (level : Nat) : Lex Bool := do
  let s ← get
  match s.keys[level]? with
  | none => return false
  | some key =>
    if !key.possible then return false
    if key.mark.line < s.source.mark.line || key.mark.index + keyReach < s.source.mark.index then
      if key.required then fail key.mark noColon
      set { s with keys := s.keys.modify level fun key => { key with possible := false } }
      return false
    return true

/-! ## Indentation -/

def maxDepth : Nat := 10000

def tooDeep : String := s!"exceeded max depth of {maxDepth}"

def startBlock (column : Nat) (kind : TokenKind) (start : Mark) (i : Nat) : Lex Unit := do
  let s ← get
  let deeper := match s.indents with
    | [] => true
    | n :: _ => decide (n < column)
  if !(← inFlow) && deeper then
    set { s with indents := column :: s.indents }
    if maxDepth ≤ s.indents.length then fail (← keyPlace).mark tooDeep
    insert i kind start

def blockEndBefore (comments : Array Comment) (column : Nat) :
    (i : Nat) → (stop : Nat) → (place : Mark) → Mark
  | 0, _, place => place
  | i + 1, stop, place =>
    match comments[i]? with
    | none => place
    | some c =>
      if c.stop < stop then place
      else
        blockEndBefore comments column i c.scan
          (if c.start.column = column then c.start else place)

def endBlocksWhile (p : Nat → Bool) : (indents : List Nat) → (place : Mark) → Lex Unit
  | [], _ => return
  | indent :: rest, place => do
    if p indent then
      let comments := (← get).comments
      let place := blockEndBefore comments (indent + 1) comments.size place.index place
      push .blockEnd place
      modify fun s => { s with indents := rest }
      endBlocksWhile p rest place

def endBlocks (p : Nat → Bool) (scan : Mark) : Lex Unit := do
  if !(← inFlow) then
    endBlocksWhile p (← get).indents { scan with index := scan.index - 1 }

def endAllBlocks : Lex Unit := do endBlocks (fun _ => true) (← mark)

/-! ## Blanks and comments -/

def skipToToken (scan : Mark) : (limit : Nat) → Lex Unit
  | 0 => return
  | limit + 1 => do
    need 1
    if (← mark).column = 0 && (← source).marked then skip
    let flow ← inFlow
    let tabs := flow || !(← get).keyAllowed
    skipWhile fun c => c = ' ' || tabs && c = '\t'
    promoteComment
    if (← source).sees '#' then readComments scan
    if (← source).onBreak then
      need 2
      skipBreak
      if !flow then allowKey true
      skipToToken scan limit

/-! ## Tokens -/

def addEnd : Lex Unit := do
  modify fun s =>
    let mark := s.source.mark
    let mark := if mark.column = 0 then mark else { mark with line := mark.line + 1, column := 0 }
    { s with source := { s.source with mark } }
  endAllBlocks
  dropKey
  allowKey false
  push .streamEnd (← mark)

def addDirective : Lex Unit := do
  endAllBlocks
  dropKey
  allowKey false
  let start ← mark
  push (← readDirective) start

def addDocumentMark (kind : TokenKind) : Lex Unit := do
  endAllBlocks
  dropKey
  allowKey false
  pushChars kind 3

def addFlowStart (kind : TokenKind) : Lex Unit := do
  saveKey
  let start ← mark
  modify fun s => { s with keys := s.keys.push { token := s.tokens.size, mark := start } }
  if maxDepth + 1 < (← get).keys.size then fail start tooDeep
  allowKey true
  pushChars kind 1

def addFlowEnd (kind : TokenKind) : Lex Unit := do
  dropKey
  if ← inFlow then
    forget (← keyPlace).token
    modify fun s => { s with keys := s.keys.pop }
  allowKey false
  pushChars kind 1

def addFlowEntry : Lex Unit := do
  dropKey
  allowKey true
  pushChars .flowEntry 1

def startBlockHere (kind : TokenKind) (problem : String) : Lex Unit := do
  if !(← inFlow) then
    if !(← get).keyAllowed then failHere problem
    let start ← mark
    startBlock start.column kind start (← get).tokens.size

def addBlockEntry : Lex Unit := do
  startBlockHere .blockSequenceStart "block sequence entries are not allowed in this context"
  dropKey
  allowKey true
  pushChars .blockEntry 1

def addKey : Lex Unit := do
  startBlockHere .blockMappingStart "mapping keys are not allowed in this context"
  dropKey
  allowKey !(← inFlow)
  pushChars .key 1

def addValue : Lex Unit := do
  if ← keyFits ((← get).keys.size - 1) then
    let key ← keyPlace
    insert key.token .key key.mark
    startBlock key.mark.column .blockMappingStart key.mark key.token
    setKeyPlace { key with possible := false }
    forget key.token
    allowKey false
  else
    startBlockHere .blockMappingStart "mapping values are not allowed in this context"
    allowKey !(← inFlow)
  pushChars .value 1

def addWord (read : Lex TokenKind) : Lex Unit := do
  saveKey
  allowKey false
  let start ← mark
  push (← read) start

def addBlockScalar (literal : Bool) : Lex Unit := do
  dropKey
  allowKey true
  let start ← mark
  push (.scalar (← readBlock literal (← get).indents.head?) .block) start

def addPlain : Lex Unit := do
  saveKey
  allowKey false
  let start ← mark
  let indent := match (← get).indents with
    | n :: _ => n + 1
    | [] => 0
  let (text, broken) ← readPlain (← inFlow) indent
  push (.scalar text .plain) start
  if broken then allowKey true

def startsPlain (flow : Bool) (c : Char) (next : Option Char) : Bool :=
  let blank (next : Option Char) : Bool := match next with
    | none => true
    | some d => isGap d || isBreak d
  if c = '-' then !next.any isGap
  else if c = '?' || c = ':' then !flow && !blank next
  else !(isGap c || isBreak c || ",[]\x7b\x7d#&*!|>\x27\"%@\x60".toList.contains c)

def addContent (c : Char) (next : Option Char) : Lex Unit := do
  let flow ← inFlow
  let blank := (← source).blankAt 1
  if c = '[' then addFlowStart .flowSequenceStart
  else if c = '\x7b' then addFlowStart .flowMappingStart
  else if c = ']' then addFlowEnd .flowSequenceEnd
  else if c = '\x7d' then addFlowEnd .flowMappingEnd
  else if c = ',' then addFlowEntry
  else if c = '-' && blank then addBlockEntry
  else if c = '?' && (flow || blank) then addKey
  else if c = ':' && (flow || blank) then addValue
  else if c = '*' then addWord (.aliasOf <$> readAnchor)
  else if c = '&' then addWord (.anchor <$> readAnchor)
  else if c = '!' then addWord do
    let (handle, suffix) ← readTag
    return .tag handle suffix
  else if c = '|' && !flow then addBlockScalar true
  else if c = '>' && !flow then addBlockScalar false
  else if c = '\x27' || c = '"' then addWord do
    return .scalar (← readQuoted (c = '\x27')) .quoted
  else if startsPlain flow c next then addPlain
  else failHere "found character that cannot start any token"

def lastStart : Lex Mark := do
  match (← get).tokens.back? with
  | some t => return t.start
  | none => mark

def addToken : Lex Unit := do
  need 1
  if (← get).tokens.isEmpty then push .streamStart (← mark)
  else
    let scan ← mark
    skipToToken scan (← bound)
    let column := (← mark).column
    endBlocks (column < ·) scan
    need 4
    let s ← source
    match s.rest with
    | [] => addEnd
    | c :: rest =>
      if column = 0 && c = '%' then addDirective
      else if s.onDocumentMark '-' then addDocumentMark .documentStart
      else if s.onDocumentMark '.' then addDocumentMark .documentEnd
      else
        let token ← if c = (if ← inFlow then ',' else ':') then lastStart else mark
        addContent c rest.head?
        if ((← get).tokens.back?.map (·.kind)) ≠ some .blockEntry then readLineComment token

def addTokens : (limit : Nat) → Lex Unit
  | 0 => return
  | limit + 1 => do
    let s ← get
    if s.taken + 2 < s.tokens.size then
      match s.noted.lookup s.taken with
      | none => return
      | some level => if !(← keyFits level) then return
    addToken
    addTokens limit

/-! ## Handing out -/

def attachComments (t : Token) : (limit : Nat) → Lex Unit
  | 0 => return
  | limit + 1 => do
    let s ← get
    match s.comments[s.attached]? with
    | none => return
    | some c =>
      if c.token ≤ t.start.index && !(c.isHead && t.kind = .blockEnd) then
        set { s with
              comments := s.comments.set! s.attached {}
              attached := s.attached + 1
              heads := if c.isHead then s.heads + 1 else s.heads
              headSpaced := if c.isHead then c.spaced else s.headSpaced }
        attachComments t limit

def peek : Lex Token := do
  if !(← get).isReady then
    addTokens (← bound)
    modify fun s => { s with isReady := true }
  let s ← get
  let t := (s.tokens[s.taken]?).getD ⟨.streamEnd, s.source.mark⟩
  attachComments t (s.comments.size - s.attached)
  return t

def take : Lex Unit := modify fun s => { s with isReady := false, taken := s.taken + 1 }

def clearHeads : Lex Unit := modify fun s => { s with heads := 0 }

end ReactiveTree.Yaml.Lex
