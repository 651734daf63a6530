import ReactiveTree.Yaml.Node
import ReactiveTree.Yaml.TokenQueue

/-!
# From tokens to nodes

Reads the first document of a text. What follows it is not looked at, except that one more
token has to be readable.

The reader goes from one event to the next: the start or end of a collection, a scalar or an
alias. A problem that was passed over counts at the next event, unless another one turns up
before it.
-/

namespace ReactiveTree.Yaml

inductive DocumentError where
  | problem (p : Problem)
  | unknownAnchor (name : String)
  deriving DecidableEq, Repr

def DocumentError.message : DocumentError → String
  | .problem p => p.message
  | .unknownAnchor name => s!"unknown anchor '{name}' referenced"

structure Reader where
  lexer : Lexer
  anchors : List (String × Nat) := []
  anchored : Array Node := #[]
  handles : List (String × Text) := []

abbrev Read := EStateM DocumentError Reader

namespace Read

def lex {α : Type} (x : Lex α) : Read α := fun r =>
  match x r.lexer with
  | .ok a lexer => .ok a { r with lexer }
  | .error p lexer => .error (.problem p) { r with lexer }

def failOn {α : Type} (line : Nat) (text : String) : Read α := do
  let earlier := (← get).lexer.passedOver.getD {}
  throw (.problem { text, context := earlier.context, line })

def failAt {α : Type} (context : Nat) (t : Token) (text : String) : Read α :=
  throw (.problem { text, context, line := t.line })

def outOfBound {α : Type} : Read α := throw (.problem { text := "nested too deeply" })

def peek : Read Token := lex Lex.peek

def skip : Read Unit := lex Lex.take

def next : Read Token := do
  skip
  peek

/-- Fails with the problem that was passed over. -/
def event : Read Unit := do
  if let some p := (← get).lexer.passedOver then throw (.problem p)

def eventWithComments : Read Unit := do
  lex Lex.clearHeads
  event

def register : (anchor : Option String) → Read (Option Nat)
  | none => return none
  | some name => do
    let r ← get
    let n := r.anchored.size
    set { r with anchors := (name, n) :: r.anchors, anchored := r.anchored.push default }
    return some n

def complete (number : Option Nat) (node : Node) : Read Node := do
  if let some n := number then modify fun r => { r with anchored := r.anchored.set! n node }
  return node

end Read

/-! ## Tags -/

def standardHandles : List (String × Text) := [("!", "!"), ("!!", "tag:yaml.org,2002:")]

def shortTag (tag : Text) : Text :=
  let standard := Text.ofString "tag:yaml.org,2002:"
  if standard.bytes.isPrefixOf tag.bytes then
    Text.ofString "!!" ++ ⟨tag.bytes.drop standard.bytes.length⟩
  else tag

structure NodeHead where
  line : Nat
  anchor : Option String := none
  tag : Text := ""

def NodeHead.tagOr (head : NodeHead) (default : Text) : Text :=
  if head.tag = "" || head.tag = "!" then default else shortTag head.tag

def NodeHead.scalar (head : NodeHead) (text : String) (style : ScalarStyle)
    (anchor : Option Nat) : Node :=
  let default : String :=
    if style ≠ .plain then "!!str"
    else if text = "<<" then "!!merge"
    else (guess true text).tag
  .scalar (head.line + 1) (head.tagOr default) text anchor

namespace Read

def scalar (head : NodeHead) (text : String) (style : ScalarStyle) : Read Node := do
  let anchor ← register head.anchor
  complete anchor (head.scalar text style anchor)

def emptyScalar (line : Nat) : Read Node := do
  event
  scalar { line } "" .plain

def expandTag (context : Nat) (t : Token) (handle : String) (suffix : Text) : Read Text := do
  if handle = "" then return suffix
  match (← get).handles.find? (·.1 == handle) with
  | some (_, text) => return text ++ suffix
  | none => failAt context t "found undefined tag handle"

def readHead : Read (NodeHead × Token) := do
  let first ← peek
  let line := first.line
  match first.kind with
  | .anchor name =>
    let second ← next
    match second.kind with
    | .tag handle suffix =>
      let t ← next
      return ({ line, anchor := some name, tag := ← expandTag line second handle suffix }, t)
    | _ => return ({ line, anchor := some name }, second)
  | .tag handle suffix =>
    let second ← next
    match second.kind with
    | .anchor name =>
      let t ← next
      return ({ line, anchor := some name, tag := ← expandTag line first handle suffix }, t)
    | _ => return ({ line, tag := ← expandTag line first handle suffix }, second)
  | _ => return ({ line }, first)

def nextAfterEntry : Read Token := do
  let before := (← get).lexer.heads
  skip
  if before ≠ 0 then
    if let some t := ← lex (Lex.passOver Lex.peek) then
      if t.kind = .blockSequenceStart || t.kind = .blockMappingStart then
        modify fun r => { r with lexer := { r.lexer with heads := r.lexer.heads - before } }
  peek

/-! ## Nodes -/

def endsBlockPart (t : Token) : Bool := t.kind = .key || t.kind = .value || t.kind = .blockEnd

def endsFlowPart (t : Token) : Bool := t.kind = .flowEntry || t.kind = .flowMappingEnd

def endsFlowItem (t : Token) : Bool := t.kind = .flowEntry || t.kind = .flowSequenceEnd

mutual

def readNode : (limit : Nat) → (block indentless : Bool) → Read Node
  | 0, _, _ => outOfBound
  | limit + 1, block, indentless => do
    let first ← peek
    match first.kind with
    | .aliasOf name =>
      skip
      eventWithComments
      match (← get).anchors.lookup name with
      | some target => return .aliasOf (first.line + 1) name target
      | none => throw (.unknownAnchor name)
    | _ =>
      let (head, t) ← readHead
      let line := head.line + 1
      let sequence (read : Read (List Node)) : Read Node := do
        let anchor ← register head.anchor
        complete anchor (.sequence line (head.tagOr "!!seq") (← read))
      let mapping (read : Read (List (Node × Node))) : Read Node := do
        let anchor ← register head.anchor
        complete anchor (.mapping line (head.tagOr "!!map") (← read))
      match t.kind with
      | .scalar text style =>
        skip
        eventWithComments
        scalar head text style
      | .flowSequenceStart =>
        eventWithComments
        skip
        sequence (readFlowItems limit t.line true)
      | .flowMappingStart =>
        eventWithComments
        skip
        mapping (readFlowEntries limit t.line true)
      | kind =>
        if kind = .blockEntry && indentless then
          event
          sequence (readIndentless limit)
        else if kind = .blockSequenceStart && block then
          event
          skip
          sequence (readBlockItems limit t.line)
        else if kind = .blockMappingStart && block then
          event
          skip
          mapping (readBlockEntries limit t.line)
        else if head.anchor.isSome || !head.tag.isEmpty then
          event
          scalar head "" .plain
        else failAt head.line t "did not find expected node content"

def readBlockItems : (limit : Nat) → (start : Nat) → Read (List Node)
  | 0, _ => outOfBound
  | limit + 1, start => do
    let t ← peek
    if t.kind = .blockEntry then
      let n ← nextAfterEntry
      let item ←
        if n.kind = .blockEntry || n.kind = .blockEnd then emptyScalar t.line
        else readNode limit true false
      return item :: (← readBlockItems limit start)
    else if t.kind = .blockEnd then
      skip
      event
      return []
    else failAt start t "did not find expected '-' indicator"

def readIndentless : (limit : Nat) → Read (List Node)
  | 0 => outOfBound
  | limit + 1 => do
    let t ← peek
    if t.kind = .blockEntry then
      let n ← nextAfterEntry
      let item ←
        if n.kind = .blockEntry || endsBlockPart n then emptyScalar t.line
        else readNode limit true false
      return item :: (← readIndentless limit)
    else
      event
      return []

def readBlockEntries : (limit : Nat) → (start : Nat) → Read (List (Node × Node))
  | 0, _ => outOfBound
  | limit + 1, start => do
    let t ← peek
    if t.kind = .key then
      let n ← next
      let key ← if endsBlockPart n then emptyScalar t.line else readNode limit true true
      let v ← peek
      let value ←
        if v.kind = .value then do
          let n ← next
          if endsBlockPart n then emptyScalar v.line else readNode limit true true
        else emptyScalar v.line
      return (key, value) :: (← readBlockEntries limit start)
    else if t.kind = .blockEnd then
      skip
      eventWithComments
      return []
    else failAt start t "did not find expected key"

def readFlowItems : (limit : Nat) → (start : Nat) → (first : Bool) → Read (List Node)
  | 0, _, _ => outOfBound
  | limit + 1, start, first => do
    let t ← peek
    if t.kind = .flowSequenceEnd then
      skip
      eventWithComments
      return []
    let t ←
      if first then pure t
      else if t.kind = .flowEntry then next
      else failAt start t "did not find expected ',' or ']'"
    if t.kind = .flowSequenceEnd then
      skip
      eventWithComments
      return []
    let item ←
      if t.kind = .key then do
        skip
        event
        let k ← peek
        let key ←
          if k.kind = .value || endsFlowItem k then do
            skip
            emptyScalar k.line
          else readNode limit false false
        let v ← peek
        let value ←
          if v.kind = .value then do
            let n ← next
            if endsFlowItem n then emptyScalar v.line else readNode limit false false
          else emptyScalar v.line
        let _ ← peek
        event
        pure (.mapping (t.line + 1) "!!map" [(key, value)])
      else readNode limit false false
    return item :: (← readFlowItems limit start false)

def readFlowEntries : (limit : Nat) → (start : Nat) → (first : Bool) → Read (List (Node × Node))
  | 0, _, _ => outOfBound
  | limit + 1, start, first => do
    let t ← peek
    if t.kind = .flowMappingEnd then
      skip
      eventWithComments
      return []
    let t ←
      if first then pure t
      else if t.kind = .flowEntry then next
      else failAt start t "did not find expected ',' or '\x7d'"
    if t.kind = .flowMappingEnd then
      skip
      eventWithComments
      return []
    let entry ←
      if t.kind = .key then do
        let k ← next
        let key ←
          if k.kind = .value || endsFlowPart k then emptyScalar k.line
          else readNode limit false false
        let v ← peek
        let value ←
          if v.kind = .value then do
            let n ← next
            if endsFlowPart n then emptyScalar n.line else readNode limit false false
          else emptyScalar v.line
        pure (key, value)
      else do
        let key ← readNode limit false false
        let v ← peek
        pure (key, ← emptyScalar v.line)
    return entry :: (← readFlowEntries limit start false)

end

/-! ## Documents -/

def readDirectives : (limit : Nat) → (versioned : Bool) → Read Unit
  | 0, _ => return
  | limit + 1, versioned => do
    let t ← peek
    match t.kind with
    | .versionDirective major minor =>
      if versioned then failOn t.line "found duplicate %YAML directive"
      if major ≠ 1 || minor ≠ 1 then failOn t.line "found incompatible YAML document"
      skip
      readDirectives limit true
    | .tagDirective handle uri =>
      if ((← get).handles.find? (·.1 == handle)).isSome then
        failOn t.line "found duplicate %TAG directive"
      modify fun r => { r with handles := r.handles ++ [(handle, uri)] }
      skip
      readDirectives limit versioned
    | _ => return

def isDocumentLimit (t : Token) : Bool :=
  match t.kind with
  | .versionDirective _ _ | .tagDirective _ _ | .documentStart | .documentEnd | .streamEnd => true
  | _ => false

def detachHeads : Read Unit :=
  modify fun r =>
    if r.lexer.headSpaced then { r with lexer := { r.lexer with heads := 0 } } else r

def readDocument (limit : Nat) : Read (Option Node) := do
  let useStandard : Read Unit :=
    modify fun r => { r with handles := r.handles ++ standardHandles }
  let _ ← peek
  skip
  event
  let t ← peek
  if t.kind = .streamEnd then
    skip
    event
    return none
  let explicit := isDocumentLimit t && t.kind ≠ .documentEnd
  let node ←
    if explicit then do
      readDirectives limit false
      useStandard
      let t ← peek
      if t.kind ≠ .documentStart then failOn t.line "did not find expected <document start>"
      skip
      event
      let t ← peek
      if isDocumentLimit t then emptyScalar t.line else readNode limit true false
    else do
      useStandard
      detachHeads
      event
      readNode limit true false
  let _ ← peek
  event
  return some node

end Read

def read (text : List Char) : Except DocumentError (Option Document) :=
  let size := text.length
  let lexer := { source := Source.ofText text, size }
  match (Read.readDocument (4 * size + 16)).run { lexer } with
  | .ok node r => .ok (node.map fun root => { root, anchored := r.anchored })
  | .error e _ => .error e

end ReactiveTree.Yaml
