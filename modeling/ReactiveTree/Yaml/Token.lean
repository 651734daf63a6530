import ReactiveTree.Text.Basic
import ReactiveTree.Yaml.Mark

/-!
# Tokens of YAML
-/

namespace ReactiveTree.Yaml

inductive ScalarStyle where
  | plain
  | quoted
  | block
  deriving DecidableEq, Repr, Inhabited

inductive TokenKind where
  | streamStart
  | streamEnd
  | versionDirective (major minor : Nat)
  | tagDirective (handle : String) (uri : Text)
  | documentStart
  | documentEnd
  | blockSequenceStart
  | blockMappingStart
  | blockEnd
  | flowSequenceStart
  | flowSequenceEnd
  | flowMappingStart
  | flowMappingEnd
  | blockEntry
  | flowEntry
  | key
  | value
  | aliasOf (name : String)
  | anchor (name : String)
  | tag (handle : String) (suffix : Text)
  | scalar (text : String) (style : ScalarStyle)
  deriving DecidableEq, Repr, Inhabited

structure Token where
  kind : TokenKind
  start : Mark
  deriving DecidableEq, Repr, Inhabited

def Token.line (t : Token) : Nat := t.start.line

end ReactiveTree.Yaml
