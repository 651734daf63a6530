/-!
# Places in a YAML text, and what is wrong there

Lines and columns count from zero.
-/

namespace ReactiveTree.Yaml

structure Mark where
  line : Nat := 0
  column : Nat := 0
  index : Nat := 0
  deriving DecidableEq, Repr, Inhabited

/-! ## Classes of characters -/

def isBreak (c : Char) : Bool :=
  c = '\n' || c = '\r' || c.toNat = 0x85 || c.toNat = 0x2028 || c.toNat = 0x2029

def isGap (c : Char) : Bool := c = ' ' || c = '\t'

def isWordChar (c : Char) : Bool := c.isAlphanum || c = '_' || c = '-'

def isAllowed (c : Char) : Bool :=
  let n := c.toNat
  c = '\t' || c = '\n' || c = '\r' || (0x20 ≤ n && n ≤ 0x7E) || n = 0x85
    || (0xA0 ≤ n && n ≤ 0xD7FF) || (0xE000 ≤ n && n ≤ 0xFFFD) || 0x10000 ≤ n

def byteOrderMark : Char := Char.ofNat 0xFEFF

/-! ## Problems -/

structure Problem where
  text : String := ""
  context : Nat := 0
  line : Nat := 0
  lexical : Bool := false
  deriving DecidableEq, Repr, Inhabited

def Problem.message (p : Problem) : String :=
  let line := if p.context ≠ 0 then p.context else p.line
  let shown := if p.lexical then line + 1 else line
  if line = 0 then p.text else s!"line {shown}: {p.text}"

end ReactiveTree.Yaml
