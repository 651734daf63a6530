import ReactiveTree.Text.Basic
import ReactiveTree.Text.Printable

/-!
# Quoted text

Text between double quotes with everything that is not printable escaped, so that the
result is one line of valid UTF-8 whatever bytes went in.
-/

namespace ReactiveTree

def hexDigits (width n : Nat) : String :=
  let digits := Nat.toDigits 16 n
  String.ofList (List.replicate (width - digits.length) '0' ++ digits)

namespace Quoted

def escapeChar (c : Char) : String :=
  match c with
  | '"' => "\\\""
  | '\\' => "\\\\"
  | '\n' => "\\n"
  | '\r' => "\\r"
  | '\t' => "\\t"
  | c =>
    let n := c.toNat
    if isPrintable c then c.toString
    else if n = 7 then "\\a"
    else if n = 8 then "\\b"
    else if n = 11 then "\\v"
    else if n = 12 then "\\f"
    else if n < 0x80 then "\\x" ++ hexDigits 2 n
    else if n < 0x10000 then "\\u" ++ hexDigits 4 n
    else "\\U" ++ hexDigits 8 n

def escapePiece : Utf8.Piece → String
  | .char c => escapeChar c
  | .stray b => "\\x" ++ hexDigits 2 b.toNat

end Quoted

def Text.quote (t : Text) : String :=
  "\"" ++ String.join ((Utf8.pieces t.bytes).map Quoted.escapePiece) ++ "\""

def quoteString (s : String) : String :=
  "\"" ++ String.join (s.toList.map Quoted.escapeChar) ++ "\""

end ReactiveTree
