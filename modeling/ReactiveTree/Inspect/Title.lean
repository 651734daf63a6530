/-!
# Titles of tables

A title is read as a template to which no values are given. `%%` is a percent sign. Any other
directive is replaced by a note of what is missing: `%d` becomes `%!d(MISSING)`. A directive
is a `%`, flags, a width, a precision after a point, and a letter; the number of a value in
brackets may stand before the width, before the precision and before the letter.
-/

namespace ReactiveTree.Title

def greatestNumber : Nat := 1000000

def skipNumber : Nat → List Char → List Char
  | n, c :: rest =>
    if c.isDigit then
      if greatestNumber < n then [] else skipNumber (n * 10 + (c.toNat - '0'.toNat)) rest
    else c :: rest
  | _, [] => []

def isNumber (cs : List Char) : Bool :=
  !cs.isEmpty && cs.all Char.isDigit
    && (cs.dropLast.foldl (fun n c => n * 10 + (c.toNat - '0'.toNat)) 0 ≤ greatestNumber)

structure Directive where
  rest : List Char
  plain : Bool := true
  numbered : Bool := false
  notes : String := ""

namespace Directive

def skipIndex (d : Directive) : Directive :=
  match d.rest with
  | '[' :: rest =>
    let inner := rest.takeWhile (· ≠ ']')
    if inner.length = rest.length || rest.length < 2 then
      { d with rest, plain := false, numbered := false }
    else
      { d with rest := rest.drop (inner.length + 1), plain := false, numbered := isNumber inner }
  | _ => { d with numbered := false }

def skipWidth (d : Directive) : Directive :=
  match d.rest with
  | '*' :: rest => { d with rest, numbered := false, notes := d.notes ++ "%!(BADWIDTH)" }
  | rest => { d with rest := skipNumber 0 rest }

def skipPrecision (d : Directive) : Directive :=
  match d.rest with
  | '.' :: rest =>
    let d := skipIndex { d with rest }
    match d.rest with
    | '*' :: rest => { d with rest, numbered := false, notes := d.notes ++ "%!(BADPREC)" }
    | rest => { d with rest := skipNumber 0 rest }
  | _ => d

def finish (d : Directive) : String × List Char :=
  match d.rest with
  | [] => (d.notes ++ "%!(NOVERB)", [])
  | '%' :: rest => (d.notes ++ "%", rest)
  | c :: rest =>
    let note := if d.plain then "(MISSING)" else "(BADINDEX)"
    (d.notes ++ "%!" ++ String.singleton c ++ note, rest)

def read (cs : List Char) : String × List Char :=
  let flags : List Char := ['#', '0', '+', '-', ' ']
  let d := skipWidth (skipIndex { rest := cs.dropWhile flags.contains })
  let d := skipPrecision d
  finish (if d.numbered then d else skipIndex d)

end Directive

def expand : (limit : Nat) → List Char → String
  | 0, _ => ""
  | limit + 1, cs =>
    let text := cs.takeWhile (· ≠ '%')
    match cs.drop text.length with
    | [] => String.ofList text
    | _ :: rest =>
      let (shown, rest) := Directive.read rest
      String.ofList text ++ shown ++ expand limit rest

def shown (title : String) : String := expand (title.length + 1) title.toList

end ReactiveTree.Title
