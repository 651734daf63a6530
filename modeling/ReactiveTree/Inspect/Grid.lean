import ReactiveTree.Text.Blank
import ReactiveTree.Text.Split
import ReactiveTree.Text.Width

/-!
# Text tables

A grid is a title, a header and groups of rows. Each column is as wide as its widest cell.
Lines separate the header and the groups; a frame around everything is optional.
-/

namespace ReactiveTree

structure Grid where
  title : String
  header : List String
  groups : List (List (List String))

namespace Grid

def overwrite (line : List Char) : List Char :=
  let step (acc : List Char × List Char) (c : Char) : List Char × List Char :=
    -- written so far, reversed, and what is still under it
    if c = '\r' then ([], acc.1.reverse ++ acc.2) else (c :: acc.1, acc.2.tail)
  let (written, rest) := line.foldl step ([], [])
  written.reverse ++ rest

def expandTabs (cs : List Char) : List Char :=
  cs.flatMap fun c => if c = '\t' then [' ', ' ', ' ', ' '] else [c]

def cellLines (s : String) : List (List Char) :=
  let dropReturn (line : List Char) : List Char :=
    if line.getLast? = some '\r' then line.dropLast else line
  match (splitAll '\n' (expandTabs s.toList)).reverse with
  | [] => [[]]
  | last :: before => ((last :: before.map dropReturn).reverse).map overwrite

def width (lines : List (List Char)) : Nat := lines.foldl (fun w l => max w (displayWidth l)) 0

def columnWidths (rows : List (List (List (List Char)))) : List Nat :=
  rows.foldl (fun widths row => List.zipWith max widths (row.map width))
    ((rows.headD []).map fun _ => 0)

def padRight (w : Nat) (line : List Char) : List Char :=
  line ++ List.replicate (w - displayWidth line) ' '

def padCell (w : Nat) (line : List Char) : List Char := ' ' :: padRight w line ++ [' ']

structure Rule where
  left : Char
  middle : Char
  right : Char

def joinColumns (framed : Bool) (rule : Rule) (columns : List (List Char)) : String :=
  let inner := [rule.middle].intercalate columns
  String.ofList (if framed then rule.left :: inner ++ [rule.right] else inner)

def cellRule : Rule := ⟨'│', '│', '│'⟩

def separator (framed : Bool) (rule : Rule) (widths : List Nat) : String :=
  joinColumns framed rule (widths.map fun w => List.replicate (w + 2) '─')

def rowLines (framed : Bool) (widths : List Nat) (row : List (List (List Char))) : List String :=
  let height := row.foldl (fun h cell => max h cell.length) 1
  (List.range height).map fun i =>
    joinColumns framed cellRule
      (List.zipWith (fun w cell => padCell w (cell.getD i [])) widths row)

def resetStyle : List Char := [escapeChar, '[', '0', 'm']

structure Wrapping where
  text : List Char := []
  filled : Nat := 0
  escaping : Bool := false
  style : List Char := []

namespace Wrapping

def newLine (x : Wrapping) : Wrapping :=
  let text :=
    if x.style.isEmpty then '\n' :: x.text
    else x.style.reverse ++ '\n' :: resetStyle.reverse ++ x.text
  { x with text, filled := 0 }

def add (w : Nat) (x : Wrapping) (c : Char) : Wrapping :=
  let starts := c = escapeChar
  let escaping := starts || x.escaping
  let style := if starts then [c] else if x.escaping then x.style ++ [c] else x.style
  let x := { x with style }
  let x := if c = '\n' || x.filled = w && !escaping then x.newLine else x
  let x :=
    if c = '\n' then x
    else { x with text := c :: x.text, filled := if escaping then x.filled else x.filled + 1 }
  { x with
    escaping := escaping && c ≠ 'm'
    style := if x.style = resetStyle then [] else x.style }

def finish (x : Wrapping) : List Char :=
  x.text.reverse ++ if x.style.isEmpty then [] else resetStyle

end Wrapping

def wrap (w : Nat) (s : String) : List (List Char) :=
  let cs := expandTabs s.toList
  if w = 0 then [[]]
  else if cs.length ≤ w then splitAll '\n' cs
  else splitAll '\n' (cs.foldl (Wrapping.add w) {}).finish

def titleLines (framed : Bool) (total : Nat) (title : String) : List String :=
  if title = "" then []
  else
    (wrap (total - 2) title).map fun line =>
      joinColumns framed cellRule [padCell (total - 2) (trimWhere isBlank line)]

def between (line : String) : List (List String) → List String
  | [] => []
  | [group] => group
  | group :: rest => group ++ line :: between line rest

def lines (framed : Bool) (g : Grid) : List String :=
  let header := g.header.map cellLines
  let groups := g.groups.map fun rows => rows.map fun row => row.map cellLines
  let widths := columnWidths (header :: groups.flatten)
  let total := widths.foldl (fun n w => n + w + 2) (widths.length - 1)
  let title := titleLines framed total g.title
  let inner := separator framed ⟨'├', '┼', '┤'⟩ widths
  let body := rowLines framed widths header
    ++ inner :: between inner (groups.map fun rows => rows.flatMap (rowLines framed widths))
  if framed then
    let top :=
      if title.isEmpty then [separator true ⟨'╭', '┬', '╮'⟩ widths]
      else separator true ⟨'╭', '─', '╮'⟩ widths :: title ++ [separator true ⟨'├', '┬', '┤'⟩ widths]
    top ++ body ++ [separator true ⟨'╰', '┴', '╯'⟩ widths]
  else title ++ body

def render (framed : Bool) (g : Grid) : String :=
  String.join ((g.lines framed).map (· ++ "\n"))

end Grid

end ReactiveTree
