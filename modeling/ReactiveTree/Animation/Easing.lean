import ReactiveTree.Text.Split
import ReactiveTree.Text.Quoted
import ReactiveTree.Number.Reader

/-!
# Easings

An easing maps linear progress in [0, 1] to eased progress. Besides the linear one these
are cubic Bézier curves from (0, 0) to (1, 1) with two control points, read as a function
of the first coordinate: the curve parameter is found by Newton's method and, where that
does not settle, by bisection.
-/

namespace ReactiveTree

inductive Easing where
  | linear
  | bezier (x1 y1 x2 y2 : Float)
  deriving Inhabited

namespace Easing

def clampUnit (x : Float) : Float :=
  if x.isNaN then x else if x ≤ 0 then 0 else if 1 ≤ x then 1 else x

/-- The curve with the given control points, their first coordinates clamped to [0, 1].
Control points on the diagonal give the linear easing. -/
def cubic (x1 y1 x2 y2 : Float) : Easing :=
  let x1 := clampUnit x1
  let x2 := clampUnit x2
  if x1 == y1 && x2 == y2 then .linear else .bezier x1 y1 x2 y2

def ease : Easing := cubic 0.25 0.1 0.25 1
def easeIn : Easing := cubic 0.42 0 1 1
def easeOut : Easing := cubic 0 0 0.58 1
def easeInOut : Easing := cubic 0.42 0 0.58 1

def coordinate (t p1 p2 : Float) : Float :=
  let mt := 1 - t
  3 * mt * mt * t * p1 + 3 * mt * t * t * p2 + t * t * t

def slope (t p1 p2 : Float) : Float :=
  let mt := 1 - t
  3 * mt * mt * p1 + 6 * mt * t * (p2 - p1) + 3 * t * t * (1 - p2)

/-- Newton steps towards the parameter whose first coordinate is `x`; `none` when the
curve is too flat or the steps run out. -/
def newton (x p1 p2 : Float) : (steps : Nat) → (t : Float) → Option Float
  | 0, _ => none
  | steps + 1, t =>
    let off := coordinate t p1 p2 - x
    if off.abs < 1e-7 then some t
    else
      let d := slope t p1 p2
      if d.abs < 1e-6 then none else newton x p1 p2 steps (t - off / d)

def bisect (x p1 p2 : Float) : (steps : Nat) → (low high t : Float) → Float
  | 0, _, _, t => t
  | steps + 1, low, high, t =>
    let v := coordinate t p1 p2
    if (v - x).abs < 1e-7 then t
    else if v < x then bisect x p1 p2 steps t high ((t + high) / 2)
    else bisect x p1 p2 steps low t ((low + t) / 2)

def apply (e : Easing) (x : Float) : Float :=
  match e with
  | .linear => x
  | .bezier x1 y1 x2 y2 =>
    if x ≤ 0 then 0
    else if 1 ≤ x then 1
    else
      match newton x x1 x2 8 x with
      | some t => coordinate t y1 y2
      | none => coordinate (bisect x x1 x2 50 0 1 x) y1 y2

inductive ReadError where
  | unknown (s : String)
  | count (s : String) (got : Nat)
  | number (s : String) (part : String) (cause : Number.ReadError)
  deriving DecidableEq, Repr

def ReadError.message : ReadError → String
  | .unknown s => s!"unknown easing {quoteString s}"
  | .count s got => s!"easing {quoteString s}: want 4 control values, got {got}"
  | .number s part cause =>
    let problem := match cause with
      | .invalid => "invalid syntax"
      | .outOfRange => "value out of range"
    s!"easing {quoteString s}: strconv.ParseFloat: parsing {quoteString part}: {problem}"

def controlList? (s : List Char) : Option (List Char) :=
  let opening := "cubic-bezier(".toList
  if opening.isPrefixOf s && s.getLast? == some ')' then some (s.drop opening.length).dropLast
  else none

def read (text : String) : Except ReadError Easing :=
  let s := trimBlank text
  if s = "" || s = "linear" then .ok .linear
  else if s = "ease" then .ok ease
  else if s = "ease-in" then .ok easeIn
  else if s = "ease-out" then .ok easeOut
  else if s = "ease-in-out" then .ok easeInOut
  else
    match controlList? s.toList with
    | none => .error (.unknown s)
    | some list =>
      let parts := splitAll ',' list
      if parts.length ≠ 4 then .error (.count s parts.length)
      else
        let readPart (part : List Char) : Except ReadError Float :=
          let part := trimWhere isBlank part
          match Number.readFloat part with
          | .ok x => .ok x
          | .error cause => .error (.number s (String.ofList part) cause)
        match parts.mapM readPart with
        | .error e => .error e
        | .ok [x1, y1, x2, y2] => .ok (cubic x1 y1 x2 y2)
        | .ok _ => .error (.count s parts.length)

end Easing

end ReactiveTree
