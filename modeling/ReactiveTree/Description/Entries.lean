import ReactiveTree.Description.Error

/-!
# Parts of a description

Mappings with known keys, scalars, literals, references and transitions.
-/

namespace ReactiveTree.Description

open Yaml (Node)

def refuse {α : Type} (path : String) (n : Node) (flaw : Flaw) : Except DescriptionError α :=
  .error { path, line := n.line, flaw }

abbrev Entries := List (Node × Node)

def checkKeys (path : String) (allowed : Option (List String)) :
    (seen : List String) → Entries → Except DescriptionError Unit
  | _, [] => .ok ()
  | seen, (key, _) :: rest =>
    if allowed.any (!·.contains key.text) then refuse path key (.unknownKey key.text)
    else if seen.contains key.text then refuse path key (.duplicateKey key.text)
    else checkKeys path allowed (key.text :: seen) rest

def entriesOf (path : String) (n : Node) (allowed : Option (List String)) :
    Except DescriptionError Entries :=
  match n with
  | .mapping _ _ entries => do
    checkKeys path allowed [] entries
    return entries
  | _ => refuse path n .wantMapping

def Entries.get? (entries : Entries) (key : String) : Option Node :=
  (entries.find? (·.1.text == key)).map (·.2)

def scalarOf (path : String) (n : Node) : Except DescriptionError String :=
  match n with
  | .scalar _ _ text _ => .ok text
  | _ => refuse path n .wantScalar

def listOf (path : String) (n : Node) : Except DescriptionError (List Node) :=
  match n with
  | .sequence _ _ items => .ok items
  | _ => refuse path n .wantList

def literalOf (path : String) (n : Node) : Except DescriptionError Value :=
  match n with
  | .scalar line tag text _ =>
    let resolved : Except DescriptionError Yaml.Resolved :=
      match Yaml.resolve tag text with
      | .ok r => .ok r
      | .error e => refuse path n (.undecodable e)
    if tag = "!!null" then .ok .void
    else if tag = "!!bool" || tag = "!!int" || tag = "!!float" then do
      match ← resolved with
      | .bool b => return .bool b
      | .int i =>
        if i ≤ Number.greatest false then return .int (Int64.ofInt i)
        else refuse path n (.undecodable (.unfit line tag text "int64"))
      | .float x => return .float x
      | _ => return .string (Text.ofString text)
    else .ok (.string (Text.ofString text))
  | _ => refuse path n .wantLiteral

def referenceOf (path : String) (n : Node) : Except DescriptionError Reference :=
  match n with
  | .scalar _ _ text _ =>
    if text = "" then refuse path n .wantReference
    else
      match Reference.read? text with
      | some r => .ok r
      | none => refuse path n (.malformedReference text)
  | _ => refuse path n .wantReference

def kindOf? (name : String) : Option Kind :=
  match Kind.ofName? name with
  | some k => some k
  | none => if name = "any" then some .void else none

def durationOf (path : String) (n : Node) : Except DescriptionError Int64 :=
  match Duration.read n.text.toList with
  | .ok d => .ok (Int64.ofInt d)
  | .error e => refuse path n (.duration e n.text)

def easingOf (path : String) (n : Node) : Except DescriptionError Easing :=
  match Easing.read n.text with
  | .ok e => .ok e
  | .error e => refuse path n (.easing e)

def specOf (path : String) (n : Node) : Except DescriptionError Spec := do
  let entries ← entriesOf path n (some ["duration", "delay", "easing"])
  let duration ← match entries.get? "duration" with
    | some d => durationOf (path ++ ".duration") d
    | none => pure 0
  let delay ← match entries.get? "delay" with
    | some d => durationOf (path ++ ".delay") d
    | none => pure 0
  match entries.get? "easing" with
  | some e =>
    let easing ← easingOf (path ++ ".easing") e
    return { duration, delay, easing := easing.apply }
  | none => return { duration, delay }

def defaultId (path : String) : String := String.ofList (go path.toList)
where
  go : List Char → List Char
    | '$' :: '.' :: rest => go rest
    | '.' :: rest => '-' :: go rest
    | '[' :: rest => go rest
    | ']' :: rest => go rest
    | c :: rest => c :: go rest
    | [] => []

def elementId (path : String) (entries : Entries) : String :=
  match entries.get? "id" with
  | some n => if n.text = "" then defaultId path else n.text
  | none => defaultId path

def indexed (path : String) (i : Nat) : String := s!"{path}[{i}]"

def isRepeat : Node → Bool
  | .mapping _ _ entries => entries.any (·.1.text == "for")
  | _ => false

end ReactiveTree.Description
