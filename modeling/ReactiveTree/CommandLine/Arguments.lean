import ReactiveTree.Text.Quoted
import ReactiveTree.Text.Split

/-!
# Flags and files

Flags start with one or two dashes and may stand before or after the files. The value of a
flag follows it, or stands after a `=`.
-/

namespace ReactiveTree.CommandLine

inductive FlagKind where
  | valued
  | switch
  deriving DecidableEq, Repr

inductive UsageError where
  | unknownFlag (name : String)
  | missingValue (name : String)
  | badValue (name value problem : String)
  | unknownCommand (name : String)
  deriving DecidableEq, Repr

def UsageError.message : UsageError → String
  | .unknownFlag name => s!"flag provided but not defined: -{name}"
  | .missingValue name => s!"flag needs an argument: -{name}"
  | .badValue name value problem =>
    s!"invalid value {quoteString value} for flag -{name}: {problem}"
  | .unknownCommand name => s!"No help topic for '{name}'"

structure Arguments where
  flags : List (String × String) := []
  files : List String := []
  deriving DecidableEq, Repr

namespace Arguments

def addFlag (a : Arguments) (name value : String) : Arguments :=
  { a with flags := (name, value) :: a.flags }

def addFile (a : Arguments) (file : String) : Arguments := { a with files := file :: a.files }

def splitFlag? (arg : String) : Option (String × Option String) :=
  let body := match arg.toList with
    | '-' :: '-' :: c :: rest => some (c :: rest)
    | '-' :: c :: rest => if c = '-' then none else some (c :: rest)
    | _ => none
  body.map fun cs =>
    let name := cs.takeWhile (· ≠ '=')
    let value := if name.length = cs.length then none
      else some (String.ofList (cs.drop (name.length + 1)))
    (String.ofList name, value)

inductive Place where
  | free
  | afterFlag
  | afterName (name : String)

def endsFlags (arg : String) : Bool := trimBlank arg = "" || arg = "-"

def readAfter (known : List (String × FlagKind)) :
    (place : Place) → List String → Except UsageError Arguments
  | .afterName name, [] => .error (.missingValue name)
  | _, [] => .ok {}
  | .afterName name, value :: rest => do
    return (← readAfter known .afterFlag rest).addFlag name value
  | .afterFlag, "--" :: rest => readAfter known .free rest
  | _, arg :: rest =>
    if arg = "--" || endsFlags arg then .ok { files := arg :: rest }
    else
      match splitFlag? arg with
      | none => do return (← readAfter known .free rest).addFile arg
      | some (name, value) =>
        match known.lookup name, value with
        | none, _ => .error (.unknownFlag name)
        | some _, some value => do
          return (← readAfter known .afterFlag rest).addFlag name value
        | some .switch, none => do
          return (← readAfter known .afterFlag rest).addFlag name "true"
        | some .valued, none => readAfter known (.afterName name) rest

def read (known : List (String × FlagKind)) (args : List String) : Except UsageError Arguments :=
  readAfter known .free args

def all (a : Arguments) (name : String) : List String :=
  (a.flags.filter (·.1 == name)).map (·.2)

def last? (a : Arguments) (name : String) : Option String := (a.all name).getLast?

def items (a : Arguments) (name : String) : List String :=
  (a.all name).flatMap fun value =>
    (splitAll ',' value.toList).map fun part => trimBlank (String.ofList part)

end Arguments

end ReactiveTree.CommandLine
