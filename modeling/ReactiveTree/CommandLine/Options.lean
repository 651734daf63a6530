import ReactiveTree.CommandLine.Arguments
import ReactiveTree.Value.Coerce

/-!
# Options of the commands
-/

namespace ReactiveTree.CommandLine

structure InspectOptions where
  file : String := ""
  sets : List String := []
  emits : List String := []
  advance : Int64 := 0
  format : String := "table"
  activate : Bool := false
  verbose : Bool := false

structure BenchOptions where
  widths : List Int := [1, 10, 100]
  heights : List Int := [1, 10, 100]
  rows : List Int := [10, 100, 1000]
  writes : Int := 100
  profile : String := ""

inductive Command where
  | inspect (o : InspectOptions)
  | bench (o : BenchOptions)
  | help

def inspectFlags : List (String × FlagKind) :=
  [("set", .valued), ("emit", .valued), ("advance", .valued), ("format", .valued),
    ("show", .switch), ("verbose", .switch)]

def benchFlags : List (String × FlagKind) :=
  [("width", .valued), ("height", .valued), ("rows", .valued), ("iters", .valued),
    ("profile", .valued)]

def readLast {α : Type} (a : Arguments) (name : String) (default : α)
    (read : String → Except String α) : Except UsageError α :=
  match a.last? name with
  | none => .ok default
  | some value =>
    match read value with
    | .ok x => .ok x
    | .error problem => .error (.badValue name value problem)

def readSwitch (value : String) : Except String Bool :=
  match Value.readBool? value with
  | some b => .ok b
  | none => .error s!"strconv.ParseBool: parsing {quoteString value}: invalid syntax"

def readDuration (value : String) : Except String Int64 :=
  match Duration.read value.toList with
  | .ok d => .ok (Int64.ofInt d)
  | .error e => .error (e.message value.toList)

def readInteger (value : String) : Except String Int :=
  match Number.readMarkedInt value.toList with
  | .ok n => .ok n
  | .error e =>
    let problem := match e with
      | .invalid => "invalid syntax"
      | .outOfRange => "value out of range"
    .error s!"strconv.ParseInt: parsing {quoteString value}: {problem}"

def readIntegers (a : Arguments) (name : String) (default : List Int) :
    Except UsageError (List Int) :=
  match a.items name with
  | [] => .ok default
  | parts => parts.mapM fun part =>
    match readInteger part with
    | .ok n => .ok n
    | .error problem => .error (.badValue name part problem)

def InspectOptions.read (args : List String) : Except UsageError InspectOptions := do
  let a ← Arguments.read inspectFlags args
  return {
    file := a.files.headD ""
    sets := a.items "set"
    emits := a.items "emit"
    advance := ← readLast a "advance" 0 readDuration
    format := (a.last? "format").getD "table"
    activate := ← readLast a "show" false readSwitch
    verbose := ← readLast a "verbose" false readSwitch }

def BenchOptions.read (args : List String) : Except UsageError BenchOptions := do
  let a ← Arguments.read benchFlags args
  let defaults : BenchOptions := {}
  return {
    widths := ← readIntegers a "width" defaults.widths
    heights := ← readIntegers a "height" defaults.heights
    rows := ← readIntegers a "rows" defaults.rows
    writes := ← readLast a "iters" defaults.writes readInteger
    profile := (a.last? "profile").getD "" }

def Command.read : List String → Except UsageError Command
  | [] => .ok .help
  | name :: args =>
    if name = "inspect" then .inspect <$> InspectOptions.read args
    else if name = "bench" then .bench <$> BenchOptions.read args
    else if ["help", "h", "--help", "-h"].contains name then .ok .help
    else .error (.unknownCommand name)

end ReactiveTree.CommandLine
