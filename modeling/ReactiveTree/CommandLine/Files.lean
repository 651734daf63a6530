import ReactiveTree.Text.Split

/-!
# Files

Commands see the outside only through the files that they are given. A path leads from a
directory through its parts. An empty part and `.` stay where they are, and `..` goes back.
-/

namespace ReactiveTree.CommandLine

structure Files where
  read : String → Except String String
  create : String → Except String Unit

inductive FileError where
  | missing
  | notDirectory
  | isDirectory
  | nameTooLong
  deriving DecidableEq, Repr

def FileError.problem : FileError → String
  | .missing => "no such file or directory"
  | .notDirectory => "not a directory"
  | .isDirectory => "is a directory"
  | .nameTooLong => "file name too long"

def FileError.message (e : FileError) (action path : String) : String :=
  s!"{action} {path}: {e.problem}"

def noSuchFile (path : String) : String := FileError.missing.message "open" path

/-! ## A directory -/

def nameLimit : Nat := 255

inductive Target where
  | directory
  | name (name : String) (asDirectory : Bool)
  | failure (e : FileError)
  deriving DecidableEq, Repr

def Target.ofParts (files : List String) : List String → Target
  | [] => .directory
  | part :: rest =>
    if part = "" || part = "." then ofParts files rest
    else if part = ".." then
      if rest.all fun p => p = "" || p = "." || p = ".." then .directory else .failure .missing
    else if nameLimit < part.utf8ByteSize then .failure .nameTooLong
    else
      match rest with
      | [] => .name part false
      | [""] => .name part true
      | _ => .failure (if files.contains part then .notDirectory else .missing)

def Target.ofPath (files : List String) (path : String) : Target :=
  let parts := (splitAll '/' path.toList).map String.ofList
  if path.startsWith "/" then
    if parts.all (· = "") then .directory else .failure .missing
  else ofParts files parts

def Files.ofList (files : List (String × String)) : Files where
  read path :=
    match Target.ofPath (files.map (·.1)) path with
    | .failure e => .error (e.message "open" path)
    | .directory => .error (FileError.isDirectory.message "read" path)
    | .name name asDirectory =>
      match files.lookup name, asDirectory with
      | none, _ => .error (noSuchFile path)
      | some _, true => .error (FileError.notDirectory.message "open" path)
      | some text, false => .ok text
  create path :=
    match Target.ofPath (files.map (·.1)) path with
    | .failure e => .error (e.message "open" path)
    | .directory | .name _ true => .error (FileError.isDirectory.message "open" path)
    | .name _ false => .ok ()

end ReactiveTree.CommandLine
