import ReactiveTree.Scene.Basic

/-!
# Callbacks

A signal is a slot for a handler. A callback is a signal with declared argument kinds,
checked before the handler runs. Reads of a handler are not recorded for the binding that
raised it.
-/

namespace ReactiveTree

variable {U X : Type}

namespace Signal

def create (name : String) : SceneM U X SignalId :=
  .host fun s => (s.signals.size, { s with signals := s.signals.push { name } })

/-- Runs the handler, if there is one. -/
def call (i : SignalId) (args : List Value) : SceneM U X (Option Value) := do
  match ← Act.ask fun s => (s.signal i).handler with
  | none => return none
  | some h => return some (← Act.untracked (.perform (.handle h args)))

end Signal

namespace CallbackDecl

def checkArg? (want : Kind) (a : Value) : Option Value :=
  if want = .void || a.kind = want then some a
  else if a.kind = .int && want = .float then some (.float a.asFloat)
  else none

def checkFrom (name : String) : Nat → List Kind → List Value → Except ArgumentError (List Value)
  | i, want :: wants, a :: args =>
    match checkArg? want a with
    | none => .error ⟨name, some i, want.name, a.kind.name⟩
    | some a =>
      match checkFrom name (i + 1) wants args with
      | .error e => .error e
      | .ok rest => .ok (a :: rest)
  | _, _, _ => .ok []

def check (decl : CallbackDecl) (args : List Value) : Except ArgumentError (List Value) :=
  if args.length ≠ decl.args.length then
    .error ⟨decl.name, none, toString decl.args.length, toString args.length⟩
  else checkFrom decl.name 0 decl.args args

end CallbackDecl

namespace Callback

def create (decl : CallbackDecl) : SceneM U X Callback := do
  return ⟨decl, ← Signal.create decl.name⟩

def find? (callbacks : List Callback) (name : String) : Option Callback :=
  callbacks.find? (·.decl.name == name)

def invoke (cb : Callback) (args : List Value) : SceneM U X (Except Fault Value) := do
  match cb.decl.check args with
  | .error e => return .error (.argument e)
  | .ok args =>
    let result ← Signal.call cb.signal args
    return .ok (result.getD .void)

end Callback

end ReactiveTree
