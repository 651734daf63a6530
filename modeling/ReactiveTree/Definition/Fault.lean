import ReactiveTree.Cell.Store
import ReactiveTree.Value.Arith
import ReactiveTree.Value.Coerce

/-!
# Faults

Everything an operation on definitions and components can be refused for.
-/

namespace ReactiveTree

structure ArgumentError where
  callback : String
  index : Option Nat
  want : String
  got : String
  deriving DecidableEq, Repr

def ArgumentError.message (e : ArgumentError) : String :=
  match e.index with
  | none => s!"callback {e.callback}: want {e.want} arguments, got {e.got}"
  | some i => s!"callback {e.callback}: argument {i}: want {e.want}, got {e.got}"

inductive Fault where
  | coercion (e : CoercionError)
  | arithmetic (e : ArithmeticError)
  | argument (e : ArgumentError)
  | cycle (e : CycleError)
  | noSuchProperty
  | noSuchCallback
  | noSuchItem (id : Option String)
  | mismatch
  | released
  | within (context : String) (cause : Fault)
  | other (message : String)

namespace Fault

def message : Fault → String
  | .coercion e => e.message
  | .arithmetic e => e.message
  | .argument e => e.message
  | .cycle e => e.message
  | .noSuchProperty => "no such property"
  | .noSuchCallback => "no such callback"
  | .noSuchItem none => "no such item"
  | .noSuchItem (some id) => s!"no such item {quoteString id}"
  | .mismatch => "callback argument mismatch"
  | .released => "component released"
  | .within context cause => s!"{context}: {cause.message}"
  | .other message => message

def label : Fault → String
  | .coercion _ => "CoercionError"
  | .arithmetic _ => "ArithmeticError"
  | .argument _ => "ArgumentError"
  | .cycle _ => "CycleError"
  | .noSuchProperty => "NoSuchProperty"
  | .noSuchCallback => "NoSuchCallback"
  | .noSuchItem _ => "NoSuchItem"
  | .mismatch => "Argument"
  | .released => "Released"
  | .within _ cause => cause.label
  | .other _ => "Error"

end Fault

end ReactiveTree
