import ReactiveTree.Animation.Easing
import ReactiveTree.Definition.Basic
import ReactiveTree.Yaml.Document

/-!
# What is wrong with a description

A description is refused at its first flaw, which is located by the path to it and, where
there is one, by the line.
-/

namespace ReactiveTree.Description

inductive Flaw where
  | emptyDocument
  | unreadable (e : Yaml.DocumentError)
  | undecodable (e : Yaml.DecodeError)
  | wantMapping
  | wantList
  | wantScalar
  | wantLiteral
  | wantType
  | wantArgumentTypes
  | wantReference
  | unknownKey (key : String)
  | duplicateKey (key : String)
  | missingRoot
  | missingKind
  | unknownKind (name : String)
  | duplicateId (id : String)
  | noElement (id : String)
  | unknownType (name : String)
  | propertyExists (name : String)
  | noProperty (owner name : String)
  | coercion (e : CoercionError)
  | typeNotAllowed
  | operatorWithoutBinding
  | unknownOperator (symbol : String)
  | missingOperand
  | malformedReference (text : String)
  | duration (e : Duration.ReadError) (text : String)
  | easing (e : Easing.ReadError)
  | bindingAndLink
  | outerLink
  | unknownProperty (r : Reference)
  | linkKinds (prop : String) (kind : Kind) (r : Reference) (other : Kind)
  | callbackExists (name : String)
  | noCallback (owner name : String)
  | emptyAction
  | missingValue
  | emitsElement
  | unknownCallback (name : String)
  | callbackArguments (name : String)
  | pastOutermost (r : Reference)
  | missingTemplate
  | wantOneSource
  | fault (f : Fault)
  | tooDeep

def Flaw.message : Flaw → Text
  | .emptyDocument => "empty document"
  | .unreadable e => Text.ofString ("yaml: " ++ e.message)
  | .undecodable e => Text.ofString "yaml: " ++ e.message
  | .wantMapping => "want a mapping"
  | .wantList => "want a list"
  | .wantScalar => "want a scalar"
  | .wantLiteral => "want a literal"
  | .wantType => "want a type name or a mapping"
  | .wantArgumentTypes => "want a list of argument types"
  | .wantReference => "want a property reference"
  | .unknownKey key => s!"unknown key {quoteString key}"
  | .duplicateKey key => s!"duplicate key {quoteString key}"
  | .missingRoot => "missing root"
  | .missingKind => "missing kind"
  | .unknownKind name => s!"unknown kind {quoteString name}"
  | .duplicateId id => s!"duplicate id {quoteString id}"
  | .noElement id => s!"no element {quoteString id}"
  | .unknownType name => s!"unknown type {quoteString name}"
  | .propertyExists name => s!"property {quoteString name} already exists"
  | .noProperty owner name => s!"{owner} has no property {quoteString name}"
  | .coercion e => e.message
  | .typeNotAllowed => "type is only allowed on declared properties"
  | .operatorWithoutBinding => "op and operand need bind"
  | .unknownOperator symbol => s!"unknown operator {quoteString symbol}"
  | .missingOperand => "op needs an operand"
  | .malformedReference text => s!"malformed reference {quoteString text}"
  | .duration e text => e.message text.toList
  | .easing e => e.message
  | .bindingAndLink => "bind and twoway are exclusive"
  | .outerLink => "two-way links stay within one component"
  | .unknownProperty r => s!"unknown property {r.text}"
  | .linkKinds prop kind r other => s!"{prop} is {kind.name}, {r.text} is {other.name}"
  | .callbackExists name => s!"callback {quoteString name} declared twice"
  | .noCallback owner name => s!"{owner} has no callback {quoteString name}"
  | .emptyAction => "empty action"
  | .missingValue => "set needs a value"
  | .emitsElement => "emit takes a component callback name"
  | .unknownCallback name => s!"no callback {quoteString name}"
  | .callbackArguments name => s!"callback {quoteString name} takes arguments"
  | .pastOutermost r => s!"{r.text} reaches past the outermost component"
  | .missingTemplate => "for needs a template"
  | .wantOneSource => "want exactly one of count, rows or property"
  | .fault f => f.message
  | .tooDeep => "nested too deeply"

end Description

structure DescriptionError where
  path : String
  line : Nat := 0
  flaw : Description.Flaw

def DescriptionError.message (e : DescriptionError) : Text :=
  let place := if e.line = 0 then e.path else s!"{e.path} (line {e.line})"
  Text.ofString s!"invalid component description: {place}: " ++ e.flaw.message

end ReactiveTree
