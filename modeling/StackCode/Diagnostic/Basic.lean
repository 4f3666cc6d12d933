import StackCode.Program.Tree
import StackCode.Types.Intrinsic
import StackCode.Types.Registry

namespace StackCode

inductive StepOp where
  | increment
  | decrement
deriving DecidableEq, Repr

def StepOp.symbol : StepOp → String
  | .increment => "++"
  | .decrement => "--"

inductive Mismatch where
  | voidVariable
  | constantValue (name : String) (type : Tag) (value : Literal)
  | assign (value target : Tag)
  | step (op : StepOp) (found : Tag)
  | read (found : Tag)
  | write (found : Tag)
  | writeWidth (width : Int64)
  | missingResult (expected : Tag)
  | voidResult
  | result (found expected : Tag)
  | selector (found : Tag)
  | caseLabel (label : Literal) (selector : Tag)
  | notVariable (name : String)
  | index (found : Tag)
  | indexed (found : Tag)
  | argument (position : Nat) (method : String) (expected found : Tag)
  | listArgument (intrinsic : Intrinsic) (found : Tag)
  | addElement (value list : Tag)
  | delIndex (found : Tag)
  | ordArgument (found : Tag)
  | chrArgument (found : Tag)
  | castTarget (found : Tag)
  | cast (source target : Tag)
  | negation (found : Tag)
  | operator (symbol : String) (left right : Tag)
  | intRange (n : Int64)
  | charRange (c : Char)
  | noValue (method : String)
  | arraySize (found : Tag)
  | emptyList
  | listElements (first other : Tag)
  | condition (found : Tag)
  | comparison (left : Tag) (op : RelOp) (right : Tag)
deriving DecidableEq, Repr

inductive Problem where
  | redeclaration (name : String)
  | duplicateLabel (label : Literal)
  | undeclared (name : String)
  | unknownType (name : String)
  | unknownField (field : String) (type : Tag)
  | mismatch (what : Mismatch)
  | constantAssignment (name : String)
  | notCallable (name : String)
  | arity (name : String) (expected found : Nat)
  | strayBreak
  | missingEntry (name : String)
deriving DecidableEq, Repr

structure Diagnostic where
  problem : Problem
  span : Span
deriving DecidableEq, Repr

inductive Category where
  | redeclaration
  | undeclaredSymbol
  | typeMismatch
  | arityMismatch
  | controlFlowMisuse
  | missingEntryPoint
  | unsupportedConstruct
deriving DecidableEq, Repr

def Category.name : Category → String
  | .redeclaration => "Redeclaration"
  | .undeclaredSymbol => "UndeclaredSymbol"
  | .typeMismatch => "TypeMismatch"
  | .arityMismatch => "ArityMismatch"
  | .controlFlowMisuse => "ControlFlowMisuse"
  | .missingEntryPoint => "MissingEntryPoint"
  | .unsupportedConstruct => "UnsupportedConstruct"

def Category.label : Category → String
  | .redeclaration => "redeclaration"
  | .undeclaredSymbol => "undeclared-symbol"
  | .typeMismatch => "type-mismatch"
  | .arityMismatch => "arity-mismatch"
  | .controlFlowMisuse => "control-flow"
  | .missingEntryPoint => "missing-entry-point"
  | .unsupportedConstruct => "unsupported-construct"

namespace Problem

def category : Problem → Category
  | .redeclaration _ | .duplicateLabel _ => .redeclaration
  | .undeclared _ | .unknownType _ | .unknownField _ _ => .undeclaredSymbol
  | .mismatch _ | .constantAssignment _ | .notCallable _ => .typeMismatch
  | .arity _ _ _ => .arityMismatch
  | .strayBreak => .controlFlowMisuse
  | .missingEntry _ => .missingEntryPoint

def code : Problem → String
  | .redeclaration _ => "E0001"
  | .duplicateLabel _ => "E0002"
  | .undeclared _ => "E0003"
  | .unknownType _ => "E0004"
  | .unknownField _ _ => "E0005"
  | .mismatch _ => "E0006"
  | .constantAssignment _ => "E0007"
  | .notCallable _ => "E0008"
  | .arity _ _ _ => "E0009"
  | .strayBreak => "E0010"
  | .missingEntry _ => "E0011"

end Problem

end StackCode
