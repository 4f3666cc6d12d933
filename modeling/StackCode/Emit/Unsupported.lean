import StackCode.Program.Tree
import StackCode.Types.Intrinsic

namespace StackCode

inductive Unsupported where
  | noTargetType (tag : Tag)
  | unresolvedType (name : String)
  | untypedNode (id : NodeId)
  | notClass (tag : Tag)
  | tooManyLocals
  | unresolvedDesignator (name : String)
  | strayBreak
  | widthRange
  | noField (field : String) (tag : Tag)
  | constantStore (name : String)
  | constantStep (name : String)
  | unknownMethod (name : String)
  | intrinsicArity (op : Intrinsic) (found : Nat)
  | intRange (n : Int64)
  | noConversion (source target : Tag)
  | arithmetic (left right : Tag)
  | noSizes
  | unresolvedBranch (method : String)
deriving DecidableEq, Repr

namespace Unsupported

def cause : Unsupported → String
  | .noTargetType tag => "no target type for tag " ++ tag.text
  | .unresolvedType name => s!"unresolved type '{name}'"
  | .untypedNode id => s!"node {id} has no type annotation"
  | .notClass tag => "tag " ++ tag.text ++ " is not a class"
  | .tooManyLocals => "too many locals"
  | .unresolvedDesignator name => s!"unresolved designator '{name}'"
  | .strayBreak => "'break' with no enclosing loop or switch"
  | .widthRange => "write width out of range"
  | .noField field tag => s!"no field '{field}' on tag " ++ tag.text
  | .constantStore name => s!"store to constant '{name}'"
  | .constantStep name => s!"increment of constant '{name}'"
  | .unknownMethod name => s!"call to unknown method '{name}'"
  | .intrinsicArity op found => "'" ++ op.name ++ s!"' with {found} argument(s)"
  | .intRange n => "integer literal " ++ toString n.toInt ++ " out of range"
  | .noConversion source target => "no conversion from " ++ source.text ++ " to " ++ target.text
  | .arithmetic left right => "arithmetic on " ++ left.text ++ " and " ++ right.text
  | .noSizes => "array creation without a size"
  | .unresolvedBranch method => s!"unresolved branch target in '{method}'"

def code : String := "E9000"

def message (u : Unsupported) : String :=
  "unsupported construct during code generation: " ++ u.cause

end Unsupported

end StackCode
