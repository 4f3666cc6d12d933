import StackCode.Check.Notes

namespace StackCode

open Noting

inductive Callee where
  | intrinsic (op : Intrinsic)
  | method (result : Tag) (params : List Tag)
  | undeclared
  | notCallable
deriving DecidableEq, Repr

/-- Only a bare name can be called, and intrinsics come before methods. -/
def SymbolTable.callee (table : SymbolTable) (callee : Designator) : Callee :=
  if !callee.selectors.isEmpty then .notCallable
  else match Intrinsic.ofName? callee.base.name with
    | some op => .intrinsic op
    | none =>
      match table.lookup? callee.base.name with
      | none => .undeclared
      | some symbol =>
        match symbol.kind with
        | .method result params => .method result params
        | _ => .notCallable

inductive Expectation where
  | each (types : List Tag)
  | element
deriving DecidableEq, Repr

def Expectation.head : Expectation → Tag
  | .each (type :: _) => type
  | .each [] => .unknown
  | .element => .unknown

def Expectation.next (found : Tag) : Expectation → Expectation
  | .each types => .each types.tail
  | .element => .each [found.element]

def Callee.expectation : Callee → Expectation
  | .intrinsic .add => .element
  | .method _ params => .each params
  | _ => .each []

def Callee.use : Callee → Noting Unit
  | .method result _ => discard (asDeclared result)
  | _ => return ()

/-- The type found for an argument, and whether it is unknown for a reason already noted. -/
structure Argument where
  type : Tag
  excused : Bool
  span : Span
deriving DecidableEq, Repr

def checkListArgument (op : Intrinsic) (list : Argument) (span : Span) (more : Noting Unit) :
    Noting Unit :=
  if list.type.isList || list.excused then more
  else mismatch (.listArgument op list.type) (list.span.orElse span)

def Intrinsic.checkArguments (table : SymbolTable) (span : Span) :
    Intrinsic → List Argument → Noting Unit
  | .len, list :: _ => checkListArgument .len list span (return ())
  | .add, list :: value :: _ =>
    checkListArgument .add list span do
      if !list.excused && !value.excused &&
          !table.registry.accepts list.type.element value.type then
        mismatch (.addElement value.type list.type) (value.span.orElse span)
  | .del, list :: index :: _ =>
    checkListArgument .del list span do
      if index.type != .int && !index.excused then
        mismatch (.delIndex index.type) (index.span.orElse span)
  | .ord, value :: _ => do
    if value.type != .char && !value.excused then
      mismatch (.ordArgument value.type) (value.span.orElse span)
  | .chr, value :: _ => do
    if value.type != .int && !value.excused then
      mismatch (.chrArgument value.type) (value.span.orElse span)
  | _, _ => return ()

def checkParams (table : SymbolTable) (name : String) (span : Span) :
    (position : Nat) → List Tag → List Argument → Noting Unit
  | position, param :: params, argument :: arguments => do
    if !argument.excused && !param.isUnknown &&
        !table.registry.accepts param argument.type then
      mismatch (.argument position name param argument.type) (argument.span.orElse span)
    checkParams table name span (position + 1) params arguments
  | _, _, _ => return ()

def Callee.check (table : SymbolTable) (name : String) (span : Span) (arguments : List Argument) :
    Callee → Noting Tag
  | .intrinsic op => do
    if arguments.length != op.arity then
      report (.arity op.name op.arity arguments.length) span
    else op.checkArguments table span arguments
    return op.result
  | .method result params => do
    if params.length != arguments.length then
      report (.arity name params.length arguments.length) span
    else checkParams table name span 1 params arguments
    return result
  | .undeclared => do
    report (.undeclared name) span
    return .unknown
  | .notCallable => do
    report (.notCallable name) span
    return .unknown

end StackCode
