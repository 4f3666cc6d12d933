import StackCode.Check.Annotations
import StackCode.Diagnostic.Basic
import StackCode.Symbols.Table

namespace StackCode

structure Notes where
  errors : Array Diagnostic := #[]
  annotations : Annotations := {}
  unknownUses : Nat := 0

abbrev Noting := StateM Notes

/-- Grows with every complaint and every use of a name of unknown type. -/
def Notes.tally (notes : Notes) : Nat := notes.errors.size + notes.unknownUses

namespace Noting

def tally : Noting Nat := return (← get).tally

def report (problem : Problem) (span : Span) : Noting Unit :=
  modify fun notes => { notes with errors := notes.errors.push ⟨problem, span⟩ }

def mismatch (what : Mismatch) (span : Span) : Noting Unit := report (.mismatch what) span

/-- Is one of the types unknown, for a reason noted since the tally was `start`? -/
def excused (start : Nat) (types : List Tag) : Noting Bool :=
  return start < (← get).tally && types.any Tag.isUnknown

/-- A type that is found but does not fit is complained of, unless it is unknown for a reason noted. -/
def demand (check : Noting Tag) (fits : Tag → Bool) (problem : Tag → Mismatch) (span : Span) :
    Noting Tag := do
  let start ← tally
  let type ← check
  if !fits type && !(← excused start [type]) then mismatch (problem type) span
  return type

def asDeclared (type : Tag) : Noting Tag := do
  if type.isUnknown then
    modify fun notes => { notes with unknownUses := notes.unknownUses + 1 }
  return type

def record (id : NodeId) (type : Tag) : Noting Unit :=
  modify fun notes => { notes with annotations := notes.annotations.record id type }

end Noting

open Noting

def SymbolTable.namedType (table : SymbolTable) (type : TypeName) : Noting Tag := do
  let tag := table.typeOf type.name
  if tag.isUnknown then report (.unknownType type.name) type.span
  return tag

def SymbolTable.namedValueType (table : SymbolTable) (type : TypeName) : Noting Tag := do
  let tag ← table.namedType type
  if tag == .void then
    mismatch .voidVariable type.span
    return .unknown
  return tag

/-- Can a value be stored where a type is expected? The unknown type is that of `null`. -/
def Registry.accepts (registry : Registry) (target value : Tag) : Bool :=
  target == value || (value.isUnknown && registry.isReference target)

def Registry.compares (registry : Registry) (left : Tag) (op : RelOp) (right : Tag) : Bool :=
  if op.isEquality then
    if left == right then left.isPrimitive || registry.isReference left
    else (left.isUnknown && registry.isReference right) ||
      (right.isUnknown && registry.isReference left)
  else left == right && (left.isNumeric || left == .char)

/-- The type of a literal. An integer has to fit 32 bits and a character 16. -/
def Literal.check (literal : Literal) (span : Span) : Noting Tag := do
  match literal with
  | .int n => if !fitsInt32 n.toInt then mismatch (.intRange n) span
  | .char c => if 0xFFFF < c.toNat then mismatch (.charRange c) span
  | _ => pure ()
  return literal.tag

def checkArith (start : Nat) (symbol : String) (left right : Tag) (span : Span) : Noting Tag := do
  match Tag.promote left right with
  | some type => return type
  | none =>
    if !(← excused start [left, right]) then mismatch (.operator symbol left right) span
    return .unknown

end StackCode
