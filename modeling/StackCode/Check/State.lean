import StackCode.Check.Expr

namespace StackCode

structure CheckState extends Notes where
  table : SymbolTable := {}
  loopDepth : Nat := 0
  switchDepth : Nat := 0
  expectedResult : Tag := .void

abbrev Checking := StateM CheckState

namespace Checking

def note {α : Type} (f : SymbolTable → Noting α) : Checking α := fun state =>
  let (value, notes) := f state.table state.toNotes
  (value, { state with toNotes := notes })

def report (problem : Problem) (span : Span) : Checking Unit :=
  note fun _ => Noting.report problem span

def introduce (name : Ident) (declaration : SymbolTable → Option SymbolTable) : Checking Bool := do
  match declaration (← get).table with
  | some table =>
    modify fun state => { state with table }
    return true
  | none =>
    report (.redeclaration name.name) name.span
    return false

def openScope : Checking Unit :=
  modify fun state => { state with table := state.table.openScope }

def closeScope : Checking Unit :=
  modify fun state => { state with table := state.table.closeScope?.getD state.table }

def enterLoop : Checking Unit :=
  modify fun state => { state with loopDepth := state.loopDepth + 1 }

def leaveLoop : Checking Unit :=
  modify fun state => { state with loopDepth := state.loopDepth - 1 }

def enterSwitch : Checking Unit :=
  modify fun state => { state with switchDepth := state.switchDepth + 1 }

def leaveSwitch : Checking Unit :=
  modify fun state => { state with switchDepth := state.switchDepth - 1 }

end Checking

end StackCode
