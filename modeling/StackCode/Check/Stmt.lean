import StackCode.Check.State

namespace StackCode

open Checking

def declareNames (type : Tag) (site : Site) (decl : Span) : List Ident → Checking Unit
  | [] => return ()
  | name :: names => do
    discard (introduce name (·.declareVar? name type false site decl))
    declareNames type site decl names

def VarDecl.declare (decl : VarDecl) (site : Site) : Checking Unit := do
  let type ← note (·.namedValueType decl.type)
  declareNames type site decl.span decl.names

def checkAssign (target : Designator) (value : Expr) (span : Span) : Checking Unit :=
  note fun table => do
    let left ← target.checkWritten table
    let start ← Noting.tally
    let right ← checkExpected table value left
    if !(← Noting.excused start [right]) && !left.isUnknown &&
        !table.registry.accepts left right then
      Noting.mismatch (.assign right left) (span.orElse value.span)

def checkTarget (target : Designator) (fits : Tag → Bool) (problem : Tag → Mismatch) (span : Span) :
    Checking Unit :=
  note fun table => do
    let _ ← (target.checkWritten table).demand fits problem (span.orElse target.span)
    return ()

def checkWrite (value : Expr) (width : Option Int64) (span : Span) : Checking Unit :=
  note fun table => do
    let _ ← (value.check table).demand Tag.isWritable .write (span.orElse value.span)
    match width with
    | some width => if !fitsInt32 width.toInt then Noting.mismatch (.writeWidth width) span
    | none => return ()

def checkBreak (span : Span) : Checking Unit := do
  let state ← get
  if state.loopDepth == 0 && state.switchDepth == 0 then report .strayBreak span

def checkResult (value : Option Expr) (span : Span) : Checking Unit := do
  let expected := (← get).expectedResult
  match value with
  | none =>
    if expected != .void && !expected.isUnknown then
      report (.mismatch (.missingResult expected)) span
  | some value =>
    note fun table => do
      let start ← Noting.tally
      let type ← checkExpected table value expected
      if expected == .void then Noting.mismatch .voidResult (span.orElse value.span)
      else if !expected.isUnknown && !(← Noting.excused start [type]) &&
          !table.registry.accepts expected type then
        Noting.mismatch (.result type expected) (span.orElse value.span)

def Tag.isSelector (type : Tag) : Bool := type == .int || type == .char

def checkSelector (selector : Expr) (span : Span) : Checking Tag :=
  note fun table =>
    (selector.check table).demand Tag.isSelector .selector (selector.span.orElse span)

def checkLabel (selector : Tag) (seen : List Literal) (label : Literal) (span : Span) :
    Checking Unit :=
  note fun _ => do
    let type ← label.check span
    if selector.isSelector && type != selector then
      Noting.mismatch (.caseLabel label selector) span
    if seen.any (·.sameValue label) then Noting.report (.duplicateLabel label) span

mutual

def Stmt.check : Stmt → Checking Unit
  | .assign target value span => checkAssign target value span
  | .call callee args span => discard (note fun table => callee.checkCall table args span)
  | .increment target span => checkTarget target (· == .int) (.step .increment) span
  | .decrement target span => checkTarget target (· == .int) (.step .decrement) span
  | .branch cond onTrue onFalse _ => do
    note fun table => cond.check table
    onTrue.check
    checkOption onFalse
  | .whileLoop cond body _ => do
    note fun table => cond.check table
    enterLoop
    body.check
    leaveLoop
  | .forLoop init cond update body _ => do
    checkOption init
    match cond with
    | some cond => note fun table => cond.check table
    | none => pure ()
    checkOption update
    enterLoop
    body.check
    leaveLoop
  | .breakStmt span => checkBreak span
  | .returnStmt value span => checkResult value span
  | .read target span => checkTarget target Tag.isReadable .read span
  | .write value width span => checkWrite value width span
  | .switch selector cases default span => do
    let type ← checkSelector selector span
    enterSwitch
    checkCases type [] cases
    checkDefault default
    leaveSwitch
  | .block ⟨items, _⟩ => do
    openScope
    checkItems items
    closeScope
  | .empty _ => return ()

def checkOption : Option Stmt → Checking Unit
  | none => return ()
  | some stmt => stmt.check

def checkStmts : List Stmt → Checking Unit
  | [] => return ()
  | stmt :: rest => do
    stmt.check
    checkStmts rest

def checkCases (selector : Tag) : (seen : List Literal) → List SwitchCase → Checking Unit
  | _, [] => return ()
  | seen, ⟨label, body, span⟩ :: rest => do
    checkLabel selector seen label span
    checkStmts body
    checkCases selector (label :: seen) rest

def checkDefault : Option DefaultCase → Checking Unit
  | none => return ()
  | some ⟨body, _⟩ => checkStmts body

def checkItems : List BlockItem → Checking Unit
  | [] => return ()
  | .var decl :: rest => do
    decl.declare .localVar
    checkItems rest
  | .stmt stmt :: rest => do
    stmt.check
    checkItems rest

end

end StackCode
