import StackCode.Program.Tree
import StackCode.Schema.Basic

namespace StackCode

open Schema (Datum)

def Span.toDatum (span : Span) : Datum := .record [.int span.line.toNat, .int span.column.toNat]

def NodeId.toDatum (id : NodeId) : Datum := .int id.toNat

def Ident.toDatum (ident : Ident) : Datum := .record [.text ident.name, ident.span.toDatum]

def TypeName.toDatum (type : TypeName) : Datum := .record [.text type.name, type.span.toDatum]

def Literal.toDatum : Literal → Datum
  | .int n => .variant "Int" (.int n.toInt)
  | .float x => .variant "Float" (.float x)
  | .double x => .variant "Double" (.float x)
  | .char c => .variant "Char" (.char c)
  | .str s => .variant "Str" (.text s)
  | .bool b => .variant "Bool" (.bool b)
  | .null => .variant "Null" .unit

def AddOp.toDatum : AddOp → Datum
  | .add => .variant "Add" .unit
  | .sub => .variant "Sub" .unit

def MulOp.toDatum : MulOp → Datum
  | .mul => .variant "Mul" .unit
  | .div => .variant "Div" .unit
  | .rem => .variant "Rem" .unit

def RelOp.toDatum : RelOp → Datum
  | .eq => .variant "Eq" .unit
  | .ne => .variant "Ne" .unit
  | .lt => .variant "Lt" .unit
  | .le => .variant "Le" .unit
  | .gt => .variant "Gt" .unit
  | .ge => .variant "Ge" .unit

def optionDatum {α : Type} (toDatum : α → Datum) : Option α → Datum
  | some value => toDatum value
  | none => .absent

mutual

def Expr.toDatum : Expr → Datum
  | ⟨id, neg, cast, head, tail, span⟩ =>
    .record [id.toDatum, .bool neg, optionDatum TypeName.toDatum cast, head.toDatum,
      .list (termData tail), span.toDatum]

def termData : List (AddOp × Term) → List Datum
  | [] => []
  | (op, term) :: rest => .list [op.toDatum, term.toDatum] :: termData rest

def Term.toDatum : Term → Datum
  | ⟨id, head, tail, span⟩ =>
    .record [id.toDatum, head.toDatum, .list (factorData tail), span.toDatum]

def factorData : List (MulOp × Factor) → List Datum
  | [] => []
  | (op, factor) :: rest => .list [op.toDatum, factor.toDatum] :: factorData rest

def Factor.toDatum : Factor → Datum
  | ⟨id, kind, span⟩ => .record [id.toDatum, kind.toDatum, span.toDatum]

def FactorKind.toDatum : FactorKind → Datum
  | .literal value => .variant "Literal" value.toDatum
  | .designator target => .variant "Designator" target.toDatum
  | .call callee args => .variant "Call" (.record [callee.toDatum, .list (exprData args)])
  | .newObject className => .variant "New" (.record [className.toDatum])
  | .newArray elem sizes => .variant "NewArray" (.record [elem.toDatum, .list (exprData sizes)])
  | .paren inner => .variant "Paren" inner.toDatum
  | .list elems => .variant "List" (.list (exprData elems))

def exprData : List Expr → List Datum
  | [] => []
  | e :: rest => e.toDatum :: exprData rest

def Designator.toDatum : Designator → Datum
  | ⟨id, base, selectors, span⟩ =>
    .record [id.toDatum, base.toDatum, .list (selectorData selectors), span.toDatum]

def selectorData : List Selector → List Datum
  | [] => []
  | .field name :: rest => .variant "Field" name.toDatum :: selectorData rest
  | .index value :: rest => .variant "Index" value.toDatum :: selectorData rest

end

def FactKind.toDatum : FactKind → Datum
  | .relation left op right =>
    .variant "Relation" (.record [left.toDatum, op.toDatum, right.toDatum])
  | .expr value => .variant "Expr" value.toDatum

def CondFact.toDatum (fact : CondFact) : Datum :=
  .record [fact.id.toDatum, fact.kind.toDatum, fact.span.toDatum]

def CondTerm.toDatum (term : CondTerm) : Datum :=
  .record [term.id.toDatum, .list (term.facts.map CondFact.toDatum), term.span.toDatum]

def Condition.toDatum (cond : Condition) : Datum :=
  .record [cond.id.toDatum, .list (cond.terms.map CondTerm.toDatum), cond.span.toDatum]

def VarDecl.toDatum (decl : VarDecl) : Datum :=
  .record [decl.type.toDatum, .list (decl.names.map Ident.toDatum), decl.span.toDatum]

mutual

def Stmt.toDatum : Stmt → Datum
  | .assign target value span =>
    .variant "Assign" (.record [target.toDatum, value.toDatum, span.toDatum])
  | .call callee args span =>
    .variant "Call" (.record [callee.toDatum, .list (exprData args), span.toDatum])
  | .increment target span => .variant "Increment" (.record [target.toDatum, span.toDatum])
  | .decrement target span => .variant "Decrement" (.record [target.toDatum, span.toDatum])
  | .branch cond onTrue onFalse span =>
    .variant "If" (.record [cond.toDatum, onTrue.toDatum, stmtDatum onFalse, span.toDatum])
  | .whileLoop cond body span =>
    .variant "While" (.record [cond.toDatum, body.toDatum, span.toDatum])
  | .forLoop init cond update body span =>
    .variant "For" (.record [stmtDatum init, optionDatum Condition.toDatum cond, stmtDatum update,
      body.toDatum, span.toDatum])
  | .breakStmt span => .variant "Break" (.record [span.toDatum])
  | .returnStmt value span =>
    .variant "Return" (.record [optionDatum Expr.toDatum value, span.toDatum])
  | .read target span => .variant "Read" (.record [target.toDatum, span.toDatum])
  | .write value width span =>
    .variant "Write" (.record [value.toDatum, optionDatum (fun n => .int n.toInt) width,
      span.toDatum])
  | .switch selector cases default span =>
    .variant "Switch" (.record [selector.toDatum, .list (caseData cases), defaultDatum default,
      span.toDatum])
  | .block block => .variant "Block" block.toDatum
  | .empty span => .variant "Empty" (.record [span.toDatum])

def stmtDatum : Option Stmt → Datum
  | some stmt => stmt.toDatum
  | none => .absent

def stmtData : List Stmt → List Datum
  | [] => []
  | stmt :: rest => stmt.toDatum :: stmtData rest

def caseData : List SwitchCase → List Datum
  | [] => []
  | ⟨label, body, span⟩ :: rest =>
    .record [label.toDatum, .list (stmtData body), span.toDatum] :: caseData rest

def defaultDatum : Option DefaultCase → Datum
  | some ⟨body, span⟩ => .record [.list (stmtData body), span.toDatum]
  | none => .absent

def Block.toDatum : Block → Datum
  | ⟨items, span⟩ => .record [.list (itemData items), span.toDatum]

def itemData : List BlockItem → List Datum
  | [] => []
  | .var decl :: rest => .variant "Var" decl.toDatum :: itemData rest
  | .stmt stmt :: rest => .variant "Stmt" stmt.toDatum :: itemData rest

end

def ConstDecl.toDatum (decl : ConstDecl) : Datum :=
  .record [decl.type.toDatum, decl.name.toDatum, decl.value.toDatum, decl.span.toDatum]

def ClassDecl.toDatum (decl : ClassDecl) : Datum :=
  .record [decl.name.toDatum, .list (decl.fields.map VarDecl.toDatum), decl.span.toDatum]

def Param.toDatum (param : Param) : Datum := .record [param.type.toDatum, param.name.toDatum]

def MethodDecl.toDatum (decl : MethodDecl) : Datum :=
  .record [decl.name.toDatum, optionDatum TypeName.toDatum decl.result,
    .list (decl.params.map Param.toDatum), decl.body.toDatum, decl.span.toDatum]

def Item.toDatum : Item → Datum
  | .const decl => .variant "Const" decl.toDatum
  | .vars decl => .variant "Var" decl.toDatum
  | .classDecl decl => .variant "Class" decl.toDatum
  | .method decl => .variant "Method" decl.toDatum

def Program.toDatum (program : Program) : Datum :=
  .record [program.name.toDatum, .list (program.items.map Item.toDatum), program.span.toDatum]

end StackCode
