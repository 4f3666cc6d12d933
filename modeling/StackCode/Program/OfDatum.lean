import StackCode.Program.Tree
import StackCode.Schema.Basic

namespace StackCode

open Schema (Datum)

def word32? : Datum → Option UInt32
  | .int n => if 0 ≤ n ∧ n < 0x100000000 then some (UInt32.ofNat n.toNat) else none
  | _ => none

def int64? : Datum → Option Int64
  | .int n => if -0x8000000000000000 ≤ n ∧ n < 0x8000000000000000 then some (Int64.ofInt n) else none
  | _ => none

def Span.ofDatum? : Datum → Option Span
  | .record [line, column] => return ⟨← word32? line, ← word32? column⟩
  | _ => none

def Ident.ofDatum? : Datum → Option Ident
  | .record [.text name, span] => return ⟨name, ← Span.ofDatum? span⟩
  | _ => none

def TypeName.ofDatum? : Datum → Option TypeName
  | .record [.text name, span] => return ⟨name, ← Span.ofDatum? span⟩
  | _ => none

def Literal.ofDatum? : Datum → Option Literal
  | .variant "Int" n => return .int (← int64? n)
  | .variant "Float" (.float x) => some (.float x)
  | .variant "Double" (.float x) => some (.double x)
  | .variant "Char" (.char c) => some (.char c)
  | .variant "Str" (.text s) => some (.str s)
  | .variant "Bool" (.bool b) => some (.bool b)
  | .variant "Null" .unit => some .null
  | _ => none

def AddOp.ofDatum? : Datum → Option AddOp
  | .variant "Add" .unit => some .add
  | .variant "Sub" .unit => some .sub
  | _ => none

def MulOp.ofDatum? : Datum → Option MulOp
  | .variant "Mul" .unit => some .mul
  | .variant "Div" .unit => some .div
  | .variant "Rem" .unit => some .rem
  | _ => none

def RelOp.ofDatum? : Datum → Option RelOp
  | .variant "Eq" .unit => some .eq
  | .variant "Ne" .unit => some .ne
  | .variant "Lt" .unit => some .lt
  | .variant "Le" .unit => some .le
  | .variant "Gt" .unit => some .gt
  | .variant "Ge" .unit => some .ge
  | _ => none

def isAbsent : Datum → Bool
  | .absent => true
  | _ => false

def optionOf? {α : Type} (ofDatum? : Datum → Option α) : Datum → Option (Option α)
  | .absent => some none
  | datum => some <$> ofDatum? datum

mutual

def Expr.ofDatum? : Datum → Option Expr
  | .record [id, .bool neg, cast, head, .list tail, span] => do
    let id ← word32? id
    let cast ← optionOf? TypeName.ofDatum? cast
    let head ← Term.ofDatum? head
    let tail ← termsOf? tail
    return ⟨id, neg, cast, head, tail, ← Span.ofDatum? span⟩
  | _ => none

def termsOf? : List Datum → Option (List (AddOp × Term))
  | [] => some []
  | .list [op, term] :: rest => do
    let op ← AddOp.ofDatum? op
    let term ← Term.ofDatum? term
    return (op, term) :: (← termsOf? rest)
  | _ => none

def Term.ofDatum? : Datum → Option Term
  | .record [id, head, .list tail, span] => do
    let id ← word32? id
    let head ← Factor.ofDatum? head
    let tail ← factorsOf? tail
    return ⟨id, head, tail, ← Span.ofDatum? span⟩
  | _ => none

def factorsOf? : List Datum → Option (List (MulOp × Factor))
  | [] => some []
  | .list [op, factor] :: rest => do
    let op ← MulOp.ofDatum? op
    let factor ← Factor.ofDatum? factor
    return (op, factor) :: (← factorsOf? rest)
  | _ => none

def Factor.ofDatum? : Datum → Option Factor
  | .record [id, kind, span] => do
    let id ← word32? id
    let kind ← FactorKind.ofDatum? kind
    return ⟨id, kind, ← Span.ofDatum? span⟩
  | _ => none

def FactorKind.ofDatum? : Datum → Option FactorKind
  | .variant "Literal" value => return .literal (← Literal.ofDatum? value)
  | .variant "Designator" target => return .designator (← Designator.ofDatum? target)
  | .variant "Call" (.record [callee, .list args]) => do
    let callee ← Designator.ofDatum? callee
    return .call callee (← exprsOf? args)
  | .variant "New" (.record [className]) => return .newObject (← Ident.ofDatum? className)
  | .variant "NewArray" (.record [elem, .list sizes]) => do
    let elem ← TypeName.ofDatum? elem
    return .newArray elem (← exprsOf? sizes)
  | .variant "Paren" inner => return .paren (← Expr.ofDatum? inner)
  | .variant "List" (.list elems) => return .list (← exprsOf? elems)
  | _ => none

def exprsOf? : List Datum → Option (List Expr)
  | [] => some []
  | e :: rest => do
    let e ← Expr.ofDatum? e
    return e :: (← exprsOf? rest)

def Designator.ofDatum? : Datum → Option Designator
  | .record [id, base, .list selectors, span] => do
    let id ← word32? id
    let base ← Ident.ofDatum? base
    let selectors ← selectorsOf? selectors
    return ⟨id, base, selectors, ← Span.ofDatum? span⟩
  | _ => none

def selectorsOf? : List Datum → Option (List Selector)
  | [] => some []
  | .variant "Field" name :: rest => do
    let name ← Ident.ofDatum? name
    return .field name :: (← selectorsOf? rest)
  | .variant "Index" value :: rest => do
    let value ← Expr.ofDatum? value
    return .index value :: (← selectorsOf? rest)
  | _ => none

end

def FactKind.ofDatum? : Datum → Option FactKind
  | .variant "Relation" (.record [left, op, right]) => do
    let left ← Expr.ofDatum? left
    let op ← RelOp.ofDatum? op
    return .relation left op (← Expr.ofDatum? right)
  | .variant "Expr" value => return .expr (← Expr.ofDatum? value)
  | _ => none

def CondFact.ofDatum? : Datum → Option CondFact
  | .record [id, kind, span] =>
    return ⟨← word32? id, ← FactKind.ofDatum? kind, ← Span.ofDatum? span⟩
  | _ => none

def CondTerm.ofDatum? : Datum → Option CondTerm
  | .record [id, .list facts, span] =>
    return ⟨← word32? id, ← facts.mapM CondFact.ofDatum?, ← Span.ofDatum? span⟩
  | _ => none

def Condition.ofDatum? : Datum → Option Condition
  | .record [id, .list terms, span] =>
    return ⟨← word32? id, ← terms.mapM CondTerm.ofDatum?, ← Span.ofDatum? span⟩
  | _ => none

def VarDecl.ofDatum? : Datum → Option VarDecl
  | .record [type, .list names, span] =>
    return ⟨← TypeName.ofDatum? type, ← names.mapM Ident.ofDatum?, ← Span.ofDatum? span⟩
  | _ => none

mutual

def Stmt.ofDatum? : Datum → Option Stmt
  | .variant "Assign" (.record [target, value, span]) => do
    let target ← Designator.ofDatum? target
    let value ← Expr.ofDatum? value
    return .assign target value (← Span.ofDatum? span)
  | .variant "Call" (.record [callee, .list args, span]) => do
    let callee ← Designator.ofDatum? callee
    let args ← exprsOf? args
    return .call callee args (← Span.ofDatum? span)
  | .variant "Increment" (.record [target, span]) => do
    let target ← Designator.ofDatum? target
    return .increment target (← Span.ofDatum? span)
  | .variant "Decrement" (.record [target, span]) => do
    let target ← Designator.ofDatum? target
    return .decrement target (← Span.ofDatum? span)
  | .variant "If" (.record [cond, onTrue, onFalse, span]) => do
    let cond ← Condition.ofDatum? cond
    let onTrue ← Stmt.ofDatum? onTrue
    let onFalse ← if isAbsent onFalse then pure none else some <$> Stmt.ofDatum? onFalse
    return .branch cond onTrue onFalse (← Span.ofDatum? span)
  | .variant "While" (.record [cond, body, span]) => do
    let cond ← Condition.ofDatum? cond
    let body ← Stmt.ofDatum? body
    return .whileLoop cond body (← Span.ofDatum? span)
  | .variant "For" (.record [init, cond, update, body, span]) => do
    let init ← if isAbsent init then pure none else some <$> Stmt.ofDatum? init
    let cond ← optionOf? Condition.ofDatum? cond
    let update ← if isAbsent update then pure none else some <$> Stmt.ofDatum? update
    let body ← Stmt.ofDatum? body
    return .forLoop init cond update body (← Span.ofDatum? span)
  | .variant "Break" (.record [span]) => return .breakStmt (← Span.ofDatum? span)
  | .variant "Return" (.record [value, span]) => do
    let value ← optionOf? Expr.ofDatum? value
    return .returnStmt value (← Span.ofDatum? span)
  | .variant "Read" (.record [target, span]) => do
    let target ← Designator.ofDatum? target
    return .read target (← Span.ofDatum? span)
  | .variant "Write" (.record [value, width, span]) => do
    let value ← Expr.ofDatum? value
    let width ← optionOf? int64? width
    return .write value width (← Span.ofDatum? span)
  | .variant "Switch" (.record [selector, .list cases, default, span]) => do
    let selector ← Expr.ofDatum? selector
    let cases ← casesOf? cases
    let default ← defaultOf? default
    return .switch selector cases default (← Span.ofDatum? span)
  | .variant "Block" (.record [.list items, span]) => do
    let items ← itemsOf? items
    return .block ⟨items, ← Span.ofDatum? span⟩
  | .variant "Empty" (.record [span]) => return .empty (← Span.ofDatum? span)
  | _ => none

def stmtsOf? : List Datum → Option (List Stmt)
  | [] => some []
  | stmt :: rest => do
    let stmt ← Stmt.ofDatum? stmt
    return stmt :: (← stmtsOf? rest)

def casesOf? : List Datum → Option (List SwitchCase)
  | [] => some []
  | .record [label, .list body, span] :: rest => do
    let label ← Literal.ofDatum? label
    let body ← stmtsOf? body
    let span ← Span.ofDatum? span
    return ⟨label, body, span⟩ :: (← casesOf? rest)
  | _ => none

def defaultOf? : Datum → Option (Option DefaultCase)
  | .absent => some none
  | .record [.list body, span] => do
    let body ← stmtsOf? body
    return some ⟨body, ← Span.ofDatum? span⟩
  | _ => none

def itemsOf? : List Datum → Option (List BlockItem)
  | [] => some []
  | .variant "Var" decl :: rest => do
    let decl ← VarDecl.ofDatum? decl
    return .var decl :: (← itemsOf? rest)
  | .variant "Stmt" stmt :: rest => do
    let stmt ← Stmt.ofDatum? stmt
    return .stmt stmt :: (← itemsOf? rest)
  | _ => none

end

def Block.ofDatum? : Datum → Option Block
  | .record [.list items, span] => return ⟨← itemsOf? items, ← Span.ofDatum? span⟩
  | _ => none

def ConstDecl.ofDatum? : Datum → Option ConstDecl
  | .record [type, name, value, span] =>
    return ⟨← TypeName.ofDatum? type, ← Ident.ofDatum? name, ← Literal.ofDatum? value,
      ← Span.ofDatum? span⟩
  | _ => none

def ClassDecl.ofDatum? : Datum → Option ClassDecl
  | .record [name, .list fields, span] =>
    return ⟨← Ident.ofDatum? name, ← fields.mapM VarDecl.ofDatum?, ← Span.ofDatum? span⟩
  | _ => none

def Param.ofDatum? : Datum → Option Param
  | .record [type, name] => return ⟨← TypeName.ofDatum? type, ← Ident.ofDatum? name⟩
  | _ => none

def MethodDecl.ofDatum? : Datum → Option MethodDecl
  | .record [name, result, .list params, body, span] =>
    return ⟨← Ident.ofDatum? name, ← optionOf? TypeName.ofDatum? result,
      ← params.mapM Param.ofDatum?, ← Block.ofDatum? body, ← Span.ofDatum? span⟩
  | _ => none

def Item.ofDatum? : Datum → Option Item
  | .variant "Const" decl => return .const (← ConstDecl.ofDatum? decl)
  | .variant "Var" decl => return .vars (← VarDecl.ofDatum? decl)
  | .variant "Class" decl => return .classDecl (← ClassDecl.ofDatum? decl)
  | .variant "Method" decl => return .method (← MethodDecl.ofDatum? decl)
  | _ => none

def Program.ofDatum? : Datum → Option Program
  | .record [name, .list items, span] =>
    return ⟨← Ident.ofDatum? name, ← items.mapM Item.ofDatum?, ← Span.ofDatum? span⟩
  | _ => none

end StackCode
