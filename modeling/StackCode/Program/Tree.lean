import StackCode.Program.Literal
import StackCode.Program.Span

namespace StackCode

abbrev NodeId := UInt32

inductive AddOp where
  | add
  | sub
deriving DecidableEq, Repr

inductive MulOp where
  | mul
  | div
  | rem
deriving DecidableEq, Repr

inductive RelOp where
  | eq
  | ne
  | lt
  | le
  | gt
  | ge
deriving DecidableEq, Repr

def AddOp.symbol : AddOp → String
  | .add => "+"
  | .sub => "-"

def MulOp.symbol : MulOp → String
  | .mul => "*"
  | .div => "/"
  | .rem => "%"

def RelOp.symbol : RelOp → String
  | .eq => "=="
  | .ne => "!="
  | .lt => "<"
  | .le => "<="
  | .gt => ">"
  | .ge => ">="

def RelOp.isEquality (op : RelOp) : Bool := op = .eq || op = .ne

mutual

/-- `[-] [(T)] term { addop term }` -/
structure Expr where
  id : NodeId
  neg : Bool
  cast : Option TypeName
  head : Term
  tail : List (AddOp × Term)
  span : Span

/-- `factor { mulop factor }` -/
structure Term where
  id : NodeId
  head : Factor
  tail : List (MulOp × Factor)
  span : Span

structure Factor where
  id : NodeId
  kind : FactorKind
  span : Span

inductive FactorKind where
  | literal (value : Literal)
  | designator (target : Designator)
  | call (callee : Designator) (args : List Expr)
  | newObject (className : Ident)
  | newArray (elem : TypeName) (sizes : List Expr)
  | paren (inner : Expr)
  | list (elems : List Expr)

/-- `name { .field | [index] }` -/
structure Designator where
  id : NodeId
  base : Ident
  selectors : List Selector
  span : Span

inductive Selector where
  | field (name : Ident)
  | index (value : Expr)

end

/-- The literal `2147483648` fits an integer only behind a minus sign. -/
def isLeastInt (neg : Bool) (cast : Option TypeName) (head : Term) : Bool :=
  match neg, cast, head.tail, head.head.kind with
  | true, none, [], .literal (.int n) => n == 2147483648
  | _, _, _, _ => false

theorem isLeastInt_iff {neg : Bool} {cast : Option TypeName} {head : Term} :
    isLeastInt neg cast head = true ↔ neg = true ∧ cast = none ∧ head.tail = [] ∧
      head.head.kind = .literal (.int 2147483648) := by
  unfold isLeastInt
  split
  · simp_all
  · rename_i other
    constructor
    · intro impossible
      cases impossible
    · rintro ⟨sign, plain, single, literal⟩
      exact (other _ sign plain single literal).elim

theorem eq_of_isLeastInt {neg : Bool} {cast : Option TypeName} {head : Term}
    (least : isLeastInt neg cast head = true) : cast = none ∧ ∃ id fid inner outer,
      head = ⟨id, ⟨fid, .literal (.int 2147483648), inner⟩, [], outer⟩ := by
  obtain ⟨id, ⟨fid, kind, inner⟩, factors, outer⟩ := head
  obtain ⟨_, uncast, lone, literal⟩ := isLeastInt_iff.mp least
  cases lone
  cases literal
  exact ⟨uncast, id, fid, inner, outer, rfl⟩

def Expr.isBareList (e : Expr) : Bool :=
  match e.neg, e.cast, e.tail, e.head.tail, e.head.head.kind with
  | false, none, [], [], .list [] => true
  | _, _, _, _, _ => false

theorem Expr.eq_of_isBareList {e : Expr} (bare : e.isBareList = true) :
    ∃ id tid fid inner middle outer,
      e = ⟨id, false, none, ⟨tid, ⟨fid, .list [], inner⟩, [], middle⟩, [], outer⟩ := by
  obtain ⟨id, neg, cast, ⟨tid, ⟨fid, kind, inner⟩, factors, middle⟩, terms, outer⟩ := e
  unfold Expr.isBareList at bare
  split at bare
  · rename_i plain uncast single lone list
    cases plain
    cases uncast
    cases single
    cases lone
    cases list
    exact ⟨id, tid, fid, inner, middle, outer, rfl⟩
  · cases bare

inductive FactKind where
  | relation (left : Expr) (op : RelOp) (right : Expr)
  | expr (value : Expr)

structure CondFact where
  id : NodeId
  kind : FactKind
  span : Span

structure CondTerm where
  id : NodeId
  facts : List CondFact
  span : Span

structure Condition where
  id : NodeId
  terms : List CondTerm
  span : Span

/-- `T a, b, c;` -/
structure VarDecl where
  type : TypeName
  names : List Ident
  span : Span

mutual

inductive Stmt where
  | assign (target : Designator) (value : Expr) (span : Span)
  | call (callee : Designator) (args : List Expr) (span : Span)
  | increment (target : Designator) (span : Span)
  | decrement (target : Designator) (span : Span)
  | branch (cond : Condition) (onTrue : Stmt) (onFalse : Option Stmt) (span : Span)
  | whileLoop (cond : Condition) (body : Stmt) (span : Span)
  | forLoop (init : Option Stmt) (cond : Option Condition) (update : Option Stmt) (body : Stmt)
      (span : Span)
  | breakStmt (span : Span)
  | returnStmt (value : Option Expr) (span : Span)
  | read (target : Designator) (span : Span)
  | write (value : Expr) (width : Option Int64) (span : Span)
  | switch (selector : Expr) (cases : List SwitchCase) (default : Option DefaultCase) (span : Span)
  | block (block : Block)
  | empty (span : Span)

structure SwitchCase where
  label : Literal
  body : List Stmt
  span : Span

structure DefaultCase where
  body : List Stmt
  span : Span

structure Block where
  items : List BlockItem
  span : Span

inductive BlockItem where
  | var (decl : VarDecl)
  | stmt (stmt : Stmt)

end

/-- `const T name = literal;` -/
structure ConstDecl where
  type : TypeName
  name : Ident
  value : Literal
  span : Span

structure ClassDecl where
  name : Ident
  fields : List VarDecl
  span : Span

structure Param where
  type : TypeName
  name : Ident

/-- A method; without a written result type it returns nothing. -/
structure MethodDecl where
  name : Ident
  result : Option TypeName
  params : List Param
  body : Block
  span : Span

inductive Item where
  | const (decl : ConstDecl)
  | vars (decl : VarDecl)
  | classDecl (decl : ClassDecl)
  | method (decl : MethodDecl)

structure Program where
  name : Ident
  items : List Item
  span : Span

end StackCode
