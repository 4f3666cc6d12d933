import StackCode.Program.Tree

namespace StackCode

abbrev Numbering := StateM NodeId

def Numbering.fresh : Numbering NodeId := modifyGet fun last => (last + 1, last + 1)

mutual

def Expr.number : Expr → Numbering Expr
  | ⟨_, neg, cast, head, tail, span⟩ => do
    let id ← Numbering.fresh
    let head ← head.number
    let tail ← numberTerms tail
    return ⟨id, neg, cast, head, tail, span⟩

def numberTerms : List (AddOp × Term) → Numbering (List (AddOp × Term))
  | [] => return []
  | (op, term) :: rest => do
    let term ← term.number
    return (op, term) :: (← numberTerms rest)

def Term.number : Term → Numbering Term
  | ⟨_, head, tail, span⟩ => do
    let id ← Numbering.fresh
    let head ← head.number
    let tail ← numberFactors tail
    return ⟨id, head, tail, span⟩

def numberFactors : List (MulOp × Factor) → Numbering (List (MulOp × Factor))
  | [] => return []
  | (op, factor) :: rest => do
    let factor ← factor.number
    return (op, factor) :: (← numberFactors rest)

def Factor.number : Factor → Numbering Factor
  | ⟨_, kind, span⟩ => do
    let id ← Numbering.fresh
    let kind ← kind.number
    return ⟨id, kind, span⟩

def FactorKind.number : FactorKind → Numbering FactorKind
  | .literal value => return .literal value
  | .designator target => return .designator (← target.number)
  | .call callee args => do
    let callee ← callee.number
    return .call callee (← numberExprs args)
  | .newObject className => return .newObject className
  | .newArray elem sizes => return .newArray elem (← numberExprs sizes)
  | .paren inner => return .paren (← inner.number)
  | .list elems => return .list (← numberExprs elems)

def numberExprs : List Expr → Numbering (List Expr)
  | [] => return []
  | e :: rest => do
    let e ← e.number
    return e :: (← numberExprs rest)

def Designator.number : Designator → Numbering Designator
  | ⟨_, base, selectors, span⟩ => do
    let id ← Numbering.fresh
    let selectors ← numberSelectors selectors
    return ⟨id, base, selectors, span⟩

def numberSelectors : List Selector → Numbering (List Selector)
  | [] => return []
  | .field name :: rest => return .field name :: (← numberSelectors rest)
  | .index value :: rest => do
    let value ← value.number
    return .index value :: (← numberSelectors rest)

end

def FactKind.number : FactKind → Numbering FactKind
  | .relation left op right => do
    let left ← left.number
    return .relation left op (← right.number)
  | .expr value => return .expr (← value.number)

def CondFact.number (fact : CondFact) : Numbering CondFact := do
  let id ← Numbering.fresh
  return { fact with id, kind := ← fact.kind.number }

def CondTerm.number (term : CondTerm) : Numbering CondTerm := do
  let id ← Numbering.fresh
  return { term with id, facts := ← term.facts.mapM CondFact.number }

def Condition.number (cond : Condition) : Numbering Condition := do
  let id ← Numbering.fresh
  return { cond with id, terms := ← cond.terms.mapM CondTerm.number }

mutual

def Stmt.number : Stmt → Numbering Stmt
  | .assign target value span => do
    let target ← target.number
    return .assign target (← value.number) span
  | .call callee args span => do
    let callee ← callee.number
    return .call callee (← numberExprs args) span
  | .increment target span => return .increment (← target.number) span
  | .decrement target span => return .decrement (← target.number) span
  | .branch cond onTrue onFalse span => do
    let cond ← cond.number
    let onTrue ← onTrue.number
    return .branch cond onTrue (← numberOption onFalse) span
  | .whileLoop cond body span => do
    let cond ← cond.number
    return .whileLoop cond (← body.number) span
  | .forLoop init cond update body span => do
    let init ← numberOption init
    let cond ← cond.mapM Condition.number
    let update ← numberOption update
    return .forLoop init cond update (← body.number) span
  | .breakStmt span => return .breakStmt span
  | .returnStmt value span => return .returnStmt (← value.mapM Expr.number) span
  | .read target span => return .read (← target.number) span
  | .write value width span => return .write (← value.number) width span
  | .switch selector cases default span => do
    let selector ← selector.number
    let cases ← numberCases cases
    return .switch selector cases (← numberDefault default) span
  | .block block => return .block (← block.number)
  | .empty span => return .empty span

def numberOption : Option Stmt → Numbering (Option Stmt)
  | none => return none
  | some stmt => return some (← stmt.number)

def numberStmts : List Stmt → Numbering (List Stmt)
  | [] => return []
  | stmt :: rest => do
    let stmt ← stmt.number
    return stmt :: (← numberStmts rest)

def numberCases : List SwitchCase → Numbering (List SwitchCase)
  | [] => return []
  | ⟨label, body, span⟩ :: rest => do
    let body ← numberStmts body
    return ⟨label, body, span⟩ :: (← numberCases rest)

def numberDefault : Option DefaultCase → Numbering (Option DefaultCase)
  | none => return none
  | some ⟨body, span⟩ => return some ⟨← numberStmts body, span⟩

def Block.number : Block → Numbering Block
  | ⟨items, span⟩ => return ⟨← numberItems items, span⟩

def numberItems : List BlockItem → Numbering (List BlockItem)
  | [] => return []
  | .var decl :: rest => return .var decl :: (← numberItems rest)
  | .stmt stmt :: rest => do
    let stmt ← stmt.number
    return .stmt stmt :: (← numberItems rest)

end

def Item.number : Item → Numbering Item
  | .method decl => return .method { decl with body := ← decl.body.number }
  | item => return item

def Program.numbered (program : Program) : Program :=
  { program with items := (program.items.mapM Item.number |>.run 0).1 }

end StackCode
