import StackCode.Check.Program

namespace StackCode

/-- A check that records types and ends where a rule is broken. -/
abbrev Strict := StateT Annotations Option

namespace Strict

def require (rule : Bool) : Strict Unit := fun annotations =>
  if rule then some ((), annotations) else none

def refuse {α : Type} : Strict α := fun _ => none

def record (id : NodeId) (type : Tag) : Strict Unit := fun annotations =>
  some ((), annotations.record id type)

end Strict

open Strict

def SymbolTable.strictType (table : SymbolTable) (type : TypeName) : Strict Tag := do
  let tag := table.typeOf type.name
  require (!tag.isUnknown)
  return tag

def SymbolTable.strictValueType (table : SymbolTable) (type : TypeName) : Strict Tag := do
  let tag ← table.strictType type
  require (tag != .void)
  return tag

def Literal.strict (literal : Literal) : Strict Tag := do
  match literal with
  | .int n => require (fitsInt32 n.toInt)
  | .char c => require (c.toNat ≤ 0xFFFF)
  | _ => pure ()
  return literal.tag

def strictArith (left right : Tag) : Strict Tag :=
  match Tag.promote left right with
  | some type => return type
  | none => refuse

def strictBase (table : SymbolTable) (base : Ident) : Strict Tag :=
  match table.lookup? base.name with
  | none => refuse
  | some symbol => do
    require symbol.isVariable
    return symbol.type

def strictField (table : SymbolTable) (container : Tag) (field : Ident) : Strict Tag :=
  match table.lookupField? container field.name with
  | some symbol => return symbol.type
  | none => refuse

def strictElement (container : Tag) : Strict Tag := do
  require container.isList
  return container.element

def strictCast (table : SymbolTable) (type : Tag) : Option TypeName → Strict Tag
  | none => return type
  | some target => do
    let tag ← table.strictType target
    require tag.isNumeric
    require type.isNumeric
    return tag

def strictSign (neg : Bool) (type : Tag) : Strict Tag := do
  require (!neg || type.isNumeric)
  return type

def Expr.strictAdopt (e : Expr) (expected : Tag) : Strict Tag := do
  record e.head.head.id expected
  record e.head.id expected
  record e.id expected
  return expected

def strictNew (table : SymbolTable) (className : Ident) : Strict Tag := do
  let tag := table.typeNamed className.name
  require (table.registry.isClass tag)
  return tag

def strictList : List Tag → Strict Tag
  | [] => refuse
  | first :: rest => do
    require (rest.all (· == first))
    return first.listOf

def Intrinsic.takes (table : SymbolTable) : Intrinsic → List Tag → Bool
  | .len, [list] => list.isList
  | .add, [list, value] => list.isList && table.registry.accepts list.element value
  | .del, [list, index] => list.isList && index == .int
  | .ord, [value] => value == .char
  | .chr, [value] => value == .int
  | _, _ => false

def SymbolTable.passes (table : SymbolTable) : (params arguments : List Tag) → Bool
  | [], [] => true
  | param :: params, argument :: arguments =>
    table.registry.accepts param argument && table.passes params arguments
  | _, _ => false

def Callee.strict (table : SymbolTable) (arguments : List Tag) : Callee → Strict Tag
  | .intrinsic op => do
    require (op.takes table arguments)
    return op.result
  | .method result params => do
    require (table.passes params arguments)
    return result
  | .undeclared | .notCallable => refuse

mutual

def Expr.strict (table : SymbolTable) : Expr → Strict Tag
  | ⟨id, neg, cast, head, tail, _⟩ => do
    let type ←
      if isLeastInt neg cast head then do
        record head.head.id .int
        record head.id .int
        pure Tag.int
      else head.strict table
    let type ← strictCast table type cast
    let type ← strictSign neg type
    let type ← strictSum table type tail
    record id type
    return type

def strictSum (table : SymbolTable) : Tag → List (AddOp × Term) → Strict Tag
  | type, [] => return type
  | type, (_, term) :: rest => do
    let right ← term.strict table
    let type ← strictArith type right
    strictSum table type rest

def Term.strict (table : SymbolTable) : Term → Strict Tag
  | ⟨id, head, tail, _⟩ => do
    let type ← head.strict table
    let type ← strictProduct table type tail
    record id type
    return type

def strictProduct (table : SymbolTable) : Tag → List (MulOp × Factor) → Strict Tag
  | type, [] => return type
  | type, (_, factor) :: rest => do
    let right ← factor.strict table
    let type ← strictArith type right
    strictProduct table type rest

def Factor.strict (table : SymbolTable) : Factor → Strict Tag
  | ⟨id, kind, _⟩ => do
    let type ← kind.strict table
    record id type
    return type

def FactorKind.strict (table : SymbolTable) : FactorKind → Strict Tag
  | .literal value => value.strict
  | .designator target => target.strict table
  | .call callee args => do
    let target := table.callee callee
    let arguments ← strictArguments table target.expectation args
    let result ← target.strict table arguments
    require (result != .void)
    return result
  | .newObject className => strictNew table className
  | .newArray elem sizes => do
    let type ← table.strictValueType elem
    strictSizes table sizes
    return sizes.foldl (fun type _ => type.listOf) type
  | .paren inner => inner.strict table
  | .list elems => do
    let types ← strictExprs table elems
    strictList types

def strictExprs (table : SymbolTable) : List Expr → Strict (List Tag)
  | [] => return []
  | e :: rest => do
    let type ← e.strict table
    return type :: (← strictExprs table rest)

def strictSizes (table : SymbolTable) : List Expr → Strict Unit
  | [] => return ()
  | size :: rest => do
    let type ← size.strict table
    require (type == .int)
    strictSizes table rest

def strictArguments (table : SymbolTable) : Expectation → List Expr → Strict (List Tag)
  | _, [] => return []
  | expectation, arg :: rest => do
    let type ←
      if expectation.head.isList && arg.isBareList then arg.strictAdopt expectation.head
      else arg.strict table
    return type :: (← strictArguments table (expectation.next type) rest)

def Designator.strict (table : SymbolTable) : Designator → Strict Tag
  | ⟨id, base, selectors, _⟩ => do
    let type ← strictBase table base
    let type ← strictSelectors table type selectors
    record id type
    return type

def strictSelectors (table : SymbolTable) : Tag → List Selector → Strict Tag
  | type, [] => return type
  | type, .field name :: rest => do
    let type ← strictField table type name
    strictSelectors table type rest
  | type, .index value :: rest => do
    let index ← value.strict table
    require (index == .int)
    let type ← strictElement type
    strictSelectors table type rest

end

def strictExpected (table : SymbolTable) (e : Expr) (expected : Tag) : Strict Tag :=
  if expected.isList && e.isBareList then e.strictAdopt expected else e.strict table

def Designator.strictCall (table : SymbolTable) (callee : Designator) (args : List Expr) :
    Strict Tag := do
  let target := table.callee callee
  let arguments ← strictArguments table target.expectation args
  target.strict table arguments

def Designator.strictWritten (table : SymbolTable) (target : Designator) : Strict Tag := do
  let type ← target.strict table
  require !(target.selectors.isEmpty && (table.lookup? target.base.name).any Symbol.isConstant)
  return type

def CondFact.strict (table : SymbolTable) (fact : CondFact) : Strict Tag := do
  let type ← match fact.kind with
    | .expr value => value.strict table
    | .relation left op right => do
      let l ← left.strict table
      let r ← right.strict table
      require (table.registry.compares l op r)
      pure Tag.bool
  record fact.id type
  return type

def strictFacts (table : SymbolTable) : List CondFact → Strict Unit
  | [] => return ()
  | fact :: rest => do
    let type ← fact.strict table
    require (type == .bool)
    strictFacts table rest

def strictCondTerms (table : SymbolTable) : List CondTerm → Strict Unit
  | [] => return ()
  | term :: rest => do
    strictFacts table term.facts
    record term.id .bool
    strictCondTerms table rest

def Condition.strict (table : SymbolTable) (cond : Condition) : Strict Unit := do
  strictCondTerms table cond.terms
  record cond.id .bool

structure StrictState where
  annotations : Annotations
  table : SymbolTable
  loopDepth : Nat
  switchDepth : Nat
  expectedResult : Tag

abbrev Strictly := StateT StrictState Option

namespace Strictly

def apply {α : Type} (f : SymbolTable → Strict α) : Strictly α := fun state => do
  let (value, annotations) ← f state.table state.annotations
  return (value, { state with annotations })

def require (rule : StrictState → Bool) : Strictly Unit := fun state =>
  if rule state then some ((), state) else none

def introduce (declaration : SymbolTable → Option SymbolTable) : Strictly Unit := fun state =>
  (declaration state.table).map fun table => ((), { state with table })

def openScope : Strictly Unit :=
  modify fun state => { state with table := state.table.openScope }

def closeScope : Strictly Unit :=
  modify fun state => { state with table := state.table.closeScope?.getD state.table }

def enterLoop : Strictly Unit :=
  modify fun state => { state with loopDepth := state.loopDepth + 1 }

def leaveLoop : Strictly Unit :=
  modify fun state => { state with loopDepth := state.loopDepth - 1 }

def enterSwitch : Strictly Unit :=
  modify fun state => { state with switchDepth := state.switchDepth + 1 }

def leaveSwitch : Strictly Unit :=
  modify fun state => { state with switchDepth := state.switchDepth - 1 }

end Strictly

open Strictly

def strictNames (type : Tag) (site : Site) (decl : Span) : List Ident → Strictly Unit
  | [] => return ()
  | name :: names => do
    introduce (·.declareVar? name type false site decl)
    strictNames type site decl names

def VarDecl.strict (decl : VarDecl) (site : Site) : Strictly Unit := do
  let type ← apply (·.strictValueType decl.type)
  strictNames type site decl.span decl.names

def strictAssign (target : Designator) (value : Expr) : Strictly Unit :=
  apply fun table => do
    let left ← target.strictWritten table
    let right ← strictExpected table value left
    Strict.require (table.registry.accepts left right)

def strictStep (target : Designator) : Strictly Unit :=
  apply fun table => do
    let type ← target.strictWritten table
    Strict.require (type == .int)

def strictRead (target : Designator) : Strictly Unit :=
  apply fun table => do
    let type ← target.strictWritten table
    Strict.require type.isReadable

def strictWrite (value : Expr) (width : Option Int64) : Strictly Unit :=
  apply fun table => do
    let type ← value.strict table
    Strict.require type.isWritable
    Strict.require (width.all (fitsInt32 ·.toInt))

def strictResult : Option Expr → Strictly Unit
  | none => require (·.expectedResult == .void)
  | some value => do
    let expected := (← get).expectedResult
    apply fun table => do
      let type ← strictExpected table value expected
      Strict.require (expected != .void && table.registry.accepts expected type)

def strictSelector (selector : Expr) : Strictly Tag :=
  apply fun table => do
    let type ← selector.strict table
    Strict.require type.isSelector
    return type

def strictLabel (selector : Tag) (seen : List Literal) (label : Literal) : Strictly Unit :=
  apply fun _ => do
    let type ← label.strict
    Strict.require (type == selector)
    Strict.require !(seen.any (·.sameValue label))

mutual

def Stmt.strict : Stmt → Strictly Unit
  | .assign target value _ => strictAssign target value
  | .call callee args _ => discard (apply fun table => callee.strictCall table args)
  | .increment target _ => strictStep target
  | .decrement target _ => strictStep target
  | .branch cond onTrue onFalse _ => do
    apply fun table => cond.strict table
    onTrue.strict
    strictOption onFalse
  | .whileLoop cond body _ => do
    apply fun table => cond.strict table
    enterLoop
    body.strict
    leaveLoop
  | .forLoop init cond update body _ => do
    strictOption init
    match cond with
    | some cond => apply fun table => cond.strict table
    | none => pure ()
    strictOption update
    enterLoop
    body.strict
    leaveLoop
  | .breakStmt _ => require fun state => state.loopDepth != 0 || state.switchDepth != 0
  | .returnStmt value _ => strictResult value
  | .read target _ => strictRead target
  | .write value width _ => strictWrite value width
  | .switch selector cases default _ => do
    let type ← strictSelector selector
    enterSwitch
    strictCases type [] cases
    strictDefault default
    leaveSwitch
  | .block ⟨items, _⟩ => do
    openScope
    strictItems items
    closeScope
  | .empty _ => return ()

def strictOption : Option Stmt → Strictly Unit
  | none => return ()
  | some stmt => stmt.strict

def strictStmts : List Stmt → Strictly Unit
  | [] => return ()
  | stmt :: rest => do
    stmt.strict
    strictStmts rest

def strictCases (selector : Tag) : (seen : List Literal) → List SwitchCase → Strictly Unit
  | _, [] => return ()
  | seen, ⟨label, body, _⟩ :: rest => do
    strictLabel selector seen label
    strictStmts body
    strictCases selector (label :: seen) rest

def strictDefault : Option DefaultCase → Strictly Unit
  | none => return ()
  | some ⟨body, _⟩ => strictStmts body

def strictItems : List BlockItem → Strictly Unit
  | [] => return ()
  | .var decl :: rest => do
    decl.strict .localVar
    strictItems rest
  | .stmt stmt :: rest => do
    stmt.strict
    strictItems rest

end

end StackCode
