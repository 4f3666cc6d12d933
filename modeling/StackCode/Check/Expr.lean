import StackCode.Check.Call

namespace StackCode

open Noting

def checkBase (table : SymbolTable) (base : Ident) : Noting Tag := do
  match table.lookup? base.name with
  | none =>
    report (.undeclared base.name) base.span
    return .unknown
  | some symbol =>
    if symbol.isVariable then asDeclared symbol.type
    else
      mismatch (.notVariable symbol.name) base.span
      return .unknown

def checkField (table : SymbolTable) (container : Tag) (field : Ident) : Noting Tag := do
  if container.isUnknown then return container
  match table.lookupField? container field.name with
  | some symbol => asDeclared symbol.type
  | none =>
    report (.unknownField field.name container) field.span
    return .unknown

def checkElement (container : Tag) (span : Span) : Noting Tag := do
  if container.isUnknown then return container
  if container.isList then return container.element
  mismatch (.indexed container) span
  return .unknown

def checkCast (table : SymbolTable) (start : Nat) (type : Tag) (span : Span) :
    Option TypeName → Noting Tag
  | none => return type
  | some target => do
    let tag ← table.namedType target
    if !tag.isUnknown && !tag.isNumeric then mismatch (.castTarget tag) target.span
    else if !type.isNumeric && !(← excused start [type]) then
      mismatch (.cast type tag) (span.orElse target.span)
    return tag

def checkSign (start : Nat) (neg : Bool) (type : Tag) (span : Span) : Noting Tag := do
  if neg && !type.isNumeric then
    if !(← excused start [type]) then mismatch (.negation type) span
    return .unknown
  return type

/-- Can an expression take the type that is expected of it? A bare `[]` takes any list type, and
nothing is asked of it where the expected type is unknown. -/
def Expr.adopts (e : Expr) (expected : Tag) : Bool :=
  (expected.isList || expected.isUnknown) && e.isBareList

def Expr.adopt (e : Expr) (expected : Tag) : Noting Tag := do
  record e.head.head.id expected
  record e.head.id expected
  record e.id expected
  return expected

def checkNew (table : SymbolTable) (className : Ident) : Noting Tag := do
  let tag := table.typeNamed className.name
  if table.registry.isClass tag then return tag
  report (.unknownType className.name) className.span
  return .unknown

def checkElements (start : Nat) (first : Tag) (span : Span) : List (Tag × Span) → Noting Tag
  | [] => return first.listOf
  | (type, place) :: rest => do
    if type != first && !(← excused start [first, type]) then
      mismatch (.listElements first type) (place.orElse span)
      return .unknown
    checkElements start first span rest

def checkValue (callee : Designator) (result : Tag) (span : Span) : Noting Tag := do
  if result == .void then
    mismatch (.noValue callee.base.name) (span.orElse callee.span)
    return .unknown
  return result

mutual

def Expr.check (table : SymbolTable) : Expr → Noting Tag
  | ⟨id, neg, cast, head, tail, span⟩ => do
    let start ← tally
    let type ←
      if isLeastInt neg cast head then do
        record head.head.id .int
        record head.id .int
        pure Tag.int
      else head.check table
    let type ← checkCast table start type span cast
    let type ← checkSign start neg type span
    let type ← checkSum table start span type tail
    record id type
    return type

def checkSum (table : SymbolTable) (start : Nat) (span : Span) :
    Tag → List (AddOp × Term) → Noting Tag
  | type, [] => return type
  | type, (op, term) :: rest => do
    let right ← term.check table
    let type ← checkArith start op.symbol type right (term.span.orElse span)
    checkSum table start span type rest

def Term.check (table : SymbolTable) : Term → Noting Tag
  | ⟨id, head, tail, span⟩ => do
    let start ← tally
    let type ← head.check table
    let type ← checkProduct table start span type tail
    record id type
    return type

def checkProduct (table : SymbolTable) (start : Nat) (span : Span) :
    Tag → List (MulOp × Factor) → Noting Tag
  | type, [] => return type
  | type, (op, factor) :: rest => do
    let right ← factor.check table
    let type ← checkArith start op.symbol type right (factor.span.orElse span)
    checkProduct table start span type rest

def Factor.check (table : SymbolTable) : Factor → Noting Tag
  | ⟨id, kind, span⟩ => do
    let type ← kind.check table span
    record id type
    return type

def FactorKind.check (table : SymbolTable) (span : Span) : FactorKind → Noting Tag
  | .literal value => value.check span
  | .designator target => target.check table
  | .call callee args => do
    let target := table.callee callee
    target.use
    let arguments ← checkArguments table target.expectation args
    let result ← target.check table callee.base.name (span.orElse callee.span) arguments
    checkValue callee result span
  | .newObject className => checkNew table className
  | .newArray elem sizes => do
    let type ← table.namedValueType elem
    checkSizes table sizes
    return sizes.foldl (fun type _ => type.listOf) type
  | .paren inner => inner.check table
  | .list elems => do
    let start ← tally
    let types ← checkExprs table elems
    match types with
    | [] =>
      mismatch .emptyList span
      return .unknown
    | (first, _) :: rest => checkElements start first span rest

def checkExprs (table : SymbolTable) : List Expr → Noting (List (Tag × Span))
  | [] => return []
  | e :: rest => do
    let type ← e.check table
    return (type, e.span) :: (← checkExprs table rest)

def checkSizes (table : SymbolTable) : List Expr → Noting Unit
  | [] => return ()
  | size :: rest => do
    let _ ← (size.check table).demand (· == .int) .arraySize size.span
    checkSizes table rest

def checkArguments (table : SymbolTable) : Expectation → List Expr → Noting (List Argument)
  | _, [] => return []
  | expectation, arg :: rest => do
    let start ← tally
    let type ←
      if arg.adopts expectation.head then arg.adopt expectation.head else arg.check table
    let silent ← excused start [type]
    return ⟨type, silent, arg.span⟩ :: (← checkArguments table (expectation.next type) rest)

def Designator.check (table : SymbolTable) : Designator → Noting Tag
  | ⟨id, base, selectors, span⟩ => do
    let type ← checkBase table base
    let type ← checkSelectors table span type selectors
    record id type
    return type

def checkSelectors (table : SymbolTable) (span : Span) : Tag → List Selector → Noting Tag
  | type, [] => return type
  | type, .field name :: rest => do
    let type ← checkField table type name
    checkSelectors table span type rest
  | type, .index value :: rest => do
    let _ ← (value.check table).demand (· == .int) .index value.span
    let type ← checkElement type (value.span.orElse span)
    checkSelectors table span type rest

end

def checkExpected (table : SymbolTable) (e : Expr) (expected : Tag) : Noting Tag :=
  if e.adopts expected then e.adopt expected else e.check table

def Designator.checkCall (table : SymbolTable) (callee : Designator) (args : List Expr)
    (span : Span) : Noting Tag := do
  let target := table.callee callee
  target.use
  let arguments ← checkArguments table target.expectation args
  target.check table callee.base.name (span.orElse callee.span) arguments

def Designator.checkWritten (table : SymbolTable) (target : Designator) : Noting Tag := do
  let type ← target.check table
  if target.selectors.isEmpty && ((table.lookup? target.base.name).any Symbol.isConstant) then
    report (.constantAssignment target.base.name) target.base.span
  return type

def CondFact.check (table : SymbolTable) (fact : CondFact) : Noting Tag := do
  let type ← match fact.kind with
    | .expr value => value.check table
    | .relation left op right => do
      let start ← tally
      let l ← left.check table
      let r ← right.check table
      if !(← excused start [l, r]) && !table.registry.compares l op r then
        mismatch (.comparison l op r) (fact.span.orElse left.span)
      pure Tag.bool
  record fact.id type
  return type

def checkFacts (table : SymbolTable) (span : Span) : List CondFact → Noting Unit
  | [] => return ()
  | fact :: rest => do
    let _ ← (fact.check table).demand (· == .bool) .condition (fact.span.orElse span)
    checkFacts table span rest

def checkCondTerms (table : SymbolTable) (span : Span) : List CondTerm → Noting Unit
  | [] => return ()
  | term :: rest => do
    checkFacts table span term.facts
    record term.id .bool
    checkCondTerms table span rest

def Condition.check (table : SymbolTable) (cond : Condition) : Noting Unit := do
  checkCondTerms table cond.span cond.terms
  record cond.id .bool

end StackCode
