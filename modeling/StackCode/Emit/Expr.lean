import StackCode.Emit.Frame

namespace StackCode

open Code Emit

abbrev Piece := List Instr

def literalInstr : Literal → Except Unsupported Instr
  | .int n => if fitsInt32 n.toInt then .ok (.ldcI4 (Int32.ofInt n.toInt)) else .error (.intRange n)
  | .float x => .ok (.ldcR4 (x.round .single))
  | .double x => .ok (.ldcR8 x)
  | .char c => .ok (.ldcI4 (Int32.ofNat c.toNat))
  | .bool b => .ok (.ldcI4 (if b then 1 else 0))
  | .str s => .ok (.ldstr s)
  | .null => .ok .ldnull

def conversion (source target : Tag) : Except Unsupported Piece :=
  if source = target then .ok []
  else if target = .int then .ok [.convI4]
  else if target = .float then .ok [.convR4]
  else if target = .double then .ok [.convR8]
  else if target = .char then .ok [.convU2]
  else .error (.noConversion source target)

def commonType (left right : Tag) : Except Unsupported Tag :=
  match Tag.promote left right with
  | some tag => .ok tag
  | none => .error (.arithmetic left right)

def AddOp.instr : AddOp → Instr
  | .add => .add
  | .sub => .sub

def MulOp.instr : MulOp → Instr
  | .mul => .mul
  | .div => .div
  | .rem => .rem

def emitBase (env : Env) (name : String) : Emit (Piece × Tag) := do
  match ← env.home (← get) name with
  | .slot slot tag => return ([.ldloc slot], tag)
  | .static field tag => return ([.ldsfld field], tag)
  | .constant value => return ([← literalInstr value], value.tag)

def emitField (env : Env) (container : Tag) (field : String) : Emit (Piece × Tag) := do
  let className ← env.classNamed container
  let tag ← env.memberType container field
  return ([.ldfld className field], tag)

/-- The code that builds a list of `counts[0]` elements, each a new list for the other counts. -/
def emitGrid (env : Env) (base : Tag) : (counts : List Nat) → Emit Piece
  | [] => throw .noSizes
  | [count] => return [.ldloc count, .newlist (← env.type base) true]
  | count :: inner => do
    let elem ← env.type (inner.foldl (fun tag _ => tag.listOf) base)
    let i ← temp env .int
    let body ← newLabel
    let check ← newLabel
    let row ← emitGrid env base inner
    return [.ldcI4 0, .stloc i, .newlist elem false, .br check, .mark body, .dup] ++ row ++
      [.callvirt .add elem, .ldloc i, .ldcI4 1, .add, .stloc i, .mark check, .ldloc i,
        .ldloc count, .clt, .brtrue body]

def Intrinsic.emit (env : Env) (op : Intrinsic) (list : Option NodeId) : Emit Piece := do
  let onList (method : ListMethod) : Emit Piece := do
    match list with
    | some id => return [.callvirt method (← env.type (← env.nodeType id).element)]
    | none => throw (.intrinsicArity op 0)
  match op with
  | .len => onList .count
  | .add => onList .add
  | .del => onList .removeAt
  | .ord => return [.convI4]
  | .chr => return [.convU2]

inductive Target where
  | intrinsic (op : Intrinsic)
  | method (name : String) (result : Tag)

def Target.result : Target → Tag
  | .intrinsic op => op.result
  | .method _ result => result

def Env.target (env : Env) (name : String) (argc : Nat) : Except Unsupported Target :=
  match Intrinsic.ofName? name with
  | some op => if argc = op.arity then .ok (.intrinsic op) else .error (.intrinsicArity op argc)
  | none =>
    match env.table.lookup? name with
    | some symbol =>
      match symbol.kind with
      | .method result _ => .ok (.method name result)
      | _ => .error (.unknownMethod name)
    | none => .error (.unknownMethod name)

def Target.emit (env : Env) (args : List Expr) : Target → Emit Piece
  | .intrinsic op => op.emit env (args.head?.map (·.id))
  | .method name _ => return [.call name args.length]

def Env.castCode (env : Env) (type : Tag) : Option TypeName → Except Unsupported (Piece × Tag)
  | none => .ok ([], type)
  | some name => do
    let target ← env.writtenType name
    return (← conversion type target, target)

mutual

def Expr.emit (env : Env) : Expr → Emit Piece
  | ⟨_, neg, cast, head, tail, _⟩ => do
    let type ← env.nodeType head.id
    if isLeastInt neg cast head then
      return [.ldcI4 Int32.minValue] ++ (← emitSum env type tail)
    let first ← head.emit env
    let (convert, type) ← env.castCode type cast
    let rest ← emitSum env type tail
    return first ++ convert ++ (if neg then [.neg] else []) ++ rest

def emitSum (env : Env) : Tag → List (AddOp × Term) → Emit Piece
  | _, [] => return []
  | type, (op, term) :: rest => do
    let right ← env.nodeType term.id
    let result ← commonType type right
    let before ← conversion type result
    let value ← term.emit env
    let after ← conversion right result
    return before ++ value ++ after ++ [op.instr] ++ (← emitSum env result rest)

def Term.emit (env : Env) : Term → Emit Piece
  | ⟨_, head, tail, _⟩ => do
    let first ← head.emit env
    let type ← env.nodeType head.id
    return first ++ (← emitProduct env type tail)

def emitProduct (env : Env) : Tag → List (MulOp × Factor) → Emit Piece
  | _, [] => return []
  | type, (op, factor) :: rest => do
    let right ← env.nodeType factor.id
    let result ← commonType type right
    let before ← conversion type result
    let value ← factor.emit env
    let after ← conversion right result
    return before ++ value ++ after ++ [op.instr] ++ (← emitProduct env result rest)

def Factor.emit (env : Env) : Factor → Emit Piece
  | ⟨id, kind, _⟩ => kind.emit env id

def FactorKind.emit (env : Env) (id : NodeId) : FactorKind → Emit Piece
  | .literal value => return [← literalInstr value]
  | .designator target => target.emitLoad env
  | .call callee args => do
    let target ← env.target callee.base.name args.length
    let values ← emitExprs env args
    return values ++ (← target.emit env args)
  | .newObject className => return [.newobj className.name]
  | .newArray elem [size] => do
    let base ← env.writtenType elem
    let count ← size.emit env
    return count ++ [.newlist (← env.type base) true]
  | .newArray elem sizes => do
    let base ← env.writtenType elem
    let (values, counts) ← emitSizes env sizes
    return values ++ (← emitGrid env base counts)
  | .paren inner => inner.emit env
  | .list elems => do
    let elem ← env.type (← env.nodeType id).element
    return [.newlist elem false] ++ (← emitElems env elem elems)

def emitExprs (env : Env) : List Expr → Emit Piece
  | [] => return []
  | e :: rest => do
    let value ← e.emit env
    return value ++ (← emitExprs env rest)

def emitSizes (env : Env) : List Expr → Emit (Piece × List Nat)
  | [] => return ([], [])
  | size :: rest => do
    let value ← size.emit env
    let slot ← temp env .int
    let (values, slots) ← emitSizes env rest
    return (value ++ [.stloc slot] ++ values, slot :: slots)

def emitElems (env : Env) (elem : Ty) : List Expr → Emit Piece
  | [] => return []
  | e :: rest => do
    let value ← e.emit env
    return [.dup] ++ value ++ [.callvirt .add elem] ++ (← emitElems env elem rest)

def Designator.emitLoad (env : Env) : Designator → Emit Piece
  | ⟨_, base, selectors, _⟩ => do
    let (value, tag) ← emitBase env base.name
    let (selected, _) ← emitSelectors env tag selectors
    return value ++ selected

def emitSelectors (env : Env) : Tag → List Selector → Emit (Piece × Tag)
  | tag, [] => return ([], tag)
  | tag, .field name :: rest => do
    let (value, tag) ← emitField env tag name.name
    let (values, tag) ← emitSelectors env tag rest
    return (value ++ values, tag)
  | tag, .index value :: rest => do
    let index ← value.emit env
    let elem ← env.type tag.element
    let (values, last) ← emitSelectors env tag.element rest
    return (index ++ [.callvirt .getItem elem] ++ values, last)

end

def Designator.emitCall (env : Env) (callee : Designator) (args : List Expr) :
    Emit (Piece × Tag) := do
  let target ← env.target callee.base.name args.length
  let values ← emitExprs env args
  return (values ++ (← target.emit env args), target.result)

/-- The code that compares the two values on the stack. The machine has three comparisons; the
others are their negations. -/
def compareCode (strings : Bool) : RelOp → Piece
  | .eq => if strings then [.callHost .stringEquals] else [.ceq]
  | .ne => (if strings then [.callHost .stringEquals] else [.ceq]) ++ [.ldcI4 0, .ceq]
  | .lt => [.clt]
  | .ge => [.clt, .ldcI4 0, .ceq]
  | .gt => [.cgt]
  | .le => [.cgt, .ldcI4 0, .ceq]

def Env.areStrings (env : Env) (left right : Expr) : Except Unsupported Bool := do
  let type ← env.nodeType left.id
  if type = .string then return (← env.nodeType right.id) == .string
  else return false

def CondFact.emit (env : Env) (fact : CondFact) : Emit Piece := do
  match fact.kind with
  | .expr value => value.emit env
  | .relation left op right =>
    let strings ← env.areStrings left right
    let l ← left.emit env
    let r ← right.emit env
    return l ++ r ++ compareCode strings op

def emitFacts (env : Env) : (join : Piece) → List CondFact → Emit Piece
  | _, [] => return []
  | join, fact :: rest => do
    let value ← fact.emit env
    return value ++ join ++ (← emitFacts env [.and] rest)

def emitCondTerms (env : Env) : (join : Piece) → List CondTerm → Emit Piece
  | _, [] => return []
  | join, term :: rest => do
    let value ← emitFacts env [] term.facts
    return value ++ join ++ (← emitCondTerms env [.or] rest)

/-- The code of a condition: all its facts are evaluated, and joined as bits. -/
def Condition.emit (env : Env) (cond : Condition) : Emit Piece := emitCondTerms env [] cond.terms

end StackCode
