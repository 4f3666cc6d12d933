import StackCode.Proofs.Machine.Straight

namespace StackCode

open Code

def RelOp.holds (a b : Int) : RelOp → Bool
  | .eq => a = b
  | .ne => a ≠ b
  | .lt => a < b
  | .le => a ≤ b
  | .gt => b < a
  | .ge => b ≤ a

namespace Platform

variable (P : Platform)

def literal : Literal → Value P.Data
  | .int n => .word (Int32.ofInt n.toInt)
  | .float x => .data (P.single (x.round .single))
  | .double x => .data (P.double x)
  | .char c => .word (Int32.ofNat c.toNat)
  | .bool b => .truth b
  | .str s => .data (P.text s)
  | .null => .data P.null

def convert (source target : Tag) (value : Value P.Data) : Option (Value P.Data) :=
  if source = target then some value
  else if target = .int then P.asInt value
  else if target = .float then P.asSingle value
  else if target = .double then P.asDouble value
  else if target = .char then P.asChar value
  else none

def signed (neg : Bool) (value : Value P.Data) : Option (Value P.Data) :=
  if neg then P.negated value else some value

def combine (op : Arith) (left right common : Tag) (a b : Value P.Data) :
    Option (Value P.Data) := do
  P.compute op (← P.convert left common a) (← P.convert right common b)

def relateData (a b : P.Data) : RelOp → Option Bool
  | .eq => P.equal a b
  | .ne => (P.equal a b).map (!·)
  | .lt => P.less a b
  | .ge => (P.less a b).map (!·)
  | .gt => P.greater a b
  | .le => (P.greater a b).map (!·)

def relate (op : RelOp) : Value P.Data → Value P.Data → Option Bool
  | .word a, .word b => some (op.holds a.toInt b.toInt)
  | .data a, .data b => P.relateData a b op
  | _, _ => none

def relateTexts (op : RelOp) (a b : Value P.Data) : P.Action Bool :=
  match op with
  | .eq => P.sameTexts a b
  | .ne => return !(← P.sameTexts a b)
  | op => P.relate op a b

def related (texts : Bool) (op : RelOp) (a b : Value P.Data) : P.Action Bool :=
  if texts then P.relateTexts op a b else P.relate op a b

end Platform

section Evaluation

variable (P : Platform) (env : Env) (home : String → Option Home)

def Home.tag : Home → Tag
  | .slot _ tag | .static _ tag => tag
  | .constant value => value.tag

def Home.value : Home → P.Action (Value P.Data)
  | .slot i _ => return (← get).locals i
  | .static field _ => P.serving (.getStatic field) []
  | .constant value => return P.literal value

def Env.castType (type : Tag) : Option TypeName → Tag
  | none => type
  | some name => env.table.typeOf name.name

def Intrinsic.eval (type : Tag) : Intrinsic → List (Value P.Data) → P.Action (Value P.Data)
  | .len, [list] => do
    P.serving (.member .count (← (env.type type.element).toOption)) [list]
  | .ord, [value] => P.asInt value
  | .chr, [value] => P.asChar value
  | _, _ => failure

mutual

/-- A cast belongs to the first term, and the sign to what the cast gives. -/
def Expr.eval : Expr → P.Action (Value P.Data)
  | ⟨_, neg, cast, head, tail, _⟩ => do
    let type ← env.annotations.type? head.id
    if isLeastInt neg cast head then evalSum type (.word Int32.minValue) tail
    else
      let first ← head.eval
      let converted ← P.convert type (env.castType type cast) first
      evalSum (env.castType type cast) (← P.signed neg converted) tail

def evalSum : Tag → Value P.Data → List (AddOp × Term) → P.Action (Value P.Data)
  | _, value, [] => return value
  | type, value, (op, term) :: rest => do
    let other ← term.eval
    let right ← env.annotations.type? term.id
    let common ← Tag.promote type right
    evalSum common (← P.combine op.arith type right common value other) rest

def Term.eval : Term → P.Action (Value P.Data)
  | ⟨_, head, tail, _⟩ => do
    let first ← head.eval
    evalProduct (← env.annotations.type? head.id) first tail

def evalProduct : Tag → Value P.Data → List (MulOp × Factor) → P.Action (Value P.Data)
  | _, value, [] => return value
  | type, value, (op, factor) :: rest => do
    let other ← factor.eval
    let right ← env.annotations.type? factor.id
    let common ← Tag.promote type right
    evalProduct common (← P.combine op.arith type right common value other) rest

def Factor.eval : Factor → P.Action (Value P.Data)
  | ⟨id, kind, _⟩ => kind.eval id

def FactorKind.eval (id : NodeId) : FactorKind → P.Action (Value P.Data)
  | .literal value => return P.literal value
  | .designator target => target.eval
  | .call callee args => do
    let values ← evalExprs args
    match Intrinsic.ofName? callee.base.name with
    | some op =>
      op.eval P env ((args.head?.bind fun arg => env.annotations.type? arg.id).getD .unknown) values
    | none => P.serving (.call callee.base.name) values
  | .newObject className => P.serving (.newObject className.name) []
  | .newArray elem [size] => do
    let count ← size.eval
    P.serving (.newList (← (env.type (env.table.typeOf elem.name)).toOption) true) [count]
  | .newArray _ _ => failure
  | .paren inner => inner.eval
  | .list elems => do
    let elem ← (env.type (← env.annotations.type? id).element).toOption
    let list ← P.serving (.newList elem false) []
    evalElems elem list elems
    return list

def evalExprs : List Expr → P.Action (List (Value P.Data))
  | [] => return []
  | e :: rest => do
    let value ← e.eval
    return value :: (← evalExprs rest)

def evalElems (elem : Ty) (list : Value P.Data) : List Expr → P.Action Unit
  | [] => return ()
  | e :: rest => do
    let value ← e.eval
    let _ ← P.serving (.member .add elem) [list, value]
    evalElems elem list rest

def Designator.eval : Designator → P.Action (Value P.Data)
  | ⟨_, base, selectors, _⟩ => do
    let place ← home base.name
    evalSelectors place.tag (← place.value P) selectors

def evalSelectors : Tag → Value P.Data → List Selector → P.Action (Value P.Data)
  | _, value, [] => return value
  | tag, value, .field name :: rest => do
    let className ← env.table.registry.name? tag
    let member ← env.table.lookupField? tag name.name
    evalSelectors member.type (← P.serving (.getField className name.name) [value]) rest
  | tag, value, .index e :: rest => do
    let index ← e.eval
    let elem ← (env.type tag.element).toOption
    evalSelectors tag.element (← P.serving (.member .getItem elem) [value, index]) rest

end

def Env.bothTexts (left right : Expr) : Bool :=
  env.annotations.type? left.id == some .string && env.annotations.type? right.id == some .string

def CondFact.eval (fact : CondFact) : P.Action (Value P.Data) :=
  match fact.kind with
  | .expr value => value.eval P env home
  | .relation left op right => do
    let l ← left.eval P env home
    let r ← right.eval P env home
    return .truth (← P.related (env.bothTexts left right) op l r)

/-- All facts are evaluated, and joined bit by bit to the value of those before them. -/
def evalFacts (value : Value P.Data) : List CondFact → P.Action (Value P.Data)
  | [] => return value
  | fact :: rest => do
    let other ← fact.eval P env home
    evalFacts (← P.joined (· &&& ·) value other) rest

def CondTerm.eval (term : CondTerm) : P.Action (Value P.Data) :=
  match term.facts with
  | [] => failure
  | fact :: rest => do evalFacts P env home (← fact.eval P env home) rest

def evalTerms (value : Value P.Data) : List CondTerm → P.Action (Value P.Data)
  | [] => return value
  | term :: rest => do
    let other ← term.eval P env home
    evalTerms (← P.joined (· ||| ·) value other) rest

def Condition.eval (cond : Condition) : P.Action (Value P.Data) :=
  match cond.terms with
  | [] => failure
  | term :: rest => do evalTerms P env home (← term.eval P env home) rest

end Evaluation

end StackCode
