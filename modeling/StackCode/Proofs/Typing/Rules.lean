import StackCode.Proofs.Typing.Tags

namespace StackCode

structure Meaning where
  type : Tag
  kind : SymbolKind
deriving DecidableEq

def Symbol.meaning (symbol : Symbol) : Meaning := ⟨symbol.type, symbol.kind⟩

structure Sight where
  registry : Registry
  meaning? : String → Option Meaning
  member? : Tag → String → Option Tag

def SymbolTable.sight (table : SymbolTable) : Sight where
  registry := table.registry
  meaning? name := (table.lookup? name).map Symbol.meaning
  member? tag name := (table.lookupField? tag name).map (·.type)

namespace Sight

variable (sight : Sight)

def classTag? (name : String) : Option Tag :=
  match sight.meaning? name with
  | some ⟨type, .classType⟩ => some type
  | _ => none

def typeNamed (name : String) : Tag := Tag.ofName sight.classTag? name

def typeOf (text : String) : Tag := Tag.ofBracketed sight.classTag? text

def varType? (name : String) : Option Tag :=
  match sight.meaning? name with
  | some ⟨type, .var _⟩ => some type
  | _ => none

def isConstant (name : String) : Bool := (sight.meaning? name).any (·.kind == .var true)

def callee (callee : Designator) : Callee :=
  if !callee.selectors.isEmpty then .notCallable
  else match Intrinsic.ofName? callee.base.name with
    | some op => .intrinsic op
    | none =>
      match sight.meaning? callee.base.name with
      | none => .undeclared
      | some ⟨_, .method result params⟩ => .method result params
      | some _ => .notCallable

def declare (name : String) (meaning : Meaning) : Sight :=
  { sight with meaning? := fun other => if other = name then some meaning else sight.meaning? other }

def Casts (type : Tag) : Option TypeName → Tag → Prop
  | none, result => result = type
  | some target, result =>
    sight.typeOf target.name = result ∧ result.isNumeric = true ∧ type.isNumeric = true

def FieldOf (container : Tag) (name : String) (type : Tag) : Prop :=
  (container = .unknown ∧ type = .unknown) ∨
    (container ≠ .unknown ∧ sight.member? container name = some type ∧ type ≠ .unknown)

end Sight

def Sight.declareAll (type : Tag) : Sight → List String → Sight
  | sight, [] => sight
  | sight, name :: names => (sight.declare name ⟨type, .var false⟩).declareAll type names

def ElementOf (container type : Tag) : Prop :=
  (container = .unknown ∧ type = .unknown) ∨
    (container.isList = true ∧ type = container.element)

def Literal.Fits : Literal → Prop
  | .int n => fitsInt32 n.toInt = true
  | .char c => c.toNat ≤ 0xFFFF
  | _ => True

def Intrinsic.Takes (registry : Registry) : Intrinsic → List Tag → Prop
  | .len, [list] => list.isList = true
  | .add, [list, value] => list.isList = true ∧ registry.accepts list.element value = true
  | .del, [list, index] => list.isList = true ∧ index = .int
  | .ord, [value] => value = .char
  | .chr, [value] => value = .int
  | _, _ => False

def Callee.Takes (registry : Registry) : Callee → List Tag → Tag → Prop
  | .intrinsic op, types, result => op.Takes registry types ∧ result = op.result
  | .method result params, types, type =>
    List.Forall₂ (fun param found => param = .unknown ∨ registry.accepts param found = true)
      params types ∧ result ≠ .unknown ∧ type = result
  | .undeclared, _, _ | .notCallable, _, _ => False

section Rules

variable (facts : NodeId → Tag → Prop) (sight : Sight)

def Expr.Adopted (e : Expr) (type : Tag) : Prop :=
  facts e.head.head.id type ∧ facts e.head.id type ∧ facts e.id type

mutual

def Expr.Typed : Expr → Tag → Prop
  | ⟨id, neg, cast, head, tail, _⟩, result => ∃ first type,
    ((isLeastInt neg cast head = true ∧ facts head.head.id .int ∧ facts head.id .int ∧ first = .int) ∨
      (isLeastInt neg cast head = false ∧ head.Typed first)) ∧
    sight.Casts first cast type ∧ (neg = true → type.isNumeric = true) ∧ SumTyped type tail result ∧
    facts id result

def SumTyped : Tag → List (AddOp × Term) → Tag → Prop
  | type, [], result => result = type
  | type, (_, term) :: rest, result => ∃ right next, term.Typed right ∧
    Tag.promote type right = some next ∧ SumTyped next rest result

def Term.Typed : Term → Tag → Prop
  | ⟨id, head, tail, _⟩, result => ∃ type, head.Typed type ∧ ProductTyped type tail result ∧
    facts id result

def ProductTyped : Tag → List (MulOp × Factor) → Tag → Prop
  | type, [], result => result = type
  | type, (_, factor) :: rest, result => ∃ right next, factor.Typed right ∧
    Tag.promote type right = some next ∧ ProductTyped next rest result

def Factor.Typed : Factor → Tag → Prop
  | ⟨id, kind, _⟩, result => kind.Typed result ∧ facts id result

def FactorKind.Typed : FactorKind → Tag → Prop
  | .literal value, result => value.Fits ∧ result = value.tag
  | .designator target, result => target.Typed result
  | .call callee args, result => (∃ types, ArgsTyped (sight.callee callee).expectation args types ∧
    (sight.callee callee).Takes sight.registry types result) ∧ result ≠ .void
  | .newObject className, result =>
    result = sight.typeNamed className.name ∧ sight.registry.isClass result = true
  | .newArray elem sizes, result => sight.typeOf elem.name ≠ .unknown ∧
    sight.typeOf elem.name ≠ .void ∧ ExprsTyped sizes (sizes.map fun _ => .int) ∧
    result = sizes.foldl (fun type _ => type.listOf) (sight.typeOf elem.name)
  | .paren inner, result => inner.Typed result
  | .list elems, result => elems ≠ [] ∧ ∃ elem, ExprsTyped elems (elems.map fun _ => elem) ∧
    result = elem.listOf

def ExprsTyped : List Expr → List Tag → Prop
  | [], types => types = []
  | e :: rest, types => ∃ type others, types = type :: others ∧ e.Typed type ∧ ExprsTyped rest others

def ArgsTyped : Expectation → List Expr → List Tag → Prop
  | _, [], types => types = []
  | expectation, arg :: rest, types => ∃ type others, types = type :: others ∧
    ((arg.adopts expectation.head = true ∧ arg.Adopted facts type ∧ type = expectation.head) ∨
      (arg.adopts expectation.head = false ∧ arg.Typed type)) ∧
    ArgsTyped (expectation.next type) rest others

def Designator.Typed : Designator → Tag → Prop
  | ⟨id, base, selectors, _⟩, result => ∃ type, sight.varType? base.name = some type ∧
    type ≠ .unknown ∧ SelectorsTyped type selectors result ∧ facts id result

def SelectorsTyped : Tag → List Selector → Tag → Prop
  | type, [], result => result = type
  | type, .field name :: rest, result => ∃ member, sight.FieldOf type name.name member ∧
    SelectorsTyped member rest result
  | type, .index value :: rest, result => ∃ elem, value.Typed .int ∧ ElementOf type elem ∧
    SelectorsTyped elem rest result

end

def Expr.Given (e : Expr) (expected type : Tag) : Prop :=
  (e.adopts expected = true ∧ e.Adopted facts type ∧ type = expected) ∨
    (e.adopts expected = false ∧ e.Typed facts sight type)

def Designator.CallTyped (callee : Designator) (args : List Expr) (result : Tag) : Prop :=
  ∃ types, ArgsTyped facts sight (sight.callee callee).expectation args types ∧
    (sight.callee callee).Takes sight.registry types result

def Designator.Writable (target : Designator) (type : Tag) : Prop :=
  target.Typed facts sight type ∧
    (target.selectors = [] → sight.isConstant target.base.name = false)

def FactKind.Typed : FactKind → Tag → Prop
  | .expr value, result => value.Typed facts sight result
  | .relation left op right, result => ∃ l r, left.Typed facts sight l ∧ right.Typed facts sight r ∧
    sight.registry.compares l op r = true ∧ result = .bool

def CondFact.Typed (fact : CondFact) : Prop :=
  fact.kind.Typed facts sight .bool ∧ facts fact.id .bool

def CondTerm.Typed (term : CondTerm) : Prop :=
  (∀ fact ∈ term.facts, fact.Typed facts sight) ∧ facts term.id .bool

def Condition.Typed (cond : Condition) : Prop :=
  (∀ term ∈ cond.terms, term.Typed facts sight) ∧ facts cond.id .bool

end Rules

def WidthFits : Option Int64 → Prop
  | none => True
  | some width => fitsInt32 width.toInt = true

def Literal.Labels (label : Literal) (selector : Tag) (seen : List Literal) : Prop :=
  label.Fits ∧ label.tag = selector ∧ ∀ other ∈ seen, other.sameValue label = false

def Fresh (taken : List String) : List String → Prop
  | [] => True
  | name :: names => name ∉ taken ∧ Fresh (name :: taken) names

section Rules

variable (facts : NodeId → Tag → Prop) (result : Tag)

mutual

def Stmt.Typed : (sight : Sight) → (leavable : Bool) → Stmt → Prop
  | sight, _, .assign target value _ => ∃ left right, target.Writable facts sight left ∧
    value.Given facts sight left right ∧
    (left = .unknown ∨ sight.registry.accepts left right = true)
  | sight, _, .call callee args _ => ∃ type, callee.CallTyped facts sight args type
  | sight, _, .increment target _ | sight, _, .decrement target _ => target.Writable facts sight .int
  | sight, leavable, .branch cond onTrue onFalse _ => cond.Typed facts sight ∧
    onTrue.Typed sight leavable ∧ OptionTyped sight leavable onFalse
  | sight, _, .whileLoop cond body _ => cond.Typed facts sight ∧ body.Typed sight true
  | sight, leavable, .forLoop init cond update body _ => OptionTyped sight leavable init ∧
    (∀ test, cond = some test → test.Typed facts sight) ∧ OptionTyped sight leavable update ∧
    body.Typed sight true
  | _, leavable, .breakStmt _ => leavable = true
  | _, _, .returnStmt none _ => result = .void
  | sight, _, .returnStmt (some value) _ => result ≠ .void ∧ ∃ type,
    value.Given facts sight result type ∧ sight.registry.accepts result type = true
  | sight, _, .read target _ => ∃ type, target.Writable facts sight type ∧ type.isReadable = true
  | sight, _, .write value width _ => ∃ type, value.Typed facts sight type ∧
    type.isWritable = true ∧ WidthFits width
  | sight, _, .switch selector cases default _ => ∃ type, selector.Typed facts sight type ∧
    type.isSelector = true ∧ CasesTyped sight type [] cases ∧ DefaultTyped sight default
  | sight, leavable, .block ⟨items, _⟩ => ItemsTyped sight leavable [] items
  | _, _, .empty _ => True

def OptionTyped : (sight : Sight) → (leavable : Bool) → Option Stmt → Prop
  | _, _, none => True
  | sight, leavable, some stmt => stmt.Typed sight leavable

def StmtsTyped : (sight : Sight) → List Stmt → Prop
  | _, [] => True
  | sight, stmt :: rest => stmt.Typed sight true ∧ StmtsTyped sight rest

def CasesTyped : (sight : Sight) → (selector : Tag) → (seen : List Literal) → List SwitchCase → Prop
  | _, _, _, [] => True
  | sight, selector, seen, ⟨label, body, _⟩ :: rest => label.Labels selector seen ∧
    StmtsTyped sight body ∧ CasesTyped sight selector (label :: seen) rest

def DefaultTyped : (sight : Sight) → Option DefaultCase → Prop
  | _, none => True
  | sight, some ⟨body, _⟩ => StmtsTyped sight body

def ItemsTyped : (sight : Sight) → (leavable : Bool) → (taken : List String) → List BlockItem → Prop
  | _, _, _, [] => True
  | sight, leavable, taken, .var ⟨type, names, _⟩ :: rest => sight.typeOf type.name ≠ .unknown ∧
    sight.typeOf type.name ≠ .void ∧ Fresh taken (names.map (·.name)) ∧
    ItemsTyped (sight.declareAll (sight.typeOf type.name) (names.map (·.name))) leavable
      ((names.map (·.name)).reverse ++ taken) rest
  | sight, leavable, taken, .stmt stmt :: rest => stmt.Typed sight leavable ∧
    ItemsTyped sight leavable taken rest

end

end Rules

end StackCode
