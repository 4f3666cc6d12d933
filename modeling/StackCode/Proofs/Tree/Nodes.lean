import Mathlib
import StackCode.Program.Numbering

namespace StackCode

inductive Node where
  | expr (e : Expr)
  | term (term : Term)
  | factor (factor : Factor)
  | designator (target : Designator)
  | fact (fact : CondFact)
  | condTerm (term : CondTerm)
  | condition (cond : Condition)

def Node.id : Node → NodeId
  | .expr e => e.id
  | .term product => product.id
  | .factor value => value.id
  | .designator target => target.id
  | .fact test => test.id
  | .condTerm tests => tests.id
  | .condition cond => cond.id

/-- What the grammar asks of a node: conditions, their terms and array creations are not empty. -/
def Node.isFormed : Node → Bool
  | .condition cond => !cond.terms.isEmpty
  | .condTerm tests => !tests.facts.isEmpty
  | .factor ⟨_, .newArray _ sizes, _⟩ => !sizes.isEmpty
  | _ => true

mutual

def Expr.nodes : Expr → List Node
  | ⟨id, neg, cast, head, tail, span⟩ =>
    .expr ⟨id, neg, cast, head, tail, span⟩ :: (head.nodes ++ sumNodes tail)

def sumNodes : List (AddOp × Term) → List Node
  | [] => []
  | (_, term) :: rest => term.nodes ++ sumNodes rest

def Term.nodes : Term → List Node
  | ⟨id, head, tail, span⟩ => .term ⟨id, head, tail, span⟩ :: (head.nodes ++ productNodes tail)

def productNodes : List (MulOp × Factor) → List Node
  | [] => []
  | (_, factor) :: rest => factor.nodes ++ productNodes rest

def Factor.nodes : Factor → List Node
  | ⟨id, kind, span⟩ => .factor ⟨id, kind, span⟩ :: kind.nodes

def FactorKind.nodes : FactorKind → List Node
  | .literal _ => []
  | .designator target => target.nodes
  | .call callee args => callee.nodes ++ exprsNodes args
  | .newObject _ => []
  | .newArray _ sizes => exprsNodes sizes
  | .paren inner => inner.nodes
  | .list elems => exprsNodes elems

def exprsNodes : List Expr → List Node
  | [] => []
  | e :: rest => e.nodes ++ exprsNodes rest

def Designator.nodes : Designator → List Node
  | ⟨id, base, selectors, span⟩ =>
    .designator ⟨id, base, selectors, span⟩ :: selectorsNodes selectors

def selectorsNodes : List Selector → List Node
  | [] => []
  | .field _ :: rest => selectorsNodes rest
  | .index value :: rest => value.nodes ++ selectorsNodes rest

end

def FactKind.nodes : FactKind → List Node
  | .relation left _ right => left.nodes ++ right.nodes
  | .expr value => value.nodes

def CondFact.nodes (fact : CondFact) : List Node := .fact fact :: fact.kind.nodes

def CondTerm.nodes (term : CondTerm) : List Node :=
  .condTerm term :: term.facts.flatMap CondFact.nodes

def Condition.nodes (cond : Condition) : List Node :=
  .condition cond :: cond.terms.flatMap CondTerm.nodes

structure Occurrence where
  names : List String
  node : Node

def Occurrence.id (occurrence : Occurrence) : NodeId := occurrence.node.id

def inSight (names : List String) (nodes : List Node) : List Occurrence := nodes.map (⟨names, ·⟩)

def VarDecl.declared (decl : VarDecl) : List String := decl.names.map (·.name)

mutual

def Stmt.occurrences (names : List String) : Stmt → List Occurrence
  | .assign target value _ => inSight names (target.nodes ++ value.nodes)
  | .call callee args _ => inSight names (callee.nodes ++ exprsNodes args)
  | .increment target _ | .decrement target _ | .read target _ => inSight names target.nodes
  | .branch cond onTrue onFalse _ =>
    inSight names cond.nodes ++ (onTrue.occurrences names ++ optionOccurrences names onFalse)
  | .whileLoop cond body _ => inSight names cond.nodes ++ body.occurrences names
  | .forLoop init cond update body _ =>
    optionOccurrences names init ++ (inSight names ((cond.map Condition.nodes).getD []) ++
      (optionOccurrences names update ++ body.occurrences names))
  | .breakStmt _ => []
  | .returnStmt value _ => inSight names ((value.map Expr.nodes).getD [])
  | .write value _ _ => inSight names value.nodes
  | .switch selector cases default _ =>
    inSight names selector.nodes ++ (casesOccurrences names cases ++
      defaultOccurrences names default)
  | .block ⟨items, _⟩ => itemsOccurrences names items
  | .empty _ => []

def optionOccurrences (names : List String) : Option Stmt → List Occurrence
  | none => []
  | some stmt => stmt.occurrences names

def stmtsOccurrences (names : List String) : List Stmt → List Occurrence
  | [] => []
  | stmt :: rest => stmt.occurrences names ++ stmtsOccurrences names rest

def casesOccurrences (names : List String) : List SwitchCase → List Occurrence
  | [] => []
  | ⟨_, body, _⟩ :: rest => stmtsOccurrences names body ++ casesOccurrences names rest

def defaultOccurrences (names : List String) : Option DefaultCase → List Occurrence
  | none => []
  | some ⟨body, _⟩ => stmtsOccurrences names body

def itemsOccurrences (names : List String) : List BlockItem → List Occurrence
  | [] => []
  | .var decl :: rest => itemsOccurrences (decl.declared ++ names) rest
  | .stmt stmt :: rest => stmt.occurrences names ++ itemsOccurrences names rest

end

def MethodDecl.occurrences (decl : MethodDecl) : List Occurrence :=
  itemsOccurrences (decl.params.map (·.name.name)) decl.body.items

def Item.method? : Item → Option MethodDecl
  | .method decl => some decl
  | _ => none

theorem mem_filterMap_method? {decl : MethodDecl} {items : List Item} :
    decl ∈ items.filterMap Item.method? ↔ Item.method decl ∈ items := by
  rw [List.mem_filterMap]
  constructor
  · rintro ⟨item, member, picked⟩
    cases item <;> cases picked
    exact member
  · exact fun member => ⟨_, member, rfl⟩

def Item.occurrences : Item → List Occurrence
  | .method decl => decl.occurrences
  | _ => []

namespace Program

variable (program : Program)

def occurrences : List Occurrence := program.items.flatMap Item.occurrences

def nodes : List Node := program.occurrences.map (·.node)

def isFormed : Bool := program.nodes.all Node.isFormed

end Program

def nodeIds (nodes : List Node) : List NodeId := nodes.map Node.id

@[simp]
theorem nodeIds_append (xs ys : List Node) : nodeIds (xs ++ ys) = nodeIds xs ++ nodeIds ys :=
  List.map_append

@[simp]
theorem length_nodeIds (nodes : List Node) : (nodeIds nodes).length = nodes.length :=
  List.length_map _

@[simp]
theorem length_inSight (names : List String) (nodes : List Node) :
    (inSight names nodes).length = nodes.length :=
  List.length_map _

end StackCode
