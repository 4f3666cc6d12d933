import Mathlib
import StackCode.Emit.Program

namespace StackCode

open Code

/-- A word that is loaded, as the integer that it stands for, or a change of sign. -/
inductive Token where
  | word (value : Int)
  | minus
deriving DecidableEq, Repr

def Code.Instr.token? : Instr → Option Token
  | .ldcI4 n => some (.word n.toInt)
  | .neg => some .minus
  | _ => none

def tokens (code : Piece) : List Token := code.filterMap Instr.token?

/-- The words and signs of a tree. They depend on which names are locals, since those are not
replaced by constants. -/
abbrev Telling := (hides : String → Bool) → List Token

def Literal.tokens : Literal → List Token
  | .int n => [.word n.toInt]
  | .char c => [.word c.toNat]
  | .bool b => [.word (if b then 1 else 0)]
  | .float _ | .double _ | .str _ | .null => []

def baseTokens (constants : List (String × Literal)) (name : String) : Telling := fun hides =>
  if hides name then [] else ((constants.lookup name).map Literal.tokens).getD []

def gridTokens : (dimensions : Nat) → List Token
  | 0 | 1 => []
  | n + 2 => .word 0 :: gridTokens (n + 1) ++ [.word 1]

section Expressions

variable (constants : List (String × Literal))

mutual

def Expr.slots : Expr → Nat
  | ⟨_, _, _, head, tail, _⟩ => head.slots + sumSlots tail

def sumSlots : List (AddOp × Term) → Nat
  | [] => 0
  | (_, term) :: rest => term.slots + sumSlots rest

def Term.slots : Term → Nat
  | ⟨_, head, tail, _⟩ => head.slots + productSlots tail

def productSlots : List (MulOp × Factor) → Nat
  | [] => 0
  | (_, factor) :: rest => factor.slots + productSlots rest

def Factor.slots : Factor → Nat
  | ⟨_, kind, _⟩ => kind.slots

def FactorKind.slots : FactorKind → Nat
  | .literal _ => 0
  | .designator target => target.slots
  | .call _ args => exprsSlots args
  | .newObject _ => 0
  | .newArray _ [size] => size.slots
  | .newArray _ sizes => exprsSlots sizes + sizes.length + (sizes.length - 1)
  | .paren inner => inner.slots
  | .list elems => exprsSlots elems

def exprsSlots : List Expr → Nat
  | [] => 0
  | e :: rest => e.slots + exprsSlots rest

def Designator.slots : Designator → Nat
  | ⟨_, _, selectors, _⟩ => selectorsSlots selectors

def selectorsSlots : List Selector → Nat
  | [] => 0
  | .field _ :: rest => selectorsSlots rest
  | .index value :: rest => value.slots + selectorsSlots rest

end

mutual

/-- The words and signs in the code of an expression. The least integer is loaded with its sign. -/
def Expr.tokens : Expr → Telling
  | ⟨_, neg, cast, head, tail, _⟩, hides =>
    (if isLeastInt neg cast head then [.word (-0x80000000)]
      else head.tokens hides ++ if neg then [.minus] else []) ++ sumTokens tail hides

def sumTokens : List (AddOp × Term) → Telling
  | [], _ => []
  | (_, term) :: rest, hides => term.tokens hides ++ sumTokens rest hides

def Term.tokens : Term → Telling
  | ⟨_, head, tail, _⟩, hides => head.tokens hides ++ productTokens tail hides

def productTokens : List (MulOp × Factor) → Telling
  | [], _ => []
  | (_, factor) :: rest, hides => factor.tokens hides ++ productTokens rest hides

def Factor.tokens : Factor → Telling
  | ⟨_, kind, _⟩, hides => kind.tokens hides

def FactorKind.tokens : FactorKind → Telling
  | .literal value, _ => value.tokens
  | .designator target, hides => target.tokens hides
  | .call _ args, hides => exprsTokens args hides
  | .newObject _, _ => []
  | .newArray _ sizes, hides => exprsTokens sizes hides ++ gridTokens sizes.length
  | .paren inner, hides => inner.tokens hides
  | .list elems, hides => exprsTokens elems hides

def exprsTokens : List Expr → Telling
  | [], _ => []
  | e :: rest, hides => e.tokens hides ++ exprsTokens rest hides

def Designator.tokens : Designator → Telling
  | ⟨_, base, selectors, _⟩, hides =>
    baseTokens constants base.name hides ++ selectorsTokens selectors hides

def selectorsTokens : List Selector → Telling
  | [], _ => []
  | .field _ :: rest, hides => selectorsTokens rest hides
  | .index value :: rest, hides => value.tokens hides ++ selectorsTokens rest hides

end

def CondFact.slots (fact : CondFact) : Nat :=
  match fact.kind with
  | .relation left _ right => left.slots + right.slots
  | .expr value => value.slots

def Condition.slots (cond : Condition) : Nat :=
  (cond.terms.map fun term => (term.facts.map CondFact.slots).sum).sum

def RelOp.tokens : RelOp → List Token
  | .ne | .le | .ge => [.word 0]
  | .eq | .lt | .gt => []

def CondFact.tokens (fact : CondFact) : Telling := fun hides =>
  match fact.kind with
  | .relation left op right => left.tokens constants hides ++ right.tokens constants hides ++ op.tokens
  | .expr value => value.tokens constants hides

def CondTerm.tokens (term : CondTerm) : Telling := fun hides =>
  term.facts.flatMap (·.tokens constants hides)

def Condition.tokens (cond : Condition) : Telling := fun hides =>
  cond.terms.flatMap (·.tokens constants hides)

def Designator.stepSlots (target : Designator) : Nat :=
  match target.selectors.getLast? with
  | some (.index _) => target.slots + 2
  | _ => target.slots

/-- What is evaluated of a place before a value is stored into it. -/
def Designator.placeTokens (target : Designator) : Telling := fun hides =>
  if target.selectors.isEmpty then [] else target.tokens constants hides

end Expressions

section Statements

variable (constants : List (String × Literal))

mutual

def Stmt.slots : Stmt → Nat
  | .assign target value _ => target.slots + value.slots
  | .call _ args _ => exprsSlots args
  | .increment target _ | .decrement target _ => target.stepSlots
  | .branch cond onTrue onFalse _ => cond.slots + onTrue.slots + optionSlots onFalse
  | .whileLoop cond body _ => cond.slots + body.slots
  | .forLoop init cond update body _ =>
    optionSlots init + body.slots + optionSlots update + (cond.map Condition.slots).getD 0
  | .breakStmt _ => 0
  | .returnStmt value _ => (value.map Expr.slots).getD 0
  | .read target _ => target.slots
  | .write value _ _ => value.slots
  | .switch selector cases default _ =>
    selector.slots + 1 + casesSlots cases + defaultSlots default
  | .block ⟨items, _⟩ => itemsSlots items
  | .empty _ => 0

def optionSlots : Option Stmt → Nat
  | none => 0
  | some stmt => stmt.slots

def stmtsSlots : List Stmt → Nat
  | [] => 0
  | stmt :: rest => stmt.slots + stmtsSlots rest

def casesSlots : List SwitchCase → Nat
  | [] => 0
  | ⟨_, body, _⟩ :: rest => stmtsSlots body + casesSlots rest

def defaultSlots : Option DefaultCase → Nat
  | none => 0
  | some ⟨body, _⟩ => stmtsSlots body

def itemsSlots : List BlockItem → Nat
  | [] => 0
  | .var decl :: rest => decl.names.length + itemsSlots rest
  | .stmt stmt :: rest => stmt.slots + itemsSlots rest

end

mutual

/-- The words and signs in the code of a statement. The labels of a switch stand in front of its
bodies, and the condition of a `for` loop behind the update. -/
def Stmt.tokens : Stmt → Telling
  | .assign target value _, hides => target.placeTokens constants hides ++ value.tokens constants hides
  | .call _ args _, hides => exprsTokens constants args hides
  | .increment target _, hides | .decrement target _, hides =>
    target.tokens constants hides ++ [.word 1]
  | .branch cond onTrue onFalse _, hides =>
    cond.tokens constants hides ++ (onTrue.tokens hides ++ optionTokens onFalse hides)
  | .whileLoop cond body _, hides => cond.tokens constants hides ++ body.tokens hides
  | .forLoop init cond update body _, hides =>
    optionTokens init hides ++ (body.tokens hides ++ (optionTokens update hides ++
      (cond.map fun cond => cond.tokens constants hides).getD []))
  | .breakStmt _, _ => []
  | .returnStmt value _, hides => (value.map fun value => value.tokens constants hides).getD []
  | .read target _, hides => target.placeTokens constants hides
  | .write value width _, hides =>
    value.tokens constants hides ++ width.toList.map fun width => .word width.toInt
  | .switch selector cases default _, hides =>
    selector.tokens constants hides ++ (cases.flatMap (·.label.tokens) ++
      (casesTokens cases hides ++ defaultTokens default hides))
  | .block ⟨items, _⟩, hides => itemsTokens items hides
  | .empty _, _ => []

def optionTokens : Option Stmt → Telling
  | none, _ => []
  | some stmt, hides => stmt.tokens hides

def stmtsTokens : List Stmt → Telling
  | [], _ => []
  | stmt :: rest, hides => stmt.tokens hides ++ stmtsTokens rest hides

def casesTokens : List SwitchCase → Telling
  | [], _ => []
  | ⟨_, body, _⟩ :: rest, hides => stmtsTokens body hides ++ casesTokens rest hides

def defaultTokens : Option DefaultCase → Telling
  | none, _ => []
  | some ⟨body, _⟩, hides => stmtsTokens body hides

def itemsTokens : List BlockItem → Telling
  | [], _ => []
  | .var decl :: rest, hides =>
    itemsTokens rest fun name => hides name || decl.names.any (·.name == name)
  | .stmt stmt :: rest, hides => stmt.tokens hides ++ itemsTokens rest hides

end

end Statements

def MethodDecl.slots (decl : MethodDecl) : Nat := decl.params.length + itemsSlots decl.body.items

def MethodDecl.tokens (constants : List (String × Literal)) (decl : MethodDecl) : List Token :=
  itemsTokens constants decl.body.items fun name => decl.params.any (·.name.name == name)

end StackCode
