import StackCode.Proofs.Tree.Nodes

namespace StackCode

mutual

def Expr.annotated : Expr → List NodeId
  | ⟨id, _, _, head, tail, _⟩ => head.annotated ++ (sumAnnotated tail ++ [id])

def sumAnnotated : List (AddOp × Term) → List NodeId
  | [] => []
  | (_, term) :: rest => term.annotated ++ sumAnnotated rest

def Term.annotated : Term → List NodeId
  | ⟨id, head, tail, _⟩ => head.annotated ++ (productAnnotated tail ++ [id])

def productAnnotated : List (MulOp × Factor) → List NodeId
  | [] => []
  | (_, factor) :: rest => factor.annotated ++ productAnnotated rest

def Factor.annotated : Factor → List NodeId
  | ⟨id, kind, _⟩ => kind.annotated ++ [id]

def FactorKind.annotated : FactorKind → List NodeId
  | .literal _ => []
  | .designator target => target.annotated
  | .call _ args => exprsAnnotated args
  | .newObject _ => []
  | .newArray _ sizes => exprsAnnotated sizes
  | .paren inner => inner.annotated
  | .list elems => exprsAnnotated elems

def exprsAnnotated : List Expr → List NodeId
  | [] => []
  | e :: rest => e.annotated ++ exprsAnnotated rest

def Designator.annotated : Designator → List NodeId
  | ⟨id, _, selectors, _⟩ => selectorsAnnotated selectors ++ [id]

def selectorsAnnotated : List Selector → List NodeId
  | [] => []
  | .field _ :: rest => selectorsAnnotated rest
  | .index value :: rest => value.annotated ++ selectorsAnnotated rest

end

def FactKind.annotated : FactKind → List NodeId
  | .relation left _ right => left.annotated ++ right.annotated
  | .expr value => value.annotated

def CondFact.annotated (fact : CondFact) : List NodeId := fact.kind.annotated ++ [fact.id]

def CondTerm.annotated (term : CondTerm) : List NodeId :=
  term.facts.flatMap CondFact.annotated ++ [term.id]

def Condition.annotated (cond : Condition) : List NodeId :=
  cond.terms.flatMap CondTerm.annotated ++ [cond.id]

mutual

def Stmt.annotated : Stmt → List NodeId
  | .assign target value _ => target.annotated ++ value.annotated
  | .call _ args _ => exprsAnnotated args
  | .increment target _ | .decrement target _ | .read target _ => target.annotated
  | .branch cond onTrue onFalse _ =>
    cond.annotated ++ (onTrue.annotated ++ optionAnnotated onFalse)
  | .whileLoop cond body _ => cond.annotated ++ body.annotated
  | .forLoop init cond update body _ =>
    optionAnnotated init ++ ((cond.map Condition.annotated).getD [] ++
      (optionAnnotated update ++ body.annotated))
  | .breakStmt _ => []
  | .returnStmt value _ => (value.map Expr.annotated).getD []
  | .write value _ _ => value.annotated
  | .switch selector cases default _ =>
    selector.annotated ++ (casesAnnotated cases ++ defaultAnnotated default)
  | .block ⟨items, _⟩ => itemsAnnotated items
  | .empty _ => []

def optionAnnotated : Option Stmt → List NodeId
  | none => []
  | some stmt => stmt.annotated

def stmtsAnnotated : List Stmt → List NodeId
  | [] => []
  | stmt :: rest => stmt.annotated ++ stmtsAnnotated rest

def casesAnnotated : List SwitchCase → List NodeId
  | [] => []
  | ⟨_, body, _⟩ :: rest => stmtsAnnotated body ++ casesAnnotated rest

def defaultAnnotated : Option DefaultCase → List NodeId
  | none => []
  | some ⟨body, _⟩ => stmtsAnnotated body

def itemsAnnotated : List BlockItem → List NodeId
  | [] => []
  | .var _ :: rest => itemsAnnotated rest
  | .stmt stmt :: rest => stmt.annotated ++ itemsAnnotated rest

end

def Item.annotated : Item → List NodeId
  | .method decl => itemsAnnotated decl.body.items
  | _ => []

def Program.annotated (program : Program) : List NodeId := program.items.flatMap Item.annotated

mutual

/-- The names that the calls in an expression call, with all nodes in them. -/
def Expr.callees : Expr → List Node
  | ⟨_, _, _, head, tail, _⟩ => head.callees ++ sumCallees tail

def sumCallees : List (AddOp × Term) → List Node
  | [] => []
  | (_, term) :: rest => term.callees ++ sumCallees rest

def Term.callees : Term → List Node
  | ⟨_, head, tail, _⟩ => head.callees ++ productCallees tail

def productCallees : List (MulOp × Factor) → List Node
  | [] => []
  | (_, factor) :: rest => factor.callees ++ productCallees rest

def Factor.callees : Factor → List Node
  | ⟨_, kind, _⟩ => kind.callees

def FactorKind.callees : FactorKind → List Node
  | .literal _ => []
  | .designator target => target.callees
  | .call callee args => callee.nodes ++ exprsCallees args
  | .newObject _ => []
  | .newArray _ sizes => exprsCallees sizes
  | .paren inner => inner.callees
  | .list elems => exprsCallees elems

def exprsCallees : List Expr → List Node
  | [] => []
  | e :: rest => e.callees ++ exprsCallees rest

def Designator.callees : Designator → List Node
  | ⟨_, _, selectors, _⟩ => selectorsCallees selectors

def selectorsCallees : List Selector → List Node
  | [] => []
  | .field _ :: rest => selectorsCallees rest
  | .index value :: rest => value.callees ++ selectorsCallees rest

end

def FactKind.callees : FactKind → List Node
  | .relation left _ right => left.callees ++ right.callees
  | .expr value => value.callees

def CondFact.callees (fact : CondFact) : List Node := fact.kind.callees

def CondTerm.callees (term : CondTerm) : List Node := term.facts.flatMap CondFact.callees

def Condition.callees (cond : Condition) : List Node := cond.terms.flatMap CondTerm.callees

mutual

def Stmt.callees : Stmt → List Node
  | .assign target value _ => target.callees ++ value.callees
  | .call callee args _ => callee.nodes ++ exprsCallees args
  | .increment target _ | .decrement target _ | .read target _ => target.callees
  | .branch cond onTrue onFalse _ => cond.callees ++ (onTrue.callees ++ optionCallees onFalse)
  | .whileLoop cond body _ => cond.callees ++ body.callees
  | .forLoop init cond update body _ =>
    optionCallees init ++ ((cond.map Condition.callees).getD [] ++
      (optionCallees update ++ body.callees))
  | .breakStmt _ => []
  | .returnStmt value _ => (value.map Expr.callees).getD []
  | .write value _ _ => value.callees
  | .switch selector cases default _ =>
    selector.callees ++ (casesCallees cases ++ defaultCallees default)
  | .block ⟨items, _⟩ => itemsCallees items
  | .empty _ => []

def optionCallees : Option Stmt → List Node
  | none => []
  | some stmt => stmt.callees

def stmtsCallees : List Stmt → List Node
  | [] => []
  | stmt :: rest => stmt.callees ++ stmtsCallees rest

def casesCallees : List SwitchCase → List Node
  | [] => []
  | ⟨_, body, _⟩ :: rest => stmtsCallees body ++ casesCallees rest

def defaultCallees : Option DefaultCase → List Node
  | none => []
  | some ⟨body, _⟩ => stmtsCallees body

def itemsCallees : List BlockItem → List Node
  | [] => []
  | .var _ :: rest => itemsCallees rest
  | .stmt stmt :: rest => stmt.callees ++ itemsCallees rest

end

def Item.callees : Item → List Node
  | .method decl => itemsCallees decl.body.items
  | _ => []

def Program.callees (program : Program) : List Node := program.items.flatMap Item.callees

/-- Of the nodes of a tree, some are given a type and the others are in callees. -/
def Divides {β : Type} (id : β → NodeId) (given : List NodeId) (callees : List Node) (nodes : List β) :
    Prop :=
  (given ++ nodeIds callees).Perm (nodes.map id)

namespace Divides

variable {α β : Type} {id : β → NodeId} {a b : List NodeId} {c d : List Node} {xs ys : List β}

theorem nil : Divides id [] [] [] := .refl _

theorem callee (nodes : List Node) : Divides Node.id [] nodes nodes := .refl _

theorem append (first : Divides id a c xs) (second : Divides id b d ys) :
    Divides id (a ++ b) (c ++ d) (xs ++ ys) := by
  rw [Divides, List.perm_iff_count] at first second ⊢
  intro n
  have one := first n
  have two := second n
  simp only [nodeIds_append, List.map_append, List.count_append] at one two ⊢
  omega

theorem own (parts : Divides id a c xs) (x : β) : Divides id (a ++ [id x]) c (x :: xs) := by
  rw [Divides, List.append_assoc]
  exact List.perm_middle.trans (parts.cons _)

theorem owns (parts : Divides id (a ++ b) c xs) (x : β) : Divides id (a ++ (b ++ [id x])) c (x :: xs) := by
  rw [← List.append_assoc]
  exact parts.own x

theorem inSight {nodes : List Node} (divides : Divides Node.id a c nodes) (names : List String) :
    Divides Occurrence.id a c (inSight names nodes) := by
  rw [Divides, StackCode.inSight, List.map_map]
  exact divides

variable {given : α → List NodeId} {callees : α → List Node} {nodes : α → List β}
  (each : ∀ x, Divides id (given x) (callees x) (nodes x))

include each

theorem flatMap (list : List α) :
    Divides id (list.flatMap given) (list.flatMap callees) (list.flatMap nodes) := by
  induction list with
  | nil => exact nil
  | cons x list ih => exact (each x).append ih

theorem option (content : Option α) : Divides id ((content.map given).getD [])
    ((content.map callees).getD []) ((content.map nodes).getD []) := by
  cases content with
  | none => exact nil
  | some x => exact each x

end Divides

mutual

theorem Expr.annotated_divides : ∀ e : Expr, Divides Node.id e.annotated e.callees e.nodes
  | ⟨id, neg, cast, head, tail, span⟩ =>
    (head.annotated_divides.append (sumAnnotated_divides tail)).owns
      (.expr ⟨id, neg, cast, head, tail, span⟩)

theorem sumAnnotated_divides : ∀ tail : List (AddOp × Term),
    Divides Node.id (sumAnnotated tail) (sumCallees tail) (sumNodes tail)
  | [] => .nil
  | (_, term) :: rest => term.annotated_divides.append (sumAnnotated_divides rest)

theorem Term.annotated_divides : ∀ term : Term,
    Divides Node.id term.annotated term.callees term.nodes
  | ⟨id, head, tail, span⟩ =>
    (head.annotated_divides.append (productAnnotated_divides tail)).owns (.term ⟨id, head, tail, span⟩)

theorem productAnnotated_divides : ∀ tail : List (MulOp × Factor),
    Divides Node.id (productAnnotated tail) (productCallees tail) (productNodes tail)
  | [] => .nil
  | (_, factor) :: rest => factor.annotated_divides.append (productAnnotated_divides rest)

theorem Factor.annotated_divides : ∀ factor : Factor,
    Divides Node.id factor.annotated factor.callees factor.nodes
  | ⟨id, kind, span⟩ => kind.annotated_divides.own (.factor ⟨id, kind, span⟩)

theorem FactorKind.annotated_divides : ∀ kind : FactorKind,
    Divides Node.id kind.annotated kind.callees kind.nodes
  | .literal _ => .nil
  | .designator target => target.annotated_divides
  | .call callee args => (Divides.callee callee.nodes).append (exprsAnnotated_divides args)
  | .newObject _ => .nil
  | .newArray _ sizes => exprsAnnotated_divides sizes
  | .paren inner => inner.annotated_divides
  | .list elems => exprsAnnotated_divides elems

theorem exprsAnnotated_divides : ∀ exprs : List Expr,
    Divides Node.id (exprsAnnotated exprs) (exprsCallees exprs) (exprsNodes exprs)
  | [] => .nil
  | e :: rest => e.annotated_divides.append (exprsAnnotated_divides rest)

theorem Designator.annotated_divides : ∀ target : Designator,
    Divides Node.id target.annotated target.callees target.nodes
  | ⟨id, base, selectors, span⟩ =>
    (selectorsAnnotated_divides selectors).own (.designator ⟨id, base, selectors, span⟩)

theorem selectorsAnnotated_divides : ∀ selectors : List Selector,
    Divides Node.id (selectorsAnnotated selectors) (selectorsCallees selectors) (selectorsNodes selectors)
  | [] => .nil
  | .field _ :: rest => selectorsAnnotated_divides rest
  | .index value :: rest => value.annotated_divides.append (selectorsAnnotated_divides rest)

end

theorem FactKind.annotated_divides : ∀ kind : FactKind,
    Divides Node.id kind.annotated kind.callees kind.nodes
  | .expr value => value.annotated_divides
  | .relation left _ right => left.annotated_divides.append right.annotated_divides

theorem CondFact.annotated_divides (fact : CondFact) :
    Divides Node.id fact.annotated fact.callees fact.nodes :=
  fact.kind.annotated_divides.own (.fact fact)

theorem CondTerm.annotated_divides (term : CondTerm) :
    Divides Node.id term.annotated term.callees term.nodes :=
  (Divides.flatMap CondFact.annotated_divides term.facts).own (.condTerm term)

theorem Condition.annotated_divides (cond : Condition) :
    Divides Node.id cond.annotated cond.callees cond.nodes :=
  (Divides.flatMap CondTerm.annotated_divides cond.terms).own (.condition cond)

mutual

theorem Stmt.annotated_divides (names : List String) : ∀ stmt : Stmt,
    Divides Occurrence.id stmt.annotated stmt.callees (stmt.occurrences names)
  | .assign target value _ => (target.annotated_divides.append value.annotated_divides).inSight names
  | .call callee args _ =>
    ((Divides.callee callee.nodes).append (exprsAnnotated_divides args)).inSight names
  | .increment target _ | .decrement target _ | .read target _ => target.annotated_divides.inSight names
  | .branch cond onTrue onFalse _ => (cond.annotated_divides.inSight names).append
      ((onTrue.annotated_divides names).append (optionAnnotated_divides names onFalse))
  | .whileLoop cond body _ =>
    (cond.annotated_divides.inSight names).append (body.annotated_divides names)
  | .forLoop init cond update body _ => (optionAnnotated_divides names init).append
      (((Divides.option Condition.annotated_divides cond).inSight names).append
        ((optionAnnotated_divides names update).append (body.annotated_divides names)))
  | .breakStmt _ => .nil
  | .returnStmt value _ => (Divides.option Expr.annotated_divides value).inSight names
  | .write value _ _ => value.annotated_divides.inSight names
  | .switch selector cases default _ => (selector.annotated_divides.inSight names).append
      ((casesAnnotated_divides names cases).append (defaultAnnotated_divides names default))
  | .block ⟨items, _⟩ => itemsAnnotated_divides names items
  | .empty _ => .nil

theorem optionAnnotated_divides (names : List String) : ∀ stmt : Option Stmt,
    Divides Occurrence.id (optionAnnotated stmt) (optionCallees stmt) (optionOccurrences names stmt)
  | none => .nil
  | some stmt => stmt.annotated_divides names

theorem stmtsAnnotated_divides (names : List String) : ∀ stmts : List Stmt,
    Divides Occurrence.id (stmtsAnnotated stmts) (stmtsCallees stmts) (stmtsOccurrences names stmts)
  | [] => .nil
  | stmt :: rest => (stmt.annotated_divides names).append (stmtsAnnotated_divides names rest)

theorem casesAnnotated_divides (names : List String) : ∀ cases : List SwitchCase,
    Divides Occurrence.id (casesAnnotated cases) (casesCallees cases) (casesOccurrences names cases)
  | [] => .nil
  | ⟨_, body, _⟩ :: rest =>
    (stmtsAnnotated_divides names body).append (casesAnnotated_divides names rest)

theorem defaultAnnotated_divides (names : List String) : ∀ default : Option DefaultCase,
    Divides Occurrence.id (defaultAnnotated default) (defaultCallees default)
      (defaultOccurrences names default)
  | none => .nil
  | some ⟨body, _⟩ => stmtsAnnotated_divides names body

theorem itemsAnnotated_divides (names : List String) : ∀ items : List BlockItem,
    Divides Occurrence.id (itemsAnnotated items) (itemsCallees items) (itemsOccurrences names items)
  | [] => .nil
  | .var decl :: rest => itemsAnnotated_divides (decl.declared ++ names) rest
  | .stmt stmt :: rest => (stmt.annotated_divides names).append (itemsAnnotated_divides names rest)

end

theorem Item.annotated_divides : ∀ item : Item,
    Divides Occurrence.id item.annotated item.callees item.occurrences
  | .method decl => itemsAnnotated_divides _ decl.body.items
  | .const _ | .vars _ | .classDecl _ => .nil

theorem Program.perm_annotated (program : Program) :
    (program.annotated ++ nodeIds program.callees).Perm (nodeIds program.nodes) := by
  rw [nodeIds, nodeIds, nodes, List.map_map]
  exact Divides.flatMap Item.annotated_divides program.items

theorem Program.annotated_nodup {program : Program} (distinct : (nodeIds program.nodes).Nodup) :
    program.annotated.Nodup :=
  ((program.perm_annotated.nodup_iff.mpr distinct).sublist (List.sublist_append_left _ _))

end StackCode
