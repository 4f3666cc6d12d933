import StackCode.Proofs.Tree.Nodes

namespace StackCode

variable (place : Span → Span)

def Ident.moved (name : Ident) : Ident := ⟨name.name, place name.span⟩

def TypeName.moved (type : TypeName) : TypeName := ⟨type.name, place type.span⟩

mutual

def Expr.moved : Expr → Expr
  | ⟨id, neg, cast, head, tail, span⟩ =>
    ⟨id, neg, cast.map (·.moved place), head.moved, movedTerms tail, place span⟩

def movedTerms : List (AddOp × Term) → List (AddOp × Term)
  | [] => []
  | (op, term) :: rest => (op, term.moved) :: movedTerms rest

def Term.moved : Term → Term
  | ⟨id, head, tail, span⟩ => ⟨id, head.moved, movedFactors tail, place span⟩

def movedFactors : List (MulOp × Factor) → List (MulOp × Factor)
  | [] => []
  | (op, factor) :: rest => (op, factor.moved) :: movedFactors rest

def Factor.moved : Factor → Factor
  | ⟨id, kind, span⟩ => ⟨id, kind.moved, place span⟩

def FactorKind.moved : FactorKind → FactorKind
  | .literal value => .literal value
  | .designator target => .designator target.moved
  | .call callee args => .call callee.moved (movedExprs args)
  | .newObject className => .newObject (className.moved place)
  | .newArray elem sizes => .newArray (elem.moved place) (movedExprs sizes)
  | .paren inner => .paren inner.moved
  | .list elems => .list (movedExprs elems)

def movedExprs : List Expr → List Expr
  | [] => []
  | e :: rest => e.moved :: movedExprs rest

def Designator.moved : Designator → Designator
  | ⟨id, base, selectors, span⟩ => ⟨id, base.moved place, movedSelectors selectors, place span⟩

def movedSelectors : List Selector → List Selector
  | [] => []
  | .field name :: rest => .field (name.moved place) :: movedSelectors rest
  | .index value :: rest => .index value.moved :: movedSelectors rest

end

def Selector.moved : Selector → Selector
  | .field name => .field (name.moved place)
  | .index value => .index (value.moved place)

def FactKind.moved : FactKind → FactKind
  | .relation left op right => .relation (left.moved place) op (right.moved place)
  | .expr value => .expr (value.moved place)

def CondFact.moved (fact : CondFact) : CondFact := ⟨fact.id, fact.kind.moved place, place fact.span⟩

def CondTerm.moved (term : CondTerm) : CondTerm :=
  ⟨term.id, term.facts.map (·.moved place), place term.span⟩

def Condition.moved (cond : Condition) : Condition :=
  ⟨cond.id, cond.terms.map (·.moved place), place cond.span⟩

def VarDecl.moved (decl : VarDecl) : VarDecl :=
  ⟨decl.type.moved place, decl.names.map (·.moved place), place decl.span⟩

mutual

def Stmt.moved : Stmt → Stmt
  | .assign target value span => .assign (target.moved place) (value.moved place) (place span)
  | .call callee args span => .call (callee.moved place) (movedExprs place args) (place span)
  | .increment target span => .increment (target.moved place) (place span)
  | .decrement target span => .decrement (target.moved place) (place span)
  | .branch cond onTrue onFalse span =>
    .branch (cond.moved place) onTrue.moved (movedOption onFalse) (place span)
  | .whileLoop cond body span => .whileLoop (cond.moved place) body.moved (place span)
  | .forLoop init cond update body span =>
    .forLoop (movedOption init) (cond.map (·.moved place)) (movedOption update) body.moved (place span)
  | .breakStmt span => .breakStmt (place span)
  | .returnStmt value span => .returnStmt (value.map (·.moved place)) (place span)
  | .read target span => .read (target.moved place) (place span)
  | .write value width span => .write (value.moved place) width (place span)
  | .switch selector cases default span =>
    .switch (selector.moved place) (movedCases cases) (movedDefault default) (place span)
  | .block block => .block block.moved
  | .empty span => .empty (place span)

def movedOption : Option Stmt → Option Stmt
  | none => none
  | some stmt => some stmt.moved

def movedStmts : List Stmt → List Stmt
  | [] => []
  | stmt :: rest => stmt.moved :: movedStmts rest

def movedCases : List SwitchCase → List SwitchCase
  | [] => []
  | ⟨label, body, span⟩ :: rest => ⟨label, movedStmts body, place span⟩ :: movedCases rest

def movedDefault : Option DefaultCase → Option DefaultCase
  | none => none
  | some ⟨body, span⟩ => some ⟨movedStmts body, place span⟩

def Block.moved : Block → Block
  | ⟨items, span⟩ => ⟨movedItems items, place span⟩

def movedItems : List BlockItem → List BlockItem
  | [] => []
  | .var decl :: rest => .var (decl.moved place) :: movedItems rest
  | .stmt stmt :: rest => .stmt stmt.moved :: movedItems rest

end

def ConstDecl.moved (decl : ConstDecl) : ConstDecl :=
  ⟨decl.type.moved place, decl.name.moved place, decl.value, place decl.span⟩

def ClassDecl.moved (decl : ClassDecl) : ClassDecl :=
  ⟨decl.name.moved place, decl.fields.map (·.moved place), place decl.span⟩

def Param.moved (param : Param) : Param := ⟨param.type.moved place, param.name.moved place⟩

def MethodDecl.moved (decl : MethodDecl) : MethodDecl :=
  ⟨decl.name.moved place, decl.result.map (·.moved place), decl.params.map (·.moved place),
    decl.body.moved place, place decl.span⟩

def Item.moved : Item → Item
  | .const decl => .const (decl.moved place)
  | .vars decl => .vars (decl.moved place)
  | .classDecl decl => .classDecl (decl.moved place)
  | .method decl => .method (decl.moved place)

def Program.moved (program : Program) : Program :=
  ⟨program.name.moved place, program.items.map (·.moved place), place program.span⟩

def Program.unplaced (program : Program) : Program := program.moved fun _ => {}

@[simp]
theorem Ident.moved_name (name : Ident) : (name.moved place).name = name.name := rfl

@[simp]
theorem TypeName.moved_name (type : TypeName) : (type.moved place).name = type.name := rfl

theorem TypeName.moved_span (type : TypeName) : (type.moved place).span = place type.span := rfl

theorem Designator.moved_base (target : Designator) :
    (target.moved place).base = target.base.moved place := by
  cases target
  rfl

theorem Designator.moved_selectors (target : Designator) :
    (target.moved place).selectors = movedSelectors place target.selectors := by
  cases target
  rfl

theorem Designator.moved_span (target : Designator) :
    (target.moved place).span = place target.span := by
  cases target
  rfl

theorem Expr.moved_id (e : Expr) : (e.moved place).id = e.id := by
  cases e
  rfl

theorem Expr.moved_head (e : Expr) : (e.moved place).head = e.head.moved place := by
  cases e
  rfl

theorem Expr.moved_span (e : Expr) : (e.moved place).span = place e.span := by
  cases e
  rfl

theorem Term.moved_id (term : Term) : (term.moved place).id = term.id := by
  cases term
  rfl

theorem Term.moved_head (term : Term) : (term.moved place).head = term.head.moved place := by
  cases term
  rfl

theorem Term.moved_span (term : Term) : (term.moved place).span = place term.span := by
  cases term
  rfl

theorem Factor.moved_id (factor : Factor) : (factor.moved place).id = factor.id := by
  cases factor
  rfl

theorem Factor.moved_span (factor : Factor) : (factor.moved place).span = place factor.span := by
  cases factor
  rfl

theorem movedExprs_eq_map (exprs : List Expr) : movedExprs place exprs = exprs.map (·.moved place) := by
  induction exprs with
  | nil => rfl
  | cons e exprs ih => rw [movedExprs, ih, List.map_cons]

theorem movedSelectors_eq_map (selectors : List Selector) :
    movedSelectors place selectors = selectors.map (·.moved place) := by
  induction selectors with
  | nil => rfl
  | cons selector selectors ih => cases selector <;> rw [movedSelectors, ih, List.map_cons] <;> rfl

theorem movedSelectors_isEmpty (selectors : List Selector) :
    (movedSelectors place selectors).isEmpty = selectors.isEmpty := by
  cases selectors with
  | nil => rfl
  | cons selector rest => cases selector <;> rfl

theorem isLeastInt_moved (neg : Bool) (cast : Option TypeName) (head : Term) :
    isLeastInt neg (cast.map (·.moved place)) (head.moved place) = isLeastInt neg cast head := by
  obtain ⟨_, ⟨_, kind, _⟩, tail, _⟩ := head
  cases neg <;> cases cast <;> cases tail <;> cases kind <;> rfl

theorem Expr.moved_isBareList (e : Expr) : (e.moved place).isBareList = e.isBareList := by
  obtain ⟨_, neg, cast, ⟨_, ⟨_, kind, _⟩, factors, _⟩, tail, _⟩ := e
  cases neg <;> cases cast <;> cases tail <;> cases factors <;> cases kind <;> try rfl
  rename_i elems
  cases elems <;> rfl

section Unmoved

theorem map_moved_same {α : Type} {move : α → α} (same : ∀ a, move a = a) (items : List α) :
    items.map move = items := by
  rw [show move = id from funext same, List.map_id]

theorem option_moved_same {α : Type} {move : α → α} (same : ∀ a, move a = a) (item : Option α) :
    item.map move = item := by
  rw [show move = id from funext same, Option.map_id, id]

theorem Ident.moved_same (name : Ident) : name.moved id = name := rfl

theorem TypeName.moved_same (type : TypeName) : type.moved id = type := rfl

mutual

theorem Expr.moved_same : ∀ e : Expr, e.moved id = e
  | ⟨_, _, cast, head, tail, _⟩ => by
    rw [Expr.moved, option_moved_same TypeName.moved_same, Term.moved_same head, movedTerms_same tail, id]

theorem movedTerms_same : ∀ terms : List (AddOp × Term), movedTerms id terms = terms
  | [] => rfl
  | (_, term) :: rest => by rw [movedTerms, Term.moved_same term, movedTerms_same rest]

theorem Term.moved_same : ∀ term : Term, term.moved id = term
  | ⟨_, head, tail, _⟩ => by rw [Term.moved, Factor.moved_same head, movedFactors_same tail, id]

theorem movedFactors_same : ∀ factors : List (MulOp × Factor), movedFactors id factors = factors
  | [] => rfl
  | (_, factor) :: rest => by rw [movedFactors, Factor.moved_same factor, movedFactors_same rest]

theorem Factor.moved_same : ∀ factor : Factor, factor.moved id = factor
  | ⟨_, kind, _⟩ => by rw [Factor.moved, FactorKind.moved_same kind, id]

theorem FactorKind.moved_same : ∀ kind : FactorKind, kind.moved id = kind
  | .literal _ => rfl
  | .designator target => by rw [FactorKind.moved, Designator.moved_same target]
  | .call callee args => by
    rw [FactorKind.moved, Designator.moved_same callee, movedExprs_same args]
  | .newObject _ => rfl
  | .newArray elem sizes => by rw [FactorKind.moved, movedExprs_same sizes, TypeName.moved_same]
  | .paren inner => by rw [FactorKind.moved, Expr.moved_same inner]
  | .list elems => by rw [FactorKind.moved, movedExprs_same elems]

theorem movedExprs_same : ∀ exprs : List Expr, movedExprs id exprs = exprs
  | [] => rfl
  | e :: rest => by rw [movedExprs, Expr.moved_same e, movedExprs_same rest]

theorem Designator.moved_same : ∀ target : Designator, target.moved id = target
  | ⟨_, base, selectors, _⟩ => by
    rw [Designator.moved, Ident.moved_same, movedSelectors_same selectors, id]

theorem movedSelectors_same : ∀ selectors : List Selector, movedSelectors id selectors = selectors
  | [] => rfl
  | .field name :: rest => by rw [movedSelectors, Ident.moved_same, movedSelectors_same rest]
  | .index value :: rest => by rw [movedSelectors, Expr.moved_same value, movedSelectors_same rest]

end

theorem condFact_moved_same (fact : CondFact) : fact.moved id = fact := by
  obtain ⟨_, kind, _⟩ := fact
  cases kind with
  | relation left op right =>
    rw [CondFact.moved, FactKind.moved, Expr.moved_same, Expr.moved_same]
    rfl
  | expr value =>
    rw [CondFact.moved, FactKind.moved, Expr.moved_same]
    rfl

theorem condition_moved_same (cond : Condition) : cond.moved id = cond := by
  have terms : ∀ term : CondTerm, term.moved id = term := by
    intro term
    rw [CondTerm.moved, map_moved_same condFact_moved_same]
    rfl
  rw [Condition.moved, map_moved_same terms]
  rfl

theorem VarDecl.moved_same (decl : VarDecl) : decl.moved id = decl := by
  rw [VarDecl.moved, map_moved_same Ident.moved_same]
  rfl

mutual

theorem Stmt.moved_same : ∀ stmt : Stmt, stmt.moved id = stmt
  | .assign target value _ => by rw [Stmt.moved, Designator.moved_same, Expr.moved_same, id]
  | .call callee args _ => by rw [Stmt.moved, Designator.moved_same, movedExprs_same, id]
  | .increment target _ => by rw [Stmt.moved, Designator.moved_same, id]
  | .decrement target _ => by rw [Stmt.moved, Designator.moved_same, id]
  | .branch cond onTrue onFalse _ => by
    rw [Stmt.moved, condition_moved_same, Stmt.moved_same onTrue, movedOption_same onFalse, id]
  | .whileLoop cond body _ => by rw [Stmt.moved, condition_moved_same, Stmt.moved_same body, id]
  | .forLoop init cond update body _ => by
    rw [Stmt.moved, movedOption_same init, option_moved_same condition_moved_same,
      movedOption_same update, Stmt.moved_same body, id]
  | .breakStmt _ => rfl
  | .returnStmt value _ => by rw [Stmt.moved, option_moved_same Expr.moved_same, id]
  | .read target _ => by rw [Stmt.moved, Designator.moved_same, id]
  | .write value _ _ => by rw [Stmt.moved, Expr.moved_same, id]
  | .switch selector cases default _ => by
    rw [Stmt.moved, Expr.moved_same, movedCases_same cases, movedDefault_same default, id]
  | .block block => by rw [Stmt.moved, Block.moved_same block]
  | .empty _ => rfl

theorem movedOption_same : ∀ stmt : Option Stmt, movedOption id stmt = stmt
  | none => rfl
  | some stmt => by rw [movedOption, Stmt.moved_same stmt]

theorem movedStmts_same : ∀ stmts : List Stmt, movedStmts id stmts = stmts
  | [] => rfl
  | stmt :: rest => by rw [movedStmts, Stmt.moved_same stmt, movedStmts_same rest]

theorem movedCases_same : ∀ cases : List SwitchCase, movedCases id cases = cases
  | [] => rfl
  | ⟨_, body, _⟩ :: rest => by rw [movedCases, movedStmts_same body, movedCases_same rest, id]

theorem movedDefault_same : ∀ default : Option DefaultCase, movedDefault id default = default
  | none => rfl
  | some ⟨body, _⟩ => by rw [movedDefault, movedStmts_same body, id]

theorem Block.moved_same : ∀ block : Block, block.moved id = block
  | ⟨items, _⟩ => by rw [Block.moved, movedItems_same items, id]

theorem movedItems_same : ∀ items : List BlockItem, movedItems id items = items
  | [] => rfl
  | .var decl :: rest => by rw [movedItems, VarDecl.moved_same, movedItems_same rest]
  | .stmt stmt :: rest => by rw [movedItems, Stmt.moved_same stmt, movedItems_same rest]

end

theorem MethodDecl.moved_same (decl : MethodDecl) : decl.moved id = decl := by
  have params : ∀ param : Param, param.moved id = param := fun _ => rfl
  rw [MethodDecl.moved, option_moved_same TypeName.moved_same, map_moved_same params, Block.moved_same]
  rfl

end Unmoved

end StackCode
