import StackCode.Proofs.Parallel.Expressions

namespace StackCode

open Code Emit

namespace Env

structure Alike (env other : Env) : Prop where
  sight : other.table.sight = env.table.sight
  type? : ∀ id, other.annotations.type? id = env.annotations.type? id
  constants : ∀ name, other.constants.lookup name = env.constants.lookup name

variable {env other : Env} (alike : env.Alike other) (place : Span → Span)

include alike

theorem Alike.type : other.type = env.type := by
  unfold Env.type Env.baseType
  rw [SymbolTable.registry_of_sight alike.sight]

theorem Alike.nodeType : other.nodeType = env.nodeType := by
  funext id
  rw [Env.nodeType, alike.type?]
  rfl

theorem Alike.classNamed : other.classNamed = env.classNamed := by
  unfold Env.classNamed
  rw [SymbolTable.registry_of_sight alike.sight]

theorem Alike.writtenType (type : TypeName) :
    other.writtenType (type.moved place) = env.writtenType type := by
  unfold Env.writtenType
  rw [TypeName.moved_name, SymbolTable.typeOf_of_sight alike.sight]

theorem Alike.memberType : other.memberType = env.memberType := by
  funext tag field
  unfold Env.memberType
  rcases SymbolTable.lookupField?_of_sight alike.sight tag field with ⟨none, none'⟩ |
    ⟨symbol, symbol', found, found', typed⟩
  · rw [none, none']
  · rw [found, found']
    dsimp only
    rw [typed]

theorem Alike.home : other.home = env.home := by
  funext frame name
  unfold Env.home
  rw [alike.constants]
  rcases SymbolTable.lookup?_of_sight alike.sight name with ⟨none, none'⟩ |
    ⟨symbol, symbol', found, found', named, typed, kind⟩
  · rw [none, none']
  · have assignable : symbol'.isVariable = symbol.isVariable := by rw [Symbol.isVariable, kind]; rfl
    rw [found, found']
    dsimp only
    rw [assignable, typed]

theorem Alike.target : other.target = env.target := by
  funext name argc
  unfold Env.target
  rcases SymbolTable.lookup?_of_sight alike.sight name with ⟨none, none'⟩ |
    ⟨symbol, symbol', found, found', named, typed, kind⟩
  · rw [none, none']
  · rw [found, found']
    dsimp only
    rw [kind]

theorem Alike.temp : Emit.temp other = Emit.temp env := by
  unfold Emit.temp Emit.newSlot
  rw [alike.type]

theorem Alike.newLocal : Emit.newLocal other = Emit.newLocal env := by
  unfold Emit.newLocal Emit.newSlot
  rw [alike.type]

theorem Alike.emitBase : emitBase other = emitBase env := by
  unfold StackCode.emitBase
  rw [alike.home]

theorem Alike.emitField : emitField other = emitField env := by
  unfold StackCode.emitField
  rw [alike.classNamed, alike.memberType]

theorem Alike.emitGrid (base : Tag) (counts : List Nat) :
    emitGrid other base counts = emitGrid env base counts := by
  induction counts with
  | nil => rfl
  | cons count counts ih =>
    cases counts with
    | nil => rw [StackCode.emitGrid, StackCode.emitGrid, alike.type]
    | cons next counts =>
      have longer : next :: counts ≠ [] := List.cons_ne_nil _ _
      conv_lhs => rw [StackCode.emitGrid.eq_3 _ _ _ _ longer]
      conv_rhs => rw [StackCode.emitGrid.eq_3 _ _ _ _ longer]
      rw [ih, alike.type, alike.temp]

theorem Alike.intrinsic (op : Intrinsic) : op.emit other = op.emit env := by
  unfold Intrinsic.emit
  rw [alike.type, alike.nodeType]

end Env

variable {env other : Env} {place : Span → Span}

theorem movedExprs_length (args : List Expr) : (movedExprs place args).length = args.length := by
  rw [movedExprs_eq_map, List.length_map]

theorem movedCases_length (cases : List SwitchCase) : (movedCases place cases).length = cases.length := by
  induction cases with
  | nil => rfl
  | cons case cases ih =>
    obtain ⟨label, body, span⟩ := case
    rw [movedCases, List.length_cons, List.length_cons, ih]

attribute [local simp] movedExprs_length movedCases_length Term.moved_id Factor.moved_id
  Expr.moved_id Designator.moved_base Ident.moved_name

section Code

variable (alike : env.Alike other)

include alike

theorem Target.emit_moved (args : List Expr) (target : Target) :
    target.emit other (movedExprs place args) = target.emit env args := by
  cases target with
  | intrinsic op =>
    have ids : (movedExprs place args).head?.map Expr.id = args.head?.map Expr.id := by
      simp [movedExprs_eq_map, Function.comp_def]
    rw [Target.emit, Target.emit, alike.intrinsic, ids]
  | method name result => rw [Target.emit, Target.emit, movedExprs_length]

omit alike in
mutual

theorem Expr.emit_moved (alike : env.Alike other) : ∀ e : Expr, (e.moved place).emit other = e.emit env
  | ⟨id, neg, cast, head, tail, span⟩ => by
    simp only [Expr.moved, Expr.emit, alike.nodeType, Term.moved_id, isLeastInt_moved, head.emit_moved alike,
      emitSum_moved alike tail]
    cases cast <;> simp [Env.castCode, alike.writtenType]

theorem emitSum_moved (alike : env.Alike other) : ∀ (tail : List (AddOp × Term)) (type : Tag),
    emitSum other type (movedTerms place tail) = emitSum env type tail
  | [], _ => rfl
  | (op, term) :: tail, type => by
    simp [movedTerms, emitSum, alike.nodeType, term.emit_moved alike, emitSum_moved alike tail]

theorem Term.emit_moved (alike : env.Alike other) : ∀ term : Term, (term.moved place).emit other = term.emit env
  | ⟨id, head, tail, span⟩ => by
    simp [Term.moved, Term.emit, alike.nodeType, head.emit_moved alike, emitProduct_moved alike tail]

theorem emitProduct_moved (alike : env.Alike other) : ∀ (tail : List (MulOp × Factor)) (type : Tag),
    emitProduct other type (movedFactors place tail) = emitProduct env type tail
  | [], _ => rfl
  | (op, factor) :: tail, type => by
    simp [movedFactors, emitProduct, alike.nodeType, factor.emit_moved alike, emitProduct_moved alike tail]

theorem Factor.emit_moved (alike : env.Alike other) : ∀ factor : Factor,
    (factor.moved place).emit other = factor.emit env
  | ⟨id, kind, span⟩ => by rw [Factor.moved, Factor.emit, Factor.emit, kind.emit_moved alike id]

theorem FactorKind.emit_moved (alike : env.Alike other) : ∀ (kind : FactorKind) (id : NodeId),
    (kind.moved place).emit other id = kind.emit env id
  | .literal value, _ => rfl
  | .designator target, _ => target.emitLoad_moved alike
  | .call callee args, _ => by
    simp [FactorKind.moved, FactorKind.emit, alike.target, emitExprs_moved alike args, Target.emit_moved alike]
  | .newObject className, _ => rfl
  | .newArray elem [], _ => by
    simp [FactorKind.moved, movedExprs, FactorKind.emit, alike.writtenType, emitSizes, alike.emitGrid]
  | .newArray elem [size], _ => by
    simp [FactorKind.moved, movedExprs, FactorKind.emit, alike.writtenType, alike.type, size.emit_moved alike]
  | .newArray elem (size :: next :: sizes), _ => by
    have values := emitSizes_moved alike (size :: next :: sizes)
    rw [FactorKind.moved, FactorKind.emit, FactorKind.emit]
    · simp only [alike.writtenType, values, alike.emitGrid]
    · simp
    · simp [movedExprs]
  | .paren inner, _ => inner.emit_moved alike
  | .list elems, _ => by
    simp [FactorKind.moved, FactorKind.emit, alike.type, alike.nodeType, emitElems_moved alike elems]

theorem emitExprs_moved (alike : env.Alike other) : ∀ exprs : List Expr,
    emitExprs other (movedExprs place exprs) = emitExprs env exprs
  | [] => rfl
  | e :: exprs => by rw [movedExprs, emitExprs, emitExprs, e.emit_moved alike, emitExprs_moved alike exprs]

theorem emitSizes_moved (alike : env.Alike other) : ∀ sizes : List Expr,
    emitSizes other (movedExprs place sizes) = emitSizes env sizes
  | [] => rfl
  | size :: sizes => by
    rw [movedExprs, emitSizes, emitSizes, size.emit_moved alike, emitSizes_moved alike sizes, alike.temp]

theorem emitElems_moved (alike : env.Alike other) : ∀ (elems : List Expr) (elem : Ty),
    emitElems other elem (movedExprs place elems) = emitElems env elem elems
  | [], _ => rfl
  | e :: elems, elem => by rw [movedExprs, emitElems, emitElems, e.emit_moved alike, emitElems_moved alike elems]

theorem Designator.emitLoad_moved (alike : env.Alike other) : ∀ target : Designator,
    (target.moved place).emitLoad other = target.emitLoad env
  | ⟨id, base, selectors, span⟩ => by
    simp [Designator.moved, Designator.emitLoad, alike.emitBase, emitSelectors_moved alike selectors]

theorem emitSelectors_moved (alike : env.Alike other) : ∀ (selectors : List Selector) (tag : Tag),
    emitSelectors other tag (movedSelectors place selectors) = emitSelectors env tag selectors
  | [], _ => rfl
  | .field name :: selectors, tag => by
    simp [movedSelectors, emitSelectors, alike.emitField, emitSelectors_moved alike selectors]
  | .index value :: selectors, tag => by
    simp [movedSelectors, emitSelectors, alike.type, value.emit_moved alike, emitSelectors_moved alike selectors]

end

theorem Designator.emitCall_moved (callee : Designator) (args : List Expr) :
    (callee.moved place).emitCall other (movedExprs place args) = callee.emitCall env args := by
  simp [Designator.emitCall, alike.target, emitExprs_moved alike, Target.emit_moved alike]

theorem emitPut_alike (name : String) (constant : Unsupported) :
    emitPut other name constant = emitPut env name constant := by
  unfold emitPut
  rw [alike.home]

theorem Designator.emitContainer_moved (target : Designator) :
    (target.moved place).emitContainer other = target.emitContainer env := by
  unfold Designator.emitContainer
  simp only [alike.emitBase, Designator.moved_base, Ident.moved_name, Designator.moved_selectors,
    movedSelectors_eq_map, ← List.map_dropLast]
  simp only [← movedSelectors_eq_map, emitSelectors_moved alike]

omit alike in
theorem Designator.moved_last (target : Designator) : (target.moved place).selectors.getLast? =
    target.selectors.getLast?.map (·.moved place) := by
  rw [Designator.moved_selectors, movedSelectors_eq_map, List.getLast?_map]

theorem Designator.emitStore_moved (target : Designator) (value : Emit Piece) :
    (target.moved place).emitStore other value = target.emitStore env value := by
  unfold Designator.emitStore
  rw [Designator.emitContainer_moved alike, Designator.moved_base, Ident.moved_name, alike.classNamed,
    alike.type, emitPut_alike alike, Designator.moved_last]
  rcases target.selectors.getLast? with _ | _ | value
  · rfl
  · rfl
  · simp only [Option.map_some, Selector.moved, Expr.emit_moved alike]

theorem Designator.emitStep_moved (op : StepOp) (target : Designator) :
    (target.moved place).emitStep other op = target.emitStep env op := by
  unfold Designator.emitStep
  rw [Designator.emitContainer_moved alike, Designator.moved_base, Ident.moved_name, alike.classNamed,
    alike.type, alike.emitBase, alike.temp, emitPut_alike alike, Designator.moved_last]
  rcases target.selectors.getLast? with _ | _ | value
  · rfl
  · rfl
  · simp only [Option.map_some, Selector.moved, Expr.emit_moved alike]

theorem emitWrite_moved (value : Expr) (width : Option Int64) :
    emitWrite other (value.moved place) width = emitWrite env value width := by
  unfold emitWrite
  rw [Expr.emit_moved alike, alike.type, alike.nodeType, Expr.moved_id]

theorem CondFact.emit_moved (fact : CondFact) : (fact.moved place).emit other = fact.emit env := by
  obtain ⟨id, kind, span⟩ := fact
  cases kind <;> simp [CondFact.emit, CondFact.moved, FactKind.moved, Env.areStrings, alike.nodeType,
    Expr.emit_moved alike]

theorem emitFacts_moved (join : Piece) (facts : List CondFact) :
    emitFacts other join (facts.map (·.moved place)) = emitFacts env join facts := by
  induction facts generalizing join with
  | nil => rfl
  | cons fact facts ih => rw [List.map_cons, emitFacts, emitFacts, CondFact.emit_moved alike, ih]

theorem emitCondTerms_moved (join : Piece) (terms : List CondTerm) :
    emitCondTerms other join (terms.map (·.moved place)) = emitCondTerms env join terms := by
  induction terms generalizing join with
  | nil => rfl
  | cons term terms ih =>
    rw [List.map_cons, emitCondTerms, emitCondTerms, ih]
    simp only [CondTerm.moved, emitFacts_moved alike]

theorem Condition.emit_moved (cond : Condition) : (cond.moved place).emit other = cond.emit env :=
  emitCondTerms_moved alike [] cond.terms

theorem emitLocals_moved (tag : Tag) (names : List Ident) :
    emitLocals other tag (names.map (·.moved place)) = emitLocals env tag names := by
  induction names with
  | nil => rfl
  | cons name names ih => rw [List.map_cons, emitLocals, emitLocals, alike.newLocal, ih, Ident.moved_name]

omit alike in
theorem emitDispatch_moved (slot : Nat) (cases : List SwitchCase) (labels : List Label) :
    emitDispatch slot ((movedCases place cases).zip labels) = emitDispatch slot (cases.zip labels) := by
  induction cases generalizing labels with
  | nil => rfl
  | cons case cases ih =>
    obtain ⟨label, body, span⟩ := case
    cases labels with
    | nil => rfl
    | cons target labels =>
      rw [movedCases, List.zip_cons_cons, List.zip_cons_cons, emitDispatch, emitDispatch, ih]

omit alike in
mutual

theorem Stmt.emit_moved (alike : env.Alike other) : ∀ stmt : Stmt, (stmt.moved place).emit other = stmt.emit env
  | .assign target value span => by
    rw [Stmt.moved, Stmt.emit, Stmt.emit, Expr.emit_moved alike, Designator.emitStore_moved alike]
  | .read target span => target.emitStore_moved alike _
  | .increment target span | .decrement target span => target.emitStep_moved alike _
  | .call callee args span => by
    rw [Stmt.moved, Stmt.emit, Stmt.emit, Designator.emitCall_moved alike]
  | .write value width span => emitWrite_moved alike value width
  | .branch cond onTrue (some onFalse) span => by
    rw [Stmt.moved, movedOption, Stmt.emit, Stmt.emit, Condition.emit_moved alike, onTrue.emit_moved alike,
      onFalse.emit_moved alike]
  | .branch cond onTrue none span => by
    rw [Stmt.moved, movedOption, Stmt.emit, Stmt.emit, Condition.emit_moved alike, onTrue.emit_moved alike]
  | .whileLoop cond body span => by
    rw [Stmt.moved, Stmt.emit, Stmt.emit, Condition.emit_moved alike, body.emit_moved alike]
  | .forLoop init cond update body span => by
    rw [Stmt.moved, Stmt.emit, Stmt.emit, emitOptional_moved alike init, emitOptional_moved alike update,
      body.emit_moved alike]
    cases cond <;> simp [Condition.emit_moved alike]
  | .breakStmt span => rfl
  | .returnStmt none span => rfl
  | .returnStmt (some value) span => by
    rw [Stmt.moved, Option.map_some, Stmt.emit, Stmt.emit, Expr.emit_moved alike]
  | .switch selector cases default span => by
    have defaults : (movedDefault place default).isSome = default.isSome := by
      rcases default with _ | ⟨_, _⟩ <;> rfl
    simp only [Stmt.moved, Stmt.emit, alike.nodeType, Expr.moved_id, Expr.emit_moved alike, alike.temp,
      movedCases_length, emitDispatch_moved, defaults, emitCases_moved alike cases, emitDefault_moved alike default]
  | .block ⟨items, span⟩ => by rw [Stmt.moved, Block.moved, Stmt.emit, Stmt.emit, emitItems_moved alike items]
  | .empty span => rfl

theorem emitOptional_moved (alike : env.Alike other) : ∀ stmt : Option Stmt,
    emitOptional other (movedOption place stmt) = emitOptional env stmt
  | none => rfl
  | some stmt => stmt.emit_moved alike

theorem emitStmts_moved (alike : env.Alike other) : ∀ stmts : List Stmt,
    emitStmts other (movedStmts place stmts) = emitStmts env stmts
  | [] => rfl
  | stmt :: stmts => by
    rw [movedStmts, emitStmts, emitStmts, stmt.emit_moved alike, emitStmts_moved alike stmts]

theorem emitCases_moved (alike : env.Alike other) : ∀ (cases : List SwitchCase) (labels : List Label),
    emitCases other labels (movedCases place cases) = emitCases env labels cases
  | [], [] => rfl
  | [], _ :: _ => rfl
  | ⟨_, _, _⟩ :: _, [] => rfl
  | ⟨label, body, span⟩ :: cases, target :: labels => by
    rw [movedCases, emitCases, emitCases, emitStmts_moved alike body, emitCases_moved alike cases]

theorem emitDefault_moved (alike : env.Alike other) : ∀ (default : Option DefaultCase) (label : Label),
    emitDefault other label (movedDefault place default) = emitDefault env label default
  | none, _ => rfl
  | some ⟨body, span⟩, label => by rw [movedDefault, emitDefault, emitDefault, emitStmts_moved alike body]

theorem emitItems_moved (alike : env.Alike other) : ∀ items : List BlockItem,
    emitItems other (movedItems place items) = emitItems env items
  | [] => rfl
  | .var decl :: items => by
    simp [movedItems, emitItems, VarDecl.moved, alike.writtenType, emitLocals_moved alike,
      emitItems_moved alike items]
  | .stmt stmt :: items => by
    rw [movedItems, emitItems, emitItems, stmt.emit_moved alike, emitItems_moved alike items]

end

theorem Env.params_moved (params : List Param) :
    other.params (params.map (·.moved place)) = env.params params := by
  induction params with
  | nil => rfl
  | cons param params ih =>
    rw [List.map_cons, Env.params, Env.params, ih]
    simp only [Param.moved, alike.writtenType, alike.type, Ident.moved_name]

theorem emitParams_alike (i : Nat) (params : List (String × Tag)) :
    emitParams other i params = emitParams env i params := by
  induction params generalizing i with
  | nil => rfl
  | cons param params ih => rw [emitParams, emitParams, alike.newLocal, ih]

theorem Env.resultTag_moved (result : Option TypeName) :
    other.resultTag (result.map (·.moved place)) = env.resultTag result := by
  cases result with
  | none => rfl
  | some type => exact alike.writtenType place type

theorem Env.methodFrom_moved (breaks : List Label) (decl : MethodDecl) :
    other.methodFrom breaks (decl.moved place) = env.methodFrom breaks decl := by
  obtain ⟨name, result, params, ⟨items, _⟩, span⟩ := decl
  have body : ∀ tags type, emitBody other tags type (movedItems place items) =
      emitBody env tags type items := by
    intro tags type
    rw [emitBody, emitBody, emitParams_alike alike, emitItems_moved alike]
  simp only [Env.methodFrom, MethodDecl.moved, Block.moved, Env.resultTag_moved alike,
    Env.params_moved alike, alike.type, body, Ident.moved_name]
  rfl

theorem Env.methodsFrom_moved (breaks : List Label) (items : List Item) :
    other.methodsFrom breaks (items.map (·.moved place)) = env.methodsFrom breaks items := by
  induction items generalizing breaks with
  | nil => rfl
  | cons item items ih =>
    cases item with
    | method decl =>
      rw [List.map_cons, Item.moved, Env.methodsFrom, Env.methodsFrom, Env.methodFrom_moved alike]
      simp only [ih]
    | _ => exact ih breaks

theorem Env.fields_alike {symbols symbols' : List Symbol}
    (same : symbols'.map (fun s => (s.name, s.type)) = symbols.map fun s => (s.name, s.type)) :
    other.fields symbols' = env.fields symbols := by
  induction symbols generalizing symbols' with
  | nil =>
    rw [List.map_eq_nil_iff.mp same]
    rfl
  | cons symbol symbols ih =>
    obtain ⟨symbol', rest', rfl, head, tail⟩ := List.map_eq_cons_iff.mp same
    obtain ⟨named, typed⟩ := Prod.mk.inj head
    rw [Env.fields, Env.fields, ih tail, named, typed, alike.type]

theorem Env.data_moved (fields : ∀ className,
      (other.table.fieldsOf className).map (fun s => (s.name, s.type)) =
        (env.table.fieldsOf className).map fun s => (s.name, s.type)) (items : List Item) :
    other.data (items.map (·.moved place)) = env.data items := by
  induction items with
  | nil => rfl
  | cons item items ih =>
    cases item with
    | classDecl decl =>
      rw [List.map_cons, Item.moved, Env.data, Env.data, ih]
      simp only [ClassDecl.moved, Ident.moved_name, Env.fields_alike alike (fields decl.name.name)]
    | vars decl =>
      rw [List.map_cons, Item.moved, Env.data, Env.data, ih]
      simp only [VarDecl.moved, alike.writtenType, alike.type, List.map_map, Function.comp_def,
        Ident.moved_name]
    | _ => exact ih

end Code

theorem constantsOf_moved (items : List Item) :
    constantsOf (items.map (·.moved place)) = constantsOf items := by
  unfold constantsOf
  rw [List.filterMap_map]
  congr 2
  funext item
  cases item <;> rfl

end StackCode
