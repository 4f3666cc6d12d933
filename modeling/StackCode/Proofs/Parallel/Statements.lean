import StackCode.Proofs.Parallel.Expressions

namespace StackCode

open Checking

/-- A relation of tables by which the checks in one can be followed in the other. -/
structure Likeness (place : Span → Span) (Alike : SymbolTable → SymbolTable → Prop) : Prop where
  sight : ∀ {table other}, Alike table other → other.sight = table.sight
  taken : ∀ {table other}, Alike table other → ∀ name,
    (other.lookupCurrent? name).isSome = (table.lookupCurrent? name).isSome
  opens : ∀ {table other}, Alike table other → Alike table.openScope other.openScope
  closes : ∀ {table other}, Alike table other →
    Alike (table.closeScope?.getD table) (other.closeScope?.getD other)
  push : ∀ {table other}, Alike table other → ∀ name type site kind decl,
    Alike (table.push name type site kind decl) (other.push (name.moved place) type site kind (place decl))

namespace Twin

variable {twin : Twin} {Alike : SymbolTable → SymbolTable → Prop} {α β γ δ : Type}

structure Abreast (twin : Twin) (Alike : SymbolTable → SymbolTable → Prop) (state other : CheckState) :
    Prop where
  noted : twin.Noted state.toNotes other.toNotes
  table : Alike state.table other.table
  loopDepth : other.loopDepth = state.loopDepth
  switchDepth : other.switchDepth = state.switchDepth
  expectedResult : other.expectedResult = state.expectedResult

def Follows (twin : Twin) (Alike : SymbolTable → SymbolTable → Prop) (f : Checking α) (g : Checking β)
    (R : α → β → Prop) : Prop :=
  ∀ state other, twin.Abreast Alike state other →
    R (f.outcome state).1 (g.outcome other).1 ∧
      twin.Abreast Alike (f.outcome state).2 (g.outcome other).2

variable {f : Checking α} {g : Checking β} {R : α → β → Prop}

theorem Follows.bind {k : α → Checking γ} {l : β → Checking δ} {Q : γ → δ → Prop}
    (first : twin.Follows Alike f g R) (second : ∀ a b, R a b → twin.Follows Alike (k a) (l b) Q) :
    twin.Follows Alike (f >>= k) (g >>= l) Q := by
  intro state other abreast
  obtain ⟨related, after⟩ := first state other abreast
  exact second _ _ related _ _ after

theorem Follows.andThen {f g : Checking α} {k : α → Checking γ} {l : α → Checking δ} {Q : γ → δ → Prop}
    (first : twin.Follows Alike f g Eq) (second : ∀ a, twin.Follows Alike (k a) (l a) Q) :
    twin.Follows Alike (f >>= k) (g >>= l) Q :=
  first.bind fun a _ same => same ▸ second a

theorem Follows.discard (follows : twin.Follows Alike f g R) :
    twin.Follows Alike (discard f) (discard g) Eq :=
  fun state other abreast => ⟨rfl, (follows state other abreast).2⟩

theorem follows_pure {a : α} {b : β} (related : R a b) : twin.Follows Alike (pure a) (pure b) R :=
  fun _ _ abreast => ⟨related, abreast⟩

theorem follows_return (a : α) : twin.Follows Alike (pure a) (pure a) Eq := follows_pure rfl

theorem follows_get {k : CheckState → Checking α} {l : CheckState → Checking β}
    (more : ∀ state other, twin.Abreast Alike state other → twin.Follows Alike (k state) (l other) R) :
    twin.Follows Alike (get >>= k) (get >>= l) R :=
  fun state other abreast => more state other abreast state other abreast

theorem follows_modify {change change' : CheckState → CheckState}
    (keeps : ∀ state other, twin.Abreast Alike state other →
      twin.Abreast Alike (change state) (change' other)) :
    twin.Follows Alike (modify change) (modify change') Eq :=
  fun state other abreast => ⟨rfl, keeps state other abreast⟩

theorem follows_note {f : SymbolTable → Noting α} {g : SymbolTable → Noting β}
    (agree : ∀ table other, Alike table other → twin.Agree (f table) (g other) R) :
    twin.Follows Alike (note f) (note g) R := by
  intro state other abreast
  obtain ⟨related, noted⟩ := agree _ _ abreast.table _ _ abreast.noted
  exact ⟨related, noted, abreast.table, abreast.loopDepth, abreast.switchDepth, abreast.expectedResult⟩

theorem follows_report (problem : Problem) (span : Span) :
    twin.Follows Alike (report problem span) (report problem (twin.place span)) Eq :=
  follows_note fun _ _ _ => agree_report problem span

theorem follows_ite {condition : Prop} {_ : Decidable condition} {f f' : Checking α} {g g' : Checking β}
    (yes : condition → twin.Follows Alike f g R) (no : ¬ condition → twin.Follows Alike f' g' R) :
    twin.Follows Alike (if condition then f else f') (if condition then g else g') R := by
  split
  · exact yes ‹_›
  · exact no ‹_›

theorem follows_inLoop {f g : Checking Unit} (follows : twin.Follows Alike f g Eq) :
    twin.Follows Alike (do enterLoop; f; leaveLoop) (do enterLoop; g; leaveLoop) Eq := by
  refine Follows.andThen (follows_modify fun state other abreast => ?_) fun _ =>
    follows.andThen fun _ => follows_modify fun state other abreast => ?_
  · exact { abreast with loopDepth := congrArg (· + 1) abreast.loopDepth }
  · exact { abreast with loopDepth := congrArg (· - 1) abreast.loopDepth }

theorem follows_inSwitch {f g : Checking Unit} (follows : twin.Follows Alike f g Eq) :
    twin.Follows Alike (do enterSwitch; f; leaveSwitch) (do enterSwitch; g; leaveSwitch) Eq := by
  refine Follows.andThen (follows_modify fun state other abreast => ?_) fun _ =>
    follows.andThen fun _ => follows_modify fun state other abreast => ?_
  · exact { abreast with switchDepth := congrArg (· + 1) abreast.switchDepth }
  · exact { abreast with switchDepth := congrArg (· - 1) abreast.switchDepth }

theorem follows_introduce {name : Ident} {declaration declaration' : SymbolTable → Option SymbolTable}
    (declares : ∀ table other, Alike table other →
      Option.Rel Alike (declaration table) (declaration' other)) :
    twin.Follows Alike (introduce name declaration) (introduce (name.moved twin.place) declaration')
      Eq := by
  intro state other abreast
  have related := declares _ _ abreast.table
  rw [outcome_introduce, outcome_introduce]
  generalize declaration state.table = made at related
  generalize declaration' other.table = made' at related
  cases related with
  | some alike => exact ⟨rfl, abreast.noted, alike, abreast.loopDepth, abreast.switchDepth,
      abreast.expectedResult⟩
  | none => exact ⟨rfl, (follows_report _ name.span state other abreast).2⟩

variable (alike : Likeness twin.place Alike)

include alike

theorem follows_inScope {f g : Checking Unit} (follows : twin.Follows Alike f g Eq) :
    twin.Follows Alike (do openScope; f; closeScope) (do openScope; g; closeScope) Eq := by
  refine Follows.andThen (follows_modify fun state other abreast => ?_) fun _ =>
    follows.andThen fun _ => follows_modify fun state other abreast => ?_
  · exact { abreast with table := alike.opens abreast.table }
  · exact { abreast with table := alike.closes abreast.table }

theorem follows_declareVar (name : Ident) (type : Tag) (constant : Bool) (site : Site) (decl : Span) :
    twin.Follows Alike (introduce name (·.declareVar? name type constant site decl))
      (introduce (name.moved twin.place)
        (·.declareVar? (name.moved twin.place) type constant site (twin.place decl))) Eq := by
  refine follows_introduce fun table other related => ?_
  unfold SymbolTable.declareVar?
  rw [Ident.moved_name, alike.taken related]
  split
  · exact .none
  · exact .some (alike.push related _ _ _ _ _)

theorem follows_declareMethod (name : Ident) (result : Tag) (params : List Tag) (decl : Span) :
    twin.Follows Alike (introduce name (·.declareMethod? name result params decl))
      (introduce (name.moved twin.place)
        (·.declareMethod? (name.moved twin.place) result params (twin.place decl))) Eq := by
  refine follows_introduce fun table other related => ?_
  unfold SymbolTable.declareMethod?
  rw [Ident.moved_name, alike.taken related]
  split
  · exact .none
  · exact .some (alike.push related _ _ _ _ _)

end Twin

open Twin

variable {twin : Twin} {Alike : SymbolTable → SymbolTable → Prop}

section Simple

variable (alike : Likeness twin.place Alike)

include alike

theorem declareNames_abreast (type : Tag) (site : Site) (decl : Span) (names : List Ident) :
    twin.Follows Alike (declareNames type site decl names)
      (declareNames type site (twin.place decl) (names.map (·.moved twin.place))) Eq := by
  induction names with
  | nil => exact follows_return ()
  | cons name names ih =>
    exact (follows_declareVar alike name type false site decl).discard.andThen fun _ => ih

theorem VarDecl.declare_abreast (decl : VarDecl) (site : Site) :
    twin.Follows Alike (decl.declare site) ((decl.moved twin.place).declare site) Eq := by
  unfold VarDecl.declare
  refine Follows.andThen (follows_note fun table other related => ?_) fun type =>
    declareNames_abreast alike type site decl.span decl.names
  exact namedValueType_agree (SymbolTable.typeOf_of_sight (alike.sight related)) decl.type

theorem checkAssign_abreast (target : Designator) (value : Expr) (span : Span) :
    twin.Follows Alike (checkAssign target value span)
      (checkAssign (target.moved twin.place) (value.moved twin.place) (twin.place span)) Eq := by
  refine follows_note fun table other related => ?_
  have same := alike.sight related
  rw [SymbolTable.registry_of_sight same, Expr.moved_span, ← twin.orElse]
  exact (Designator.checkWritten_agree same target).andThen fun left =>
    agree_tally fun start start' timed => (checkExpected_agree same value left).andThen fun right =>
    (agree_excused timed _).andThen fun _ => agree_guard (agree_mismatch _ _)

theorem checkTarget_abreast (target : Designator) (fits : Tag → Bool) (problem : Tag → Mismatch)
    (span : Span) : twin.Follows Alike (checkTarget target fits problem span)
      (checkTarget (target.moved twin.place) fits problem (twin.place span)) Eq := by
  refine follows_note fun table other related => ?_
  rw [Designator.moved_span, ← twin.orElse]
  exact ((Designator.checkWritten_agree (alike.sight related) target).demand _ _ _).andThen fun _ =>
    agree_return ()

theorem checkWrite_abreast (value : Expr) (width : Option Int64) (span : Span) :
    twin.Follows Alike (checkWrite value width span)
      (checkWrite (value.moved twin.place) width (twin.place span)) Eq := by
  refine follows_note fun table other related => ?_
  rw [Expr.moved_span, ← twin.orElse]
  refine ((Expr.check_agree (alike.sight related) value).demand _ _ _).andThen fun _ => ?_
  cases width with
  | none => exact agree_return ()
  | some width => exact agree_guard (agree_mismatch _ _)

omit alike in
theorem checkBreak_abreast (span : Span) :
    twin.Follows Alike (checkBreak span) (checkBreak (twin.place span)) Eq := by
  refine follows_get fun state other abreast => ?_
  rw [abreast.loopDepth, abreast.switchDepth]
  exact follows_ite (fun _ => follows_report _ _) fun _ => follows_return ()

theorem checkResult_abreast (value : Option Expr) (span : Span) :
    twin.Follows Alike (checkResult value span)
      (checkResult (value.map (·.moved twin.place)) (twin.place span)) Eq := by
  refine follows_get fun state other abreast => ?_
  rw [abreast.expectedResult]
  cases value with
  | none => exact follows_ite (fun _ => follows_report _ _) fun _ => follows_return ()
  | some value =>
    refine follows_note fun table other related => ?_
    have same := alike.sight related
    rw [SymbolTable.registry_of_sight same, Expr.moved_span, ← twin.orElse]
    refine agree_tally fun start start' timed => (checkExpected_agree same value _).andThen fun type =>
      agree_ite (fun _ => agree_mismatch _ _) fun _ => ?_
    exact (agree_excused timed _).andThen fun _ => agree_guard (agree_mismatch _ _)

theorem checkSelector_abreast (selector : Expr) (span : Span) :
    twin.Follows Alike (checkSelector selector span)
      (checkSelector (selector.moved twin.place) (twin.place span)) Eq := by
  refine follows_note fun table other related => ?_
  rw [Expr.moved_span, ← twin.orElse]
  exact (Expr.check_agree (alike.sight related) selector).demand _ _ _

omit alike in
theorem checkLabel_abreast (selector : Tag) (seen : List Literal) (label : Literal) (span : Span) :
    twin.Follows Alike (checkLabel selector seen label span)
      (checkLabel selector seen label (twin.place span)) Eq :=
  follows_note fun _ _ _ => (label.check_agree span).andThen fun _ =>
    agree_unless (agree_mismatch _ _) (agree_guard (agree_report _ _))

theorem Condition.check_abreast (cond : Condition) :
    twin.Follows Alike (note fun table => cond.check table)
      (note fun table => (cond.moved twin.place).check table) Eq :=
  follows_note fun _ _ related => Condition.check_agree (alike.sight related) cond

end Simple

mutual

theorem Stmt.check_abreast (alike : Likeness twin.place Alike) : ∀ stmt : Stmt,
    twin.Follows Alike stmt.check (stmt.moved twin.place).check Eq
  | .assign target value span => checkAssign_abreast alike target value span
  | .call callee args span =>
    Follows.discard (follows_note fun _ _ related =>
      Designator.checkCall_agree (alike.sight related) callee args span)
  | .increment target span | .decrement target span => checkTarget_abreast alike target _ _ span
  | .branch cond onTrue onFalse span =>
    (Condition.check_abreast alike cond).andThen fun _ =>
      (Stmt.check_abreast alike onTrue).andThen fun _ => checkOption_abreast alike onFalse
  | .whileLoop cond body span =>
    (Condition.check_abreast alike cond).andThen fun _ =>
      follows_inLoop (Stmt.check_abreast alike body)
  | .forLoop init cond update body span => by
    have loop : twin.Follows Alike
        (do checkOption update; enterLoop; body.check; leaveLoop)
        (do checkOption (movedOption twin.place update); enterLoop; (body.moved twin.place).check;
            leaveLoop) Eq :=
      (checkOption_abreast alike update).andThen fun _ =>
        follows_inLoop (Stmt.check_abreast alike body)
    refine (checkOption_abreast alike init).andThen fun _ => ?_
    cases cond with
    | none => exact (follows_return ()).andThen fun _ => loop
    | some cond => exact (Condition.check_abreast alike cond).andThen fun _ => loop
  | .breakStmt span => checkBreak_abreast span
  | .returnStmt value span => checkResult_abreast alike value span
  | .read target span => checkTarget_abreast alike target _ _ span
  | .write value width span => checkWrite_abreast alike value width span
  | .switch selector cases default span => by
    refine (checkSelector_abreast alike selector span).andThen fun type => ?_
    exact follows_inSwitch ((checkCases_abreast alike type [] cases).andThen fun _ =>
      checkDefault_abreast alike default)
  | .block ⟨items, span⟩ => follows_inScope alike (checkItems_abreast alike items)
  | .empty span => follows_return ()

theorem checkOption_abreast (alike : Likeness twin.place Alike) : ∀ stmt : Option Stmt,
    twin.Follows Alike (checkOption stmt) (checkOption (movedOption twin.place stmt)) Eq
  | none => follows_return ()
  | some stmt => Stmt.check_abreast alike stmt

theorem checkStmts_abreast (alike : Likeness twin.place Alike) : ∀ stmts : List Stmt,
    twin.Follows Alike (checkStmts stmts) (checkStmts (movedStmts twin.place stmts)) Eq
  | [] => follows_return ()
  | stmt :: rest => (Stmt.check_abreast alike stmt).andThen fun _ => checkStmts_abreast alike rest

theorem checkCases_abreast (alike : Likeness twin.place Alike) (selector : Tag) :
    ∀ (seen : List Literal) (cases : List SwitchCase), twin.Follows Alike
      (checkCases selector seen cases) (checkCases selector seen (movedCases twin.place cases)) Eq
  | _, [] => follows_return ()
  | seen, ⟨label, body, span⟩ :: rest =>
    (checkLabel_abreast selector seen label span).andThen fun _ =>
      (checkStmts_abreast alike body).andThen fun _ => checkCases_abreast alike selector _ rest

theorem checkDefault_abreast (alike : Likeness twin.place Alike) : ∀ default : Option DefaultCase,
    twin.Follows Alike (checkDefault default) (checkDefault (movedDefault twin.place default)) Eq
  | none => follows_return ()
  | some ⟨body, _⟩ => checkStmts_abreast alike body

theorem checkItems_abreast (alike : Likeness twin.place Alike) : ∀ items : List BlockItem,
    twin.Follows Alike (checkItems items) (checkItems (movedItems twin.place items)) Eq
  | [] => follows_return ()
  | .var decl :: rest =>
    (VarDecl.declare_abreast alike decl .localVar).andThen fun _ => checkItems_abreast alike rest
  | .stmt stmt :: rest => (Stmt.check_abreast alike stmt).andThen fun _ => checkItems_abreast alike rest

end

section Methods

variable (alike : Likeness twin.place Alike)

include alike

theorem declareParams_abreast (params : List Param) : twin.Follows Alike (declareParams params)
    (declareParams (params.map (·.moved twin.place))) Eq := by
  induction params with
  | nil => exact follows_return ()
  | cons param params ih =>
    rw [List.map_cons, declareParams, declareParams]
    refine follows_get fun state other abreast => ?_
    have typed : other.table.paramType (param.moved twin.place).type =
        state.table.paramType param.type := by
      simp only [SymbolTable.paramType, Param.moved, TypeName.moved_name,
        SymbolTable.typeOf_of_sight (alike.sight abreast.table)]
    have placed : (param.moved twin.place).type.span.orElse (param.moved twin.place).name.span =
        twin.place (param.type.span.orElse param.name.span) := (twin.orElse _ _).symm
    rw [typed, placed]
    exact (follows_declareVar alike param.name _ false .param _).discard.andThen fun _ => ih

theorem MethodDecl.check_abreast (decl : MethodDecl) :
    twin.Follows Alike decl.check (decl.moved twin.place).check Eq := by
  obtain ⟨name, result, params, ⟨items, _⟩, span⟩ := decl
  refine Follows.andThen (follows_modify fun state other abreast => ?_) fun _ => ?_
  · have typed : other.table.resultType (result.map (·.moved twin.place)) =
        state.table.resultType result := by
      cases result with
      | none => rfl
      | some type => exact SymbolTable.typeOf_of_sight (alike.sight abreast.table) type.name
    exact { abreast with expectedResult := typed }
  · refine Follows.andThen (follows_modify fun _ _ abreast => ?_) fun _ =>
      (declareParams_abreast alike params).andThen fun _ =>
      (checkItems_abreast alike items).andThen fun _ =>
      Follows.andThen (follows_modify fun _ _ abreast => ?_) fun _ => follows_modify fun _ _ abreast => ?_
    · exact { abreast with table := alike.opens abreast.table }
    · exact { abreast with table := alike.closes abreast.table }
    · exact { abreast with expectedResult := rfl }

end Methods

section Heads

variable {table other : SymbolTable} (same : ∀ text, other.typeOf text = table.typeOf text)

include same

theorem ConstDecl.declaredType_agree (registry : other.registry = table.registry) (decl : ConstDecl) :
    twin.Agree (decl.declaredType table) ((decl.moved twin.place).declaredType other) Eq := by
  unfold ConstDecl.declaredType
  rw [registry]
  exact (namedValueType_agree same decl.type).andThen fun type =>
    (decl.value.check_agree decl.name.span).andThen fun value =>
    agree_unless (agree_mismatch _ _) (agree_return type)

theorem namedParams_agree (params : List Param) : twin.Agree (namedParams table params)
    (namedParams other (params.map (·.moved twin.place))) Eq := by
  induction params with
  | nil => exact agree_return _
  | cons param params ih =>
    exact (namedValueType_agree same param.type).andThen fun type => ih.andThen fun types =>
      agree_return _

theorem MethodDecl.signature_agree (decl : MethodDecl) :
    twin.Agree (decl.signature table) ((decl.moved twin.place).signature other) Eq := by
  obtain ⟨name, result, params, body, span⟩ := decl
  cases result with
  | none => exact (agree_return Tag.void).andThen fun type =>
      (namedParams_agree same params).andThen fun types => agree_return _
  | some type => exact (namedType_agree same type).andThen fun type =>
      (namedParams_agree same params).andThen fun types => agree_return _

end Heads

end StackCode
