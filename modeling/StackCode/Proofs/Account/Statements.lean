import StackCode.Proofs.Account.Checks

namespace StackCode

open Checking

section Parts

theorem checkCall_accounts (callee : Designator) (args : List Expr) (span : Span) :
    (discard (note fun table => callee.checkCall table args span)).Accounts none [] (exprsLiterals args) []
      nothing :=
  (clears_note fun _ => callee.checkCall_clears args span).accounts.discard

theorem checkTest_accounts (cond : Condition) :
    (note fun table => cond.check table).Accounts none [] cond.literals [] nothing :=
  (clears_note fun _ => cond.check_clears).accounts

theorem checkBreak_accounts (span : Span) : (checkBreak span).Accounts none [span] [] [] nothing := by
  have run (state : CheckState) : (checkBreak span).outcome state =
      ((), if state.depth = 0 then ((report .strayBreak span).outcome state).2 else state) := by
    change (if state.loopDepth == 0 && state.switchDepth == 0 then report .strayBreak span
      else pure ()).outcome state = _
    have same : (state.loopDepth == 0 && state.switchDepth == 0) = true ↔ state.depth = 0 := by
      simp [CheckState.depth]
    rw [if_congr same rfl rfl]
    split <;> rfl
  refine ⟨⟨fun state => ?_, fun state => ?_, fun state => ?_⟩, fun state scoping represents opened => ?_⟩ <;>
    rw [run] <;> split
  · rfl
  · rfl
  · rfl
  · rfl
  · exact ⟨[⟨.strayBreak, span⟩], Array.toList_push, rfl, by simp [Problem.category],
      fun none => absurd none (List.cons_ne_nil _ _)⟩
  · exact ⟨[], (List.append_nil _).symm, rfl, List.forall_mem_nil _, fun _ => List.forall_mem_nil _⟩
  · refine ⟨scoping, represents, .refl opened, ?_⟩
    change ((state.errors.push _).toList.filter _) = _
    rw [Array.toList_push, List.filter_append]
    rfl
  · exact ⟨scoping, represents, .refl opened, (List.append_nil _).symm⟩

theorem checkMissing_accounts (span : Span) : (checkResult none span).Accounts none [] [] [] nothing := by
  refine accounts_get.after fun state => ?_
  dsimp only
  split
  · exact accounts_report rfl span
  · exact accounts_pure ()

theorem checkLabel_accounts (selector : Tag) (seen : List Literal) (label : Literal) (span : Span) :
    (checkLabel selector seen label span).Accounts none [] [label] [] nothing := by
  have new : (if seen.any (·.sameValue label) then Noting.report (.duplicateLabel label) span
      else pure ()).Mild [] := by
    split
    · exact Noting.mild_report rfl span
    · exact fun notes => ⟨[], (List.append_nil _).symm, nofun, fun _ => nofun⟩
  refine accounts_of_mild fun state => ⟨_, rfl, ?_⟩
  have value : (label.check span).Clears state.table [] [label] := label.check_clears span
  refine value.mild.bind fun type => ?_
  by_cases fits : (selector.isSelector && type != selector) = true
  · rw [if_pos fits]
    exact (Noting.mild_report rfl span).bind fun _ => new
  · rw [if_neg fits]
    exact new

theorem declareNames_accounts (type : Tag) (site : Site) (decl : Span) (names : List Ident) :
    (declareNames type site decl names).Accounts none [] [] (names.map (⟨·, site, decl⟩))
      (sift · (names.map (⟨·, site, decl⟩))) := by
  induction names with
  | nil => exact accounts_pure ()
  | cons name names ih =>
    have declares : (TableStep.declareVar name type false site decl).declaration? =
        some (none, ⟨name, site, decl⟩) := rfl
    exact (accounts_introduce declares).discard.bind fun _ => ih

theorem VarDecl.declare_accounts (decl : VarDecl) (site : Site) :
    (decl.declare site).Accounts none [] [] (decl.declarations site) (sift · (decl.declarations site)) :=
  (clears_note fun _ => namedValueType_clears decl.type).accounts.after fun _ =>
    declareNames_accounts _ _ _ _

end Parts

section Statements

mutual

theorem Stmt.check_accounts : ∀ stmt : Stmt,
    stmt.check.Accounts none stmt.strays stmt.literals [] fun _ => stmt.sifted
  | .assign target value span => (checkAssign_clears target value span).accounts
  | .call callee args span => checkCall_accounts callee args span
  | .increment target span | .decrement target span | .read target span =>
    (checkTarget_clears target _ _ span).accounts
  | .branch cond onTrue onFalse _ =>
    (checkTest_accounts cond).bind fun _ => onTrue.check_accounts.bind fun _ =>
      checkOption_accounts onFalse
  | .whileLoop cond body _ => (checkTest_accounts cond).bind fun _ => body.check_accounts.inLoop
  | .forLoop init cond update body _ => by
    have rest : (do
        checkOption update
        enterLoop
        body.check
        leaveLoop : Checking Unit).Accounts none (optionStrays update)
        (optionLiterals update ++ body.literals) [] fun _ => optionSifted update ++ body.sifted := by
      have whole := (checkOption_accounts update).bind fun _ => body.check_accounts.inLoop
      rwa [List.append_nil] at whole
    cases cond with
    | none => exact (checkOption_accounts init).bind fun _ => rest
    | some cond =>
      exact (checkOption_accounts init).bind fun _ => (checkTest_accounts cond).bind fun _ => rest
  | .breakStmt span => checkBreak_accounts span
  | .returnStmt none span => checkMissing_accounts span
  | .returnStmt (some value) span => (checkResult_clears value span).accounts
  | .write value width span => (checkWrite_clears value width span).accounts
  | .switch selector cases default span => by
    obtain ⟨_, bodies⟩ := checkCases_accounts cases
    obtain ⟨_, last⟩ := checkDefault_accounts default
    exact (checkSelector_clears selector span).accounts.bind fun type =>
      ((bodies type []).bind fun _ => last).inSwitch
  | .block ⟨items, _⟩ => (checkItems_accounts items).inScope
  | .empty _ => accounts_pure ()

theorem checkOption_accounts : ∀ stmt : Option Stmt, (checkOption stmt).Accounts none
    (optionStrays stmt) (optionLiterals stmt) [] fun _ => optionSifted stmt
  | none => accounts_pure ()
  | some stmt => stmt.check_accounts

theorem checkStmts_accounts : ∀ stmts : List Stmt, ∃ spans,
    (checkStmts stmts).Accounts none spans (stmtsLiterals stmts) [] fun _ => stmtsSifted stmts
  | [] => ⟨_, accounts_pure ()⟩
  | stmt :: rest => by
    obtain ⟨_, others⟩ := checkStmts_accounts rest
    exact ⟨_, stmt.check_accounts.bind fun _ => others⟩

theorem checkCases_accounts : ∀ cases : List SwitchCase, ∃ spans, ∀ selector seen,
    (checkCases selector seen cases).Accounts none spans (casesLiterals cases) [] fun _ => casesSifted cases
  | [] => ⟨[], fun _ _ => accounts_pure ()⟩
  | ⟨label, body, span⟩ :: rest => by
    obtain ⟨spans, first⟩ := checkStmts_accounts body
    obtain ⟨more, others⟩ := checkCases_accounts rest
    refine ⟨spans ++ more, fun selector seen => ?_⟩
    exact (checkLabel_accounts selector seen label span).bind fun _ => first.bind fun _ =>
      others selector (label :: seen)

theorem checkDefault_accounts : ∀ default : Option DefaultCase, ∃ spans,
    (checkDefault default).Accounts none spans (defaultLiterals default) [] fun _ => defaultSifted default
  | none => ⟨_, accounts_pure ()⟩
  | some ⟨body, _⟩ => checkStmts_accounts body

theorem checkItems_accounts : ∀ items : List BlockItem, (checkItems items).Accounts none
    (itemsStrays items) (itemsLiterals items) (items.flatMap BlockItem.declarations) (itemsSifted · items)
  | [] => accounts_pure ()
  | .var decl :: rest => (decl.declare_accounts .localVar).bind fun _ => checkItems_accounts rest
  | .stmt stmt :: rest => stmt.check_accounts.bind fun _ => checkItems_accounts rest

end

end Statements

section Programs

theorem sift_append (decls first second : List Declaration) :
    sift decls (first ++ second) = sift decls first ++ sift (first.foldl accept decls) second := by
  induction first generalizing decls with
  | nil => rfl
  | cons decl rest ih =>
    rw [List.cons_append, sift, sift, ih]
    rfl

theorem declareParams_accounts (params : List Param) :
    (declareParams params).Accounts none [] [] (params.map Param.declaration)
      (sift · (params.map Param.declaration)) := by
  induction params with
  | nil => exact accounts_pure ()
  | cons param params ih =>
    refine accounts_get.after fun state => ?_
    have declares : (TableStep.declareVar param.name (state.table.paramType param.type) false .param
        (param.type.span.orElse param.name.span)).declaration? = some (none, param.declaration) := rfl
    exact (accounts_introduce declares).discard.bind fun _ => ih

theorem MethodDecl.check_accounts (decl : MethodDecl) : decl.check.Accounts none
    (itemsStrays decl.body.items) (itemsLiterals decl.body.items) [] fun _ => decl.sifted := by
  have body : (do declareParams decl.params; checkItems decl.body.items).Accounts none
      (itemsStrays decl.body.items) (itemsLiterals decl.body.items) _ _ :=
    (declareParams_accounts decl.params).bind fun _ => checkItems_accounts decl.body.items
  have expects (result : CheckState → Tag) : (modify fun state =>
      { state with expectedResult := result state } : Checking Unit).Accounts none [] [] [] nothing :=
    accounts_of_same fun _ => ⟨_, rfl⟩
  have whole := (expects fun state => state.table.resultType decl.result).after fun _ =>
    body.inScope.then fun _ => expects fun _ => .void
  simp only [bind_assoc] at whole
  exact whole

theorem checkMethods_accounts (items : List Item) : (checkMethods items).Accounts none
    (items.flatMap Item.strays) (items.flatMap Item.literals) [] fun _ => items.flatMap Item.sifted := by
  induction items with
  | nil => exact accounts_pure ()
  | cons item rest ih =>
    rw [List.flatMap_cons, List.flatMap_cons, List.flatMap_cons]
    cases item with
    | method decl => exact decl.check_accounts.bind fun _ => ih
    | const decl | vars decl | classDecl decl => exact ih

theorem declareClasses_accounts (items : List Item) : (declareClasses items).Accounts none [] []
    (items.flatMap Item.classDeclarations) (sift · (items.flatMap Item.classDeclarations)) := by
  induction items with
  | nil => exact accounts_pure _
  | cons item rest ih =>
    cases item with
    | classDecl decl =>
      have declares : (TableStep.declareClass decl.name decl.span).declaration? =
          some (none, ⟨decl.name, .classDecl, decl.span⟩) := rfl
      exact (accounts_introduce declares).bind fun _ => ih.then fun _ => accounts_pure _
    | const decl | vars decl | method decl => exact ih

theorem declareFieldNames_accounts (className : String) (type : Tag) (decl : Span) (names : List Ident) :
    (declareFieldNames className type decl names).Accounts (some className) [] []
      (names.map (⟨·, .field, decl⟩)) (sift · (names.map (⟨·, .field, decl⟩))) := by
  induction names with
  | nil => exact accounts_pure ()
  | cons name names ih =>
    have declares : (TableStep.declareField className name type decl).declaration? =
        some (some className, ⟨name, .field, decl⟩) := rfl
    exact (accounts_introduce declares).discard.bind fun _ => ih

theorem ClassDecl.declareFields_accounts (decl : ClassDecl) :
    decl.declareFields.Accounts (some decl.name.name) [] [] decl.members (sift · decl.members) := by
  unfold ClassDecl.declareFields ClassDecl.members
  induction decl.fields with
  | nil => exact accounts_pure ()
  | cons field fields ih =>
    rw [List.flatMap_cons]
    simp only [sift_append]
    exact (clears_note fun _ => namedValueType_clears field.type).accounts.after fun _ =>
      (declareFieldNames_accounts _ _ _ _).bind fun _ => ih

theorem namedParams_clears (table : SymbolTable) (params : List Param) :
    ∃ uses, (namedParams table params).Clears table uses [] := by
  induction params with
  | nil => exact ⟨_, Noting.clears_pure _⟩
  | cons param params ih =>
    obtain ⟨uses, ih⟩ := ih
    exact ⟨_, (namedValueType_clears param.type).bind fun _ => ih.then fun _ => Noting.clears_pure _⟩

theorem Item.declare_accounts (item : Item) : item.declare.Accounts none [] item.constants
    item.valueDeclarations (sift · item.valueDeclarations) := by
  cases item with
  | classDecl decl => exact accounts_pure ()
  | vars decl => exact decl.declare_accounts .global
  | const decl =>
    have type (table : SymbolTable) : (decl.declaredType table).Clears table [.written decl.type]
        [decl.value] :=
      (namedValueType_clears decl.type).bind fun type =>
        (decl.value.check_clears decl.name.span).then fun _ =>
          Noting.clears_unless (Noting.clears_mismatch _ _) (Noting.clears_pure type)
    have declares (type : Tag) : (TableStep.declareVar decl.name type true .constant
        decl.span).declaration? = some (none, ⟨decl.name, .constant, decl.span⟩) := rfl
    exact (clears_note type).accounts.bind fun type => (accounts_introduce (declares type)).discard
  | method decl =>
    have signature (table : SymbolTable) : (decl.signature table).Mild [] := by
      obtain ⟨_, params⟩ := namedParams_clears table decl.params
      unfold MethodDecl.signature
      cases decl.result with
      | none => exact (params.then fun _ => Noting.clears_pure _).mild
      | some type =>
        exact ((namedType_clears type).bind fun _ => params.then fun _ => Noting.clears_pure _).mild
    have declares (result : Tag) (params : List Tag) : (TableStep.declareMethod decl.name result params
        decl.span).declaration? = some (none, ⟨decl.name, .method, decl.span⟩) := rfl
    exact (accounts_of_mild fun state => ⟨_, rfl, signature state.table⟩).after fun signature =>
      (accounts_introduce (declares signature.1 signature.2)).discard

theorem declareItems_accounts (items : List Item) : (items.forM Item.declare).Accounts none []
    (items.flatMap Item.constants) (items.flatMap Item.valueDeclarations)
    (sift · (items.flatMap Item.valueDeclarations)) := by
  induction items with
  | nil => exact accounts_pure ()
  | cons item items ih =>
    rw [List.flatMap_cons, List.flatMap_cons]
    simp only [sift_append]
    exact item.declare_accounts.bind fun _ => ih

theorem declareFields_remarks (classes : List ClassDecl) :
    (classes.forM ClassDecl.declareFields).Remarks [] [] := by
  induction classes with
  | nil =>
    have accounts : (pure () : Checking Unit).Accounts none [] [] [] nothing := accounts_pure ()
    exact accounts.toRemarks
  | cons decl classes ih => exact decl.declareFields_accounts.toRemarks.bind fun _ => ih

def Program.walked (program : Program) : CheckState :=
  ((do
    let classes ← declareClasses program.items
    classes.forM ClassDecl.declareFields
    program.items.forM Item.declare
    checkMethods program.items : Checking Unit).outcome { table := SymbolTable.openScope {} }).2

theorem Program.check_walked (program : Program) (entry : String) : program.check entry =
    if program.walked.table.hasEntry entry then program.walked
    else { program.walked with
      errors := program.walked.errors.push ⟨.missingEntry entry, program.span⟩ } :=
  outcome_checkEntry entry program.span program.walked

theorem Program.walked_remarks (program : Program) :
    program.walked.misuses = strayDiagnostics program.strays ∧
      (∀ d ∈ program.walked.errors, d.problem.category ≠ .missingEntryPoint) ∧
      (program.walked.errors = #[] → ∀ literal ∈ program.literals, literal.Fits) := by
  have whole := (declareClasses_accounts program.items).toRemarks.bind fun classes =>
    (declareFields_remarks classes).bind fun _ =>
      (declareItems_accounts program.items).toRemarks.bind fun _ =>
        (checkMethods_accounts program.items).toRemarks
  obtain ⟨more, added, stray, known, fits⟩ := whole.reports { table := SymbolTable.openScope {} }
  have errors : program.walked.errors.toList = more := added
  refine ⟨?_, fun d member => known d ?_, fun clean => fits ?_⟩
  · rw [Notes.misuses, errors]
    exact stray
  · rwa [← errors, Array.mem_toList_iff]
  · rw [← errors, clean]

theorem Program.check_remarks (program : Program) (entry : String) :
    (program.check entry).misuses = strayDiagnostics program.strays ∧
      ((program.check entry).errors = #[] → ∀ literal ∈ program.literals, literal.Fits) := by
  obtain ⟨stray, _, fits⟩ := program.walked_remarks
  rw [program.check_walked entry, ← stray]
  split
  · exact ⟨rfl, fits⟩
  · refine ⟨?_, fun clean => absurd clean (Array.push_ne_empty)⟩
    simp [Notes.misuses, Problem.category]

theorem Program.misuses_check (program : Program) (entry : String) :
    (program.check entry).misuses = strayDiagnostics program.strays :=
  (program.check_remarks entry).1

end Programs

end StackCode
