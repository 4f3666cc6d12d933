import StackCode.Proofs.Typing.Checks

namespace StackCode

open Noting Checking

variable {sight : Sight} {taken : List String} {leavable : Bool} {result : Tag}

section Simple

theorem checkAssign_checks (target : Designator) (value : Expr) (span : Span) :
    (checkAssign target value span).Checks (target.annotated ++ value.annotated) CheckState.Kept
      (·.At sight taken leavable result) fun facts _ _ =>
        Stmt.Typed facts result sight leavable (.assign target value span) := by
  refine checks_noteAt (P := fun sight facts _ =>
    Stmt.Typed facts result sight leavable (.assign target value span)) fun table => ?_
  refine ((target.checkWritten_finds table).bind fun left => finds_tally.bind fun start =>
    (checkExpected_finds table value left).bind fun right =>
    (finds_excused start [right]).bind fun silent => finds_guard (finds_mismatch _ _)).of_eq
      (by simp) |>.mono ?_
  rintro facts _ ⟨left, written, _, _, right, given, _, rfl, fine⟩
  refine ⟨left, right, written, given, ?_⟩
  by_cases unknown : left = .unknown
  · exact .inl unknown
  · exact .inr (by simpa [Tag.isUnknown, unknown] using fine)

theorem checkTarget_checks (target : Designator) (fits : Tag → Bool) (problem : Tag → Mismatch)
    (span : Span) : (checkTarget target fits problem span).Checks target.annotated CheckState.Kept
      (·.At sight taken leavable result) fun facts _ _ =>
        ∃ type, target.Writable facts sight type ∧ fits type = true := by
  refine checks_noteAt (P := fun sight facts _ => ∃ type, target.Writable facts sight type ∧
    fits type = true) fun table => ?_
  refine (((target.checkWritten_finds table).demand _ _ _).bind fun _ => finds_pure ()).of_eq
    (List.append_nil _) |>.mono ?_
  rintro facts _ ⟨type, found, _⟩
  exact ⟨type, found⟩

def checkWidth (width : Option Int64) (span : Span) : Noting Unit :=
  match width with
  | some width => if !fitsInt32 width.toInt then mismatch (.writeWidth width) span else pure ()
  | none => pure ()

theorem checkWrite_checks (value : Expr) (width : Option Int64) (span : Span) :
    (checkWrite value width span).Checks value.annotated CheckState.Kept
      (·.At sight taken leavable result) fun facts _ _ =>
        Stmt.Typed facts result sight leavable (.write value width span) := by
  refine checks_noteAt (P := fun sight facts _ =>
    Stmt.Typed facts result sight leavable (.write value width span)) fun table => ?_
  have fits : (checkWidth width span).Finds [] fun _ _ => WidthFits width := by
    cases width with
    | none => exact (finds_pure ()).mono fun _ _ _ => trivial
    | some width =>
      refine (finds_guard (finds_mismatch _ _)).mono fun _ _ fine => ?_
      simpa [WidthFits] using fine
  refine (((Expr.check_finds table value).demand _ _ _).bind fun _ => fits).of_eq
    (List.append_nil _) |>.mono ?_
  rintro facts _ ⟨type, ⟨typed, fine⟩, fits⟩
  exact ⟨type, typed, fine, fits⟩

theorem checkBreak_checks (span : Span) :
    (checkBreak span).Checks [] CheckState.Kept (·.At sight taken leavable result)
      fun _ _ _ => leavable = true := by
  refine checks_get fun start => ?_
  by_cases outside : (start.loopDepth == 0 && start.switchDepth == 0) = true
  · rw [if_pos outside]
    exact (checks_report _ _).mono fun _ _ _ _ _ _ impossible => impossible.elim
  · rw [if_neg outside]
    refine (checks_pure ()).mono ?_
    rintro _ _ _ _ ⟨rfl, here⟩ _ _
    simp only [Bool.and_eq_true, beq_iff_eq] at outside
    exact here.leavable.mpr (by omega)

theorem checkResult_checks (value : Option Expr) (span : Span) :
    (checkResult value span).Checks ((value.map Expr.annotated).getD []) CheckState.Kept
      (·.At sight taken leavable result) fun facts _ _ =>
        Stmt.Typed facts result sight leavable (.returnStmt value span) := by
  refine checks_get fun start => ?_
  cases value with
  | none =>
    dsimp only
    by_cases missing : (start.expectedResult != .void && !start.expectedResult.isUnknown) = true
    · rw [if_pos missing]
      exact (checks_report _ _).mono fun _ _ _ _ _ _ impossible => impossible.elim
    · rw [if_neg missing]
      refine (checks_pure ()).mono ?_
      rintro _ _ _ _ ⟨rfl, here⟩ _ _
      rw [here.expected] at missing
      simpa [Tag.isUnknown, here.known, Stmt.Typed] using missing
  | some value =>
    have given : ∀ table : SymbolTable, (do
        let begun ← Noting.tally
        let type ← checkExpected table value start.expectedResult
        if start.expectedResult == .void then Noting.mismatch .voidResult (span.orElse value.span)
        else if !start.expectedResult.isUnknown && !(← Noting.excused begun [type]) &&
            !table.registry.accepts start.expectedResult type then
          Noting.mismatch (.result type start.expectedResult) (span.orElse value.span) :
            Noting Unit).Finds value.annotated fun facts _ => start.expectedResult ≠ .unknown →
              Stmt.Typed facts start.expectedResult table.sight leavable
                (.returnStmt (some value) span) := by
      intro table
      refine (finds_tally.bind fun begun => (checkExpected_finds table value _).bind (Q := fun type _ _ =>
        start.expectedResult ≠ .unknown → start.expectedResult ≠ .void ∧
          table.registry.accepts start.expectedResult type = true) fun type => ?_).of_eq
        (List.append_nil _) |>.mono ?_
      · by_cases void : start.expectedResult = .void
        · rw [if_pos (by simpa using void)]
          exact (finds_mismatch _ _).mono fun _ _ impossible => impossible.elim
        · rw [if_neg (by simpa using void)]
          refine ((finds_excused begun [type]).bind fun silent =>
            finds_guard (finds_mismatch _ _)).mono ?_
          rintro facts _ ⟨_, rfl, fine⟩ known
          exact ⟨void, by simpa [Tag.isUnknown, known] using fine⟩
      · rintro facts _ ⟨_, _, type, typed, accepted⟩ known
        exact ⟨(accepted known).1, type, typed, (accepted known).2⟩
    have noted : Checks _ _ CheckState.Kept (·.At sight taken leavable result) _ :=
      checks_noteAt (P := fun sight facts _ => start.expectedResult ≠ .unknown →
        Stmt.Typed facts start.expectedResult sight leavable (.returnStmt (some value) span)) given
    refine (noted.of_pre fun _ here => here.2).mono ?_
    rintro _ _ _ _ ⟨rfl, here⟩ _ found
    rw [here.expected] at found
    exact found here.known

theorem checkSelector_checks (selector : Expr) (span : Span) :
    (checkSelector selector span).Checks selector.annotated CheckState.Kept
      (·.At sight taken leavable result) fun facts type _ =>
        selector.Typed facts sight type ∧ type.isSelector = true :=
  checks_noteAt (P := fun sight facts type => selector.Typed facts sight type ∧ type.isSelector = true)
    fun table => (Expr.check_finds table selector).demand _ _ _

theorem label_finds (selector : Tag) (seen : List Literal) (label : Literal) (span : Span) :
    (do
      let type ← label.check span
      if selector.isSelector && type != selector then
        Noting.mismatch (.caseLabel label selector) span
      if seen.any (·.sameValue label) then Noting.report (.duplicateLabel label) span :
        Noting Unit).Finds [] fun _ _ => selector.isSelector = true → label.Labels selector seen := by
  refine ((label.check_finds span).bind fun type => finds_unless (finds_mismatch _ _)
    (finds_guard (finds_report _ _))).mono ?_
  rintro facts _ ⟨type, ⟨fits, rfl⟩, same, new⟩ selects
  refine ⟨fits, by simpa [selects] using same, fun other member => ?_⟩
  simp only [List.any_eq_true, not_exists, not_and, Bool.not_eq_true] at new
  exact new other member

theorem checkLabel_checks (selector : Tag) (seen : List Literal) (label : Literal) (span : Span) :
    (checkLabel selector seen label span).Checks [] CheckState.Kept
      (·.At sight taken leavable result) fun _ _ _ => selector.isSelector = true →
        label.Labels selector seen :=
  checks_noteAt (P := fun _ _ _ => selector.isSelector = true → label.Labels selector seen)
    fun _ => label_finds selector seen label span

end Simple

theorem declareNames_checks (type : Tag) (site : Site) (decl : Span) (names : List Ident)
    {sight : Sight} {taken : List String} :
    (declareNames type site decl names).Checks [] CheckState.Grown
      (·.At sight taken leavable result) fun _ _ after => Fresh taken (names.map (·.name)) ∧
        after.At (sight.declareAll type (names.map (·.name)))
          ((names.map (·.name)).reverse ++ taken) leavable result := by
  induction names generalizing sight taken with
  | nil =>
    exact ((checks_pure ()).of_rel CheckState.Kept.grown).mono fun _ _ _ _ _ _ same =>
      ⟨trivial, same.2⟩
  | cons name names ih =>
    rw [declareNames]
    refine ((checks_introduce type site (.var false) decl fun _ => rfl).bind (fun _ => ih) CheckState.Grown.trans
      fun _ _ _ _ _ declared => declared.2).mono ?_
    rintro _ facts _ after _ _ ⟨_, _, ⟨new, _⟩, fresh, here⟩
    refine ⟨⟨new, fresh⟩, ?_⟩
    simpa [Sight.declareAll] using here

theorem VarDecl.declare_checks (decl : VarDecl) (site : Site) :
    (decl.declare site).Checks [] CheckState.Grown (·.At sight taken leavable result)
      fun _ _ after => sight.typeOf decl.type.name ≠ .unknown ∧
        sight.typeOf decl.type.name ≠ .void ∧ Fresh taken (decl.names.map (·.name)) ∧
        after.At (sight.declareAll (sight.typeOf decl.type.name) (decl.names.map (·.name)))
          ((decl.names.map (·.name)).reverse ++ taken) leavable result := by
  have typed : (note (·.namedValueType decl.type)).Checks [] CheckState.Kept
      (·.At sight taken leavable result) fun _ tag _ => tag = sight.typeOf decl.type.name ∧
        tag ≠ .unknown ∧ tag ≠ .void :=
    checks_noteAt (P := fun sight _ tag => tag = sight.typeOf decl.type.name ∧
      tag ≠ .unknown ∧ tag ≠ .void) fun table => namedValueType_finds table decl.type
  refine (typed.stays.bind (fun tag => declareNames_checks tag site decl.span decl.names)
    CheckState.Grown.trans fun _ _ _ _ _ found => found.2).mono ?_
  rintro _ facts _ after _ _ ⟨_, _, ⟨⟨rfl, known, value⟩, _⟩, fresh, here⟩
  exact ⟨known, value, fresh, here⟩

theorem Condition.check_checks (cond : Condition) :
    (note fun table => cond.check table).Checks cond.annotated CheckState.Kept
      (·.At sight taken leavable result) fun facts _ _ => cond.Typed facts sight :=
  checks_noteAt (P := fun sight facts _ => cond.Typed facts sight) cond.check_finds

mutual

theorem Stmt.check_checks : ∀ (stmt : Stmt) {sight : Sight} {taken : List String} {leavable : Bool},
    stmt.check.Checks stmt.annotated CheckState.Kept (·.At sight taken leavable result)
      fun facts _ _ => stmt.Typed facts result sight leavable
  | .assign target value span, _, _, _ => checkAssign_checks target value span
  | .call callee args span, sight, taken, leavable => by
    have called : (note fun table => callee.checkCall table args span).Checks (exprsAnnotated args)
        CheckState.Kept (·.At sight taken leavable result) fun facts type _ =>
          callee.CallTyped facts sight args type :=
      checks_noteAt (P := fun sight facts type => callee.CallTyped facts sight args type)
        fun table => callee.checkCall_finds table args span
    refine ((called.andThen fun _ => (checks_pure ()).mono fun _ _ _ _ _ _ _ => trivial).mono
      ?_).of_eq (List.append_nil _)
    rintro _ facts _ _ _ _ ⟨type, typed, _⟩
    exact ⟨type, typed⟩
  | .increment target span, _, _, _ | .decrement target span, _, _, _ => by
    refine (checkTarget_checks target _ _ span).mono ?_
    rintro _ _ _ _ _ _ ⟨_, written, fits⟩
    obtain rfl := eq_of_beq fits
    exact written
  | .branch cond onTrue onFalse _, _, _, _ => by
    refine (cond.check_checks.andThen fun _ => (Stmt.check_checks onTrue).andThen fun _ =>
      checkOption_checks onFalse).mono ?_
    rintro _ facts _ _ _ _ ⟨_, test, _, yes, no⟩
    exact ⟨test, yes, no⟩
  | .whileLoop cond body _, _, _, _ => by
    refine (cond.check_checks.andThen fun _ => (Stmt.check_checks body).inLoop).mono ?_
    rintro _ facts _ _ _ _ ⟨_, test, loop⟩
    exact ⟨test, loop⟩
  | .forLoop init none update body _, _, _, _ => by
    refine ((checkOption_checks init).andThen fun _ => (checkOption_checks update).andThen fun _ =>
      (Stmt.check_checks body).inLoop).mono ?_
    rintro _ facts _ _ _ _ ⟨_, init, _, update, body⟩
    exact ⟨init, nofun, update, body⟩
  | .forLoop init (some cond) update body _, _, _, _ => by
    refine ((checkOption_checks init).andThen fun _ => cond.check_checks.andThen fun _ =>
      (checkOption_checks update).andThen fun _ => (Stmt.check_checks body).inLoop).mono ?_
    rintro _ facts _ _ _ _ ⟨_, init, _, test, _, update, body⟩
    exact ⟨init, fun _ same => Option.some.inj same ▸ test, update, body⟩
  | .breakStmt span, _, _, _ => checkBreak_checks span
  | .returnStmt value span, _, _, _ => checkResult_checks value span
  | .read target span, _, _, _ => checkTarget_checks target _ _ span
  | .write value width span, _, _, _ => checkWrite_checks value width span
  | .switch selector cases default span, sight, taken, leavable => by
    have bodies (type : Tag) : (do checkCases type [] cases; checkDefault default).Checks
        (casesAnnotated cases ++ defaultAnnotated default) CheckState.Kept
        (·.At sight taken true result) fun facts _ _ => (type.isSelector = true →
          CasesTyped facts result sight type [] cases) ∧ DefaultTyped facts result sight default := by
      refine ((checkCases_checks cases type []).andThen fun _ => checkDefault_checks default).mono ?_
      rintro _ facts _ _ _ _ ⟨_, typed, fallback⟩
      exact ⟨typed, fallback⟩
    refine ((checkSelector_checks selector span).andThen fun type => (bodies type).inSwitch).mono ?_
    rintro _ facts _ _ _ _ ⟨type, ⟨typed, selects⟩, cases, fallback⟩
    exact ⟨type, typed, selects, cases selects, fallback⟩
  | .block ⟨items, _⟩, _, _, _ => (checkItems_checks items).inScope
  | .empty _, _, _, _ => (checks_pure ()).mono fun _ _ _ _ _ _ _ => trivial

theorem checkOption_checks : ∀ (stmt : Option Stmt) {sight : Sight} {taken : List String}
    {leavable : Bool}, (checkOption stmt).Checks (optionAnnotated stmt) CheckState.Kept
      (·.At sight taken leavable result) fun facts _ _ => OptionTyped facts result sight leavable stmt
  | none, _, _, _ => (checks_pure ()).mono fun _ _ _ _ _ _ _ => trivial
  | some stmt, _, _, _ => Stmt.check_checks stmt

theorem checkStmts_checks : ∀ (stmts : List Stmt) {sight : Sight} {taken : List String},
    (checkStmts stmts).Checks (stmtsAnnotated stmts) CheckState.Kept
      (·.At sight taken true result) fun facts _ _ => StmtsTyped facts result sight stmts
  | [], _, _ => (checks_pure ()).mono fun _ _ _ _ _ _ _ => trivial
  | stmt :: rest, _, _ => by
    refine ((Stmt.check_checks stmt).andThen fun _ => checkStmts_checks rest).mono ?_
    rintro _ facts _ _ _ _ ⟨_, first, others⟩
    exact ⟨first, others⟩

theorem checkCases_checks : ∀ (cases : List SwitchCase) (selector : Tag) (seen : List Literal)
    {sight : Sight} {taken : List String},
    (checkCases selector seen cases).Checks (casesAnnotated cases) CheckState.Kept
      (·.At sight taken true result) fun facts _ _ => selector.isSelector = true →
        CasesTyped facts result sight selector seen cases
  | [], _, _, _, _ => (checks_pure ()).mono fun _ _ _ _ _ _ _ _ => trivial
  | ⟨label, body, span⟩ :: rest, selector, seen, _, _ => by
    refine ((checkLabel_checks selector seen label span).andThen fun _ =>
      (checkStmts_checks body).andThen fun _ => checkCases_checks rest selector _).mono ?_
    rintro _ facts _ _ _ _ ⟨_, labels, _, body, others⟩ selects
    exact ⟨labels selects, body, others selects⟩

theorem checkDefault_checks : ∀ (default : Option DefaultCase) {sight : Sight}
    {taken : List String}, (checkDefault default).Checks (defaultAnnotated default) CheckState.Kept
      (·.At sight taken true result) fun facts _ _ => DefaultTyped facts result sight default
  | none, _, _ => (checks_pure ()).mono fun _ _ _ _ _ _ _ => trivial
  | some ⟨body, _⟩, _, _ => checkStmts_checks body

theorem checkItems_checks : ∀ (items : List BlockItem) {sight : Sight} {taken : List String}
    {leavable : Bool}, (checkItems items).Checks (itemsAnnotated items) CheckState.Grown
      (·.At sight taken leavable result) fun facts _ _ =>
        ItemsTyped facts result sight leavable taken items
  | [], _, _, _ => ((checks_pure ()).of_rel CheckState.Kept.grown).mono fun _ _ _ _ _ _ _ => trivial
  | .var ⟨type, names, span⟩ :: rest, sight, taken, leavable => by
    refine ((VarDecl.declare_checks ⟨type, names, span⟩ .localVar).bind
      (fun _ => checkItems_checks rest) CheckState.Grown.trans
      fun _ _ _ _ _ found => found.2.2.2).mono ?_
    rintro _ facts _ _ _ _ ⟨_, _, ⟨known, value, fresh, _⟩, typed⟩
    exact ⟨known, value, fresh, typed⟩
  | .stmt stmt :: rest, sight, taken, leavable => by
    refine ((Stmt.check_checks stmt).stays.bind (fun _ => checkItems_checks rest)
      CheckState.Grown.trans fun _ _ _ _ _ found => found.2).mono ?_
    rintro _ facts _ _ _ _ ⟨_, _, first, others⟩
    exact ⟨first.1, others⟩

end

end StackCode
