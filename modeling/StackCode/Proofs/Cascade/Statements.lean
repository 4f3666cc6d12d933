import StackCode.Proofs.Balance.Scopes
import StackCode.Proofs.Breaks.Agreement
import StackCode.Proofs.Cascade.Declarations
import StackCode.Proofs.Tree.Below

namespace StackCode

open Noting Checking

def Stmt.ownNodes : Stmt → List Node
  | .assign target value _ => target.nodes ++ value.nodes
  | .call callee args _ => callee.nodes ++ exprsNodes args
  | .increment target _ | .decrement target _ | .read target _ => target.nodes
  | .branch cond _ _ _ | .whileLoop cond _ _ => cond.nodes
  | .forLoop _ cond _ _ _ => (cond.map Condition.nodes).getD []
  | .returnStmt value _ => (value.map Expr.nodes).getD []
  | .write value _ _ => value.nodes
  | .switch selector _ _ _ => selector.nodes
  | .breakStmt _ | .block _ | .empty _ => []

theorem Stmt.ownNodes_closed (stmt : Stmt) : Closed stmt.ownNodes := by
  cases stmt with
  | assign target value span => exact target.closed.append value.closed
  | call callee args span => exact callee.closed.append (exprs_closed args)
  | increment target span | decrement target span | read target span => exact target.closed
  | branch cond onTrue onFalse span | whileLoop cond body span => exact cond.closed
  | forLoop init cond update body span =>
    cases cond with
    | none => exact closed_nil
    | some cond => exact cond.closed
  | returnStmt value span =>
    cases value with
    | none => exact closed_nil
    | some value => exact value.closed
  | write value width span => exact value.closed
  | switch selector cases default span => exact selector.closed
  | breakStmt span | block block | empty span => exact closed_nil

def Visit.Plain (visit : Visit CheckState) : Prop :=
  ∀ node ∈ visit.stmt.ownNodes, node.Plain visit.state.table

theorem Node.Plain.of_sight {table other : SymbolTable} (same : other.sight = table.sight) {node : Node}
    (plain : node.Plain table) : node.Plain other := by
  refine ⟨plain.1, ?_⟩
  have fits := plain.2
  unfold Node.fits at fits ⊢
  split at fits
  · rename_i first rest _
    have type : first.type other = first.type table := type_of_check same first {}
    rwa [type]
  · rename_i elem sizes _
    rwa [← other.sight_typeOf, same, table.sight_typeOf]
  · trivial

namespace Logging

variable {α β : Type} {nodes : List Node} {x : Logging CheckState α}

/-- A part of the check in which, where `nodes` are plain at its start and every statement is plain when
the check comes to it, the reports are as they should be; the tables are so in any case. -/
structure Tidy (nodes : List Node) (x : Logging CheckState α) : Prop where
  held : ∀ log, log.state.table.Held → (x.run log).2.state.table.Held
  visits : ∀ log, log.state.table.Held → ∃ visits, (x.run log).2.visits = log.visits ++ visits ∧
    (∀ visit ∈ visits, visit.state.table.Held) ∧
    ((∀ node ∈ nodes, node.Plain log.state.table) → (∀ visit ∈ visits, visit.Plain) →
      log.state.toNotes.Leads (x.run log).2.state.toNotes)

theorem tidy_pure (a : α) : (pure a : Logging CheckState α).Tidy nodes :=
  ⟨fun _ held => held, fun _ _ => ⟨[], (List.append_nil _).symm, fun _ member =>
    absurd member List.not_mem_nil, fun _ _ => Notes.Leads.refl _⟩⟩

theorem tidy_unlogged {f : Checking α} (held : ∀ state, state.table.Held → (f.outcome state).2.table.Held)
    (leads : ∀ state : CheckState, state.table.Held → (∀ node ∈ nodes, node.Plain state.table) →
      state.toNotes.Leads (f.outcome state).2.toNotes) : Tidy nodes (unlogged f) :=
  ⟨fun log => held log.state, fun log known => ⟨[], (List.append_nil _).symm, fun _ member =>
    absurd member List.not_mem_nil, fun plain _ => leads log.state known plain⟩⟩

theorem tidy_of_tidies {f : Checking α}
    (tidies : ∀ state, state.table.Held → f.Tidies state fun _ _ => True) : Tidy nodes (unlogged f) :=
  tidy_unlogged (fun state held => (tidies state held).2.1) fun state held _ => (tidies state held).1

theorem tidy_note {f : SymbolTable → Noting α}
    (tells : ∀ table : SymbolTable, table.Held → (∀ node ∈ nodes, node.Plain table) →
      ∀ notes, (f table).Tells notes fun _ _ => True) : Tidy nodes (unlogged (note f)) :=
  tidy_unlogged (fun _ held => held) fun state held plain => (tells state.table held plain _).1

theorem tidy_modify {f : CheckState → CheckState} (table : ∀ state, (f state).table = state.table)
    (notes : ∀ state, (f state).toNotes = state.toNotes) :
    Tidy nodes (unlogged (modify f : Checking PUnit)) :=
  tidy_unlogged (fun state held => (table state).symm ▸ held) fun state _ _ =>
    (notes state).symm ▸ Notes.Leads.refl _

/-- The nodes are needed by the first part, or by the second if the first leaves the same in sight. -/
theorem Tidy.chain {first second : List Node} {k : α → Logging CheckState β} (one : Tidy first x)
    (two : ∀ a, Tidy second (k a)) (before : first ⊆ nodes)
    (through : ∀ log, log.state.table.Held → (∀ node ∈ nodes, node.Plain log.state.table) →
      ∀ node ∈ second, node.Plain (x.run log).2.state.table) : Tidy nodes (x >>= k) := by
  refine ⟨fun log held => (two _).held _ (one.held log held), fun log held => ?_⟩
  obtain ⟨early, begun, known, leads⟩ := one.visits log held
  obtain ⟨late, ended, known', leads'⟩ := (two (x.run log).1).visits _ (one.held log held)
  refine ⟨early ++ late, ?_, ?_, fun plain visited => ?_⟩
  · have run : ((x >>= k).run log).2.visits = ((k (x.run log).1).run (x.run log).2).2.visits := rfl
    rw [run, ended, begun, List.append_assoc]
  · exact List.forall_mem_append.mpr ⟨known, known'⟩
  · obtain ⟨plainly, later⟩ := List.forall_mem_append.mp visited
    exact (leads (fun node member => plain node (before member)) plainly).trans
      (leads' (through log held plain) later)

theorem Tidy.bind {k : α → Logging CheckState β} (one : Tidy nodes x) (two : ∀ a, Tidy [] (k a)) :
    Tidy nodes (x >>= k) :=
  one.chain two (List.Subset.refl _) fun _ _ _ _ member => absurd member List.not_mem_nil

theorem Tidy.come {path : Path} {stmt : Stmt} (tidy : Tidy stmt.ownNodes x) :
    Tidy [] (comes path stmt >>= fun _ => x) := by
  refine ⟨fun log held => tidy.held { log with visits := log.visits ++ [⟨path, stmt, log.state⟩] } held,
    fun log held => ?_⟩
  obtain ⟨visits, more, known, leads⟩ :=
    tidy.visits { log with visits := log.visits ++ [⟨path, stmt, log.state⟩] } held
  refine ⟨⟨path, stmt, log.state⟩ :: visits, ?_, List.forall_mem_cons.mpr ⟨held, known⟩, ?_⟩
  · refine more.trans ?_
    simp
  · intro _ visited
    obtain ⟨own, others⟩ := List.forall_mem_cons.mp visited
    exact leads own others

end Logging

section Leaves

open Logging

theorem checkAssign_tidy (target : Designator) (value : Expr) (span : Span) :
    Tidy (target.nodes ++ value.nodes) (unlogged (checkAssign target value span)) := by
  refine tidy_note fun table held plain notes => ?_
  obtain ⟨first, second⟩ := List.forall_mem_append.mp plain
  refine (target.checkWritten_tells held first notes).bind fun left mid _ _ => tells_tally ?_
  refine (checkExpected_tells held second left mid).bind fun right after _ given => ?_
  refine tells_excused (tells_guard fun wrong => ?_)
  simp only [Bool.and_eq_true, Bool.not_eq_true'] at wrong
  have apart : .unknown ∉ [right] :=
    Notes.unknown_notMem (List.forall_mem_singleton.mpr given.explains) wrong.1.1
  have definite : .unknown ∉ (Mismatch.assign right left).types := by
    rw [Mismatch.types, List.mem_cons, List.mem_singleton, not_or]
    refine ⟨fun same => apart (List.mem_singleton.mpr same), ?_⟩
    rintro rfl
    exact absurd wrong.1.2 (by decide)
  exact tells_remark _ definite _

theorem checkTarget_tidy (target : Designator) (fits : Tag → Bool) {problem : Tag → Mismatch}
    (named : ∀ type, (problem type).types = [type]) (span : Span) :
    Tidy target.nodes (unlogged (checkTarget target fits problem span)) :=
  tidy_note fun _ held plain notes => ((target.checkWritten_tells held plain notes).demand named _ _).bind
    fun _ _ _ _ => tells_pure trivial

theorem checkWrite_tidy (value : Expr) (width : Option Int64) (span : Span) :
    Tidy value.nodes (unlogged (checkWrite value width span)) := by
  refine tidy_note fun table held plain notes =>
    ((value.check_tells held plain notes).demand (fun _ => rfl) _ _).bind fun _ _ _ _ => ?_
  cases width with
  | none => exact tells_pure trivial
  | some width => exact tells_guard fun _ => tells_remark _ (by simp [Mismatch.types]) _

theorem checkSelector_tidy (selector : Expr) (span : Span) :
    Tidy selector.nodes (unlogged (checkSelector selector span)) :=
  tidy_note fun _ held plain notes => (selector.check_tells held plain notes).demand (fun _ => rfl) _ _

theorem checkLabel_tidy (selector : Tag) (seen : List Literal) (label : Literal) (span : Span) :
    Tidy [] (unlogged (checkLabel selector seen label span)) := by
  refine tidy_note fun table held _ notes => ?_
  refine (label.check_remarks span notes).bind fun type mid _ _ => ?_
  refine tells_unless (fun wrong => ?_) fun after _ => tells_guard fun _ => ?_
  · have definite : .unknown ∉ (Mismatch.caseLabel label selector).types := by
      rw [Mismatch.types, List.mem_singleton]
      rintro rfl
      exact absurd wrong (by simp [Tag.isSelector, Tag.unknown, Tag.int, Tag.char])
    exact tells_remark _ definite _
  · exact (tells_report (by simp [Problem.types]) _).mono fun _ _ _ _ => trivial

theorem checkBreak_tidy (span : Span) : Tidy [] (unlogged (checkBreak span)) := by
  refine tidy_of_tidies fun state held => tidies_get ?_
  split
  · have told : (Noting.report .strayBreak span).Tells state.toNotes fun _ _ => True :=
      (tells_report (by simp [Problem.types]) _).mono fun _ _ _ _ => trivial
    exact (tidies_note held told).mono fun _ _ _ => trivial
  · exact tidies_pure held trivial

theorem checkResult_tidy (value : Option Expr) (span : Span) :
    Tidy ((value.map Expr.nodes).getD []) (unlogged (checkResult value span)) := by
  cases value with
  | none =>
    refine tidy_of_tidies fun state held => tidies_get ?_
    dsimp only
    split
    · rename_i wrong
      have definite : .unknown ∉ (Mismatch.missingResult state.expectedResult).types := by
        rw [Mismatch.types, List.mem_singleton]
        intro same
        simp [← same, Tag.isUnknown] at wrong
      have told : (mismatch (.missingResult state.expectedResult) span).Tells state.toNotes
          fun _ _ => True := tells_remark _ definite span
      exact (tidies_note held told).mono fun _ _ _ => trivial
    · exact tidies_pure held trivial
  | some value =>
    refine tidy_unlogged (fun _ held => held) fun state held plain => ?_
    have told : (do
        let start ← Noting.tally
        let type ← checkExpected state.table value state.expectedResult
        if state.expectedResult == .void then Noting.mismatch .voidResult (span.orElse value.span)
        else if !state.expectedResult.isUnknown && !(← Noting.excused start [type]) &&
            !state.table.registry.accepts state.expectedResult type then
          Noting.mismatch (.result type state.expectedResult) (span.orElse value.span) :
        Noting Unit).Tells state.toNotes fun _ _ => True := by
      refine tells_tally ((checkExpected_tells held plain _ _).bind fun type after _ given => ?_)
      split
      · exact tells_remark _ (by simp [Mismatch.types]) _
      · refine tells_excused (tells_guard fun wrong => ?_)
        simp only [Bool.and_eq_true, Bool.not_eq_true'] at wrong
        have apart : .unknown ∉ [type] :=
          Notes.unknown_notMem (List.forall_mem_singleton.mpr given.explains) wrong.1.2
        have definite : .unknown ∉ (Mismatch.result type state.expectedResult).types := by
          rw [Mismatch.types, List.mem_cons, List.mem_singleton, not_or]
          refine ⟨fun same => apart (List.mem_singleton.mpr same), fun same => ?_⟩
          rw [← same] at wrong
          exact absurd wrong.1.1 (by decide)
        exact tells_remark _ definite _
    exact told.1

end Leaves

section Walk

open Logging

theorem tidy_openScope : Tidy [] (unlogged openScope) :=
  tidy_unlogged (fun _ held => held.openScope) fun _ _ _ => Notes.Leads.refl _

theorem tidy_closeScope : Tidy [] (unlogged closeScope) :=
  tidy_unlogged (fun _ held => held.closeScope) fun _ _ _ => Notes.Leads.refl _

theorem Condition.tidy (cond : Condition) : Tidy cond.nodes (unlogged (note fun table => cond.check table)) :=
  tidy_note fun _ held plain notes => cond.check_tells held plain notes

theorem Logging.Tidy.inLoop {x : Logging CheckState Unit} (tidy : Tidy [] x) :
    Tidy [] (do unlogged enterLoop; x; unlogged leaveLoop) := by
  have enters : Tidy [] (unlogged enterLoop) := tidy_modify (fun _ => rfl) fun _ => rfl
  have leaves : Tidy [] (unlogged leaveLoop) := tidy_modify (fun _ => rfl) fun _ => rfl
  exact enters.bind fun _ => tidy.bind fun _ => leaves

theorem plain_behind {init : Option Stmt} {path : Path} {nodes : List Node} (log : Logged CheckState)
    (held : log.state.table.Held) (plain : ∀ node ∈ nodes, node.Plain log.state.table) :
    ∀ node ∈ nodes, node.Plain ((checkOptionLogged path init).run log).2.state.table := by
  have erased := congrArg Prod.snd (@checkOptionLogged_erases path init log)
  have kept := (checkOption_kept log.state init).table.sight held.recorded
  intro node member
  refine (plain node member).of_sight ?_
  dsimp only at erased
  rw [erased, kept]

mutual

theorem Stmt.checkLogged_tidy {path : Path} : ∀ stmt : Stmt, Tidy [] (stmt.checkLogged path)
  | .branch cond onTrue onFalse _ =>
    .come <| cond.tidy.bind fun _ => onTrue.checkLogged_tidy.bind fun _ =>
      checkOptionLogged_tidy onFalse
  | .whileLoop cond body _ => .come <| cond.tidy.bind fun _ => body.checkLogged_tidy.inLoop
  | .forLoop init cond update body _ => by
    have rest : Tidy [] (do
        checkOptionLogged (.update :: path) update
        unlogged enterLoop
        body.checkLogged (.body :: path)
        unlogged leaveLoop) :=
      (checkOptionLogged_tidy update).bind fun _ => body.checkLogged_tidy.inLoop
    refine .come ?_
    cases cond with
    | none => exact (checkOptionLogged_tidy init).bind fun _ => rest
    | some cond =>
      have tested := cond.tidy.bind fun _ => rest
      exact (checkOptionLogged_tidy init).chain (fun _ => tested) (List.nil_subset _) plain_behind
  | .switch selector cases default span => by
    have enters : Tidy [] (unlogged enterSwitch) := tidy_modify (fun _ => rfl) fun _ => rfl
    have leaves : Tidy [] (unlogged leaveSwitch) := tidy_modify (fun _ => rfl) fun _ => rfl
    exact .come <| (checkSelector_tidy selector span).bind fun type => enters.bind fun _ =>
      (checkCasesLogged_tidy type cases).bind fun _ =>
        (checkDefaultLogged_tidy default).bind fun _ => leaves
  | .block ⟨items, _⟩ =>
    .come <| tidy_openScope.bind fun _ => (checkItemsLogged_tidy items).bind fun _ => tidy_closeScope
  | .assign target value span => .come (checkAssign_tidy target value span)
  | .call callee args span => by
    refine .come (tidy_unlogged (fun _ held => held) fun state held plain => ?_)
    exact (callee.checkCall_tells held (List.forall_mem_append.mp plain).2 span _).1
  | .increment target span | .decrement target span | .read target span =>
    .come (checkTarget_tidy target _ (fun _ => rfl) span)
  | .write value width span => .come (checkWrite_tidy value width span)
  | .breakStmt span => .come (checkBreak_tidy span)
  | .returnStmt value span => .come (checkResult_tidy value span)
  | .empty _ => .come (tidy_of_tidies fun _ held => tidies_pure held trivial)

theorem checkOptionLogged_tidy {path : Path} : ∀ stmt : Option Stmt, Tidy [] (checkOptionLogged path stmt)
  | none => tidy_pure ()
  | some stmt => stmt.checkLogged_tidy

theorem checkStmtsLogged_tidy {path : Path} {step : Nat → Step} : ∀ (stmts : List Stmt) {i : Nat},
    Tidy [] (checkStmtsLogged path step i stmts)
  | [], _ => tidy_pure ()
  | stmt :: rest, _ => stmt.checkLogged_tidy.bind fun _ => checkStmtsLogged_tidy rest

theorem checkCasesLogged_tidy {path : Path} (selector : Tag) : ∀ (cases : List SwitchCase) {i : Nat}
    {seen : List Literal}, Tidy [] (checkCasesLogged path selector i seen cases)
  | [], _, _ => tidy_pure ()
  | ⟨label, body, span⟩ :: rest, _, seen =>
    (checkLabel_tidy selector seen label span).bind fun _ =>
      (checkStmtsLogged_tidy body).bind fun _ => checkCasesLogged_tidy selector rest

theorem checkDefaultLogged_tidy {path : Path} : ∀ default : Option DefaultCase,
    Tidy [] (checkDefaultLogged path default)
  | none => tidy_pure ()
  | some ⟨body, _⟩ => checkStmtsLogged_tidy body

theorem checkItemsLogged_tidy {path : Path} : ∀ (items : List BlockItem) {i : Nat},
    Tidy [] (checkItemsLogged path i items)
  | [], _ => tidy_pure ()
  | .var decl :: rest, _ => by
    have declares : Tidy [] (unlogged (decl.declare .localVar)) :=
      tidy_of_tidies fun _ held => decl.declare_tidies .localVar held
    exact declares.bind fun _ => checkItemsLogged_tidy rest
  | .stmt stmt :: rest, _ => stmt.checkLogged_tidy.bind fun _ => checkItemsLogged_tidy rest

end

theorem MethodDecl.checkLogged_tidy (decl : MethodDecl) (i : Nat) : Tidy [] (decl.checkLogged i) := by
  have expects (result : CheckState → Tag) : Tidy [] (unlogged (modify fun state =>
      { state with expectedResult := result state } : Checking PUnit)) :=
    tidy_modify (fun _ => rfl) fun _ => rfl
  have declares : Tidy [] (unlogged (declareParams decl.params)) :=
    tidy_of_tidies fun _ held => declareParams_tidies decl.params held
  exact (expects _).bind fun _ => tidy_openScope.bind fun _ => declares.bind fun _ =>
    (checkItemsLogged_tidy decl.body.items).bind fun _ => tidy_closeScope.bind fun _ => expects _

theorem checkMethodsLogged_tidy (items : List Item) (i : Nat) : Tidy [] (checkMethodsLogged i items) := by
  induction items generalizing i with
  | nil => exact tidy_pure ()
  | cons item rest ih =>
    cases item with
    | method decl => exact (decl.checkLogged_tidy i).bind fun _ => ih (i + 1)
    | const decl | vars decl | classDecl decl => exact ih (i + 1)

theorem checkEntry_tidy (entry : String) (span : Span) : Tidy [] (unlogged (checkEntry entry span)) := by
  refine tidy_of_tidies fun state held => tidies_get ?_
  split
  · have told : (Noting.report (.missingEntry entry) span).Tells state.toNotes fun _ _ => True :=
      (tells_report (by simp [Problem.types]) _).mono fun _ _ _ _ => trivial
    exact (tidies_note held told).mono fun _ _ _ => trivial
  · exact tidies_pure held trivial

theorem Program.checkLogged_tidy (program : Program) (entry : String) :
    Tidy [] (program.checkLogged entry) := by
  have classes : Tidy [] (unlogged (declareClasses program.items)) :=
    tidy_of_tidies fun _ held => declareClasses_tidies program.items held
  have fields (classes : List ClassDecl) : Tidy [] (unlogged (classes.forM ClassDecl.declareFields)) :=
    tidy_of_tidies fun _ held => tidies_forM
      (fun decl _ _ held => declareMembers_tidies decl.name.name decl.fields held) held
  have values : Tidy [] (unlogged (program.items.forM Item.declare)) :=
    tidy_of_tidies fun _ held => tidies_forM (fun item _ _ held => item.declare_tidies held) held
  exact tidy_openScope.bind fun _ => classes.bind fun found => (fields found).bind fun _ =>
    values.bind fun _ => (checkMethodsLogged_tidy program.items 0).bind fun _ =>
      checkEntry_tidy entry program.span

end Walk

end StackCode
