import StackCode.Proofs.Order.Methods
import StackCode.Proofs.Resolution.Agreement

namespace StackCode

open Checking

structure CheckState.Restored (before after : CheckState) : Prop extends before.Passed after where
  errors : before.errors.toList <+: after.errors.toList

theorem CheckState.Restored.trans {a b c : CheckState} (first : a.Restored b) (second : b.Restored c) :
    a.Restored c :=
  ⟨first.toPassed.trans second.toPassed, first.errors.trans second.errors⟩

section Reports

theorem likeness_eq : Likeness id Eq where
  sight same := by rw [same]
  taken same name := by rw [same]
  opens same := by rw [same]
  closes same := by rw [same]
  push same name type site kind decl := by
    rw [same]
    rfl

theorem Twin.Follows.errors_append {α : Type} {f : Checking α} {state : CheckState}
    (follows : (Twin.onto state.toNotes).Follows Eq f f Eq) :
    state.errors.toList <+: (f.outcome state).2.errors.toList := by
  have abreast : (Twin.onto state.toNotes).Abreast Eq { state with toNotes := {} } state :=
    ⟨⟨{}, rfl, rfl⟩, rfl, rfl, rfl, rfl⟩
  obtain ⟨_, after⟩ := follows _ _ abreast
  rw [after.noted.errors_eq]
  exact List.prefix_append _ _

theorem Stmt.check_restores (stmt : Stmt) (state : CheckState) :
    state.Restored (stmt.check.outcome state).2 ∧
      (stmt.check.outcome state).2.expectedResult = state.expectedResult := by
  have kept := Stmt.check_kept state stmt
  have follows : (Twin.onto state.toNotes).Follows Eq stmt.check (stmt.moved id).check Eq :=
    stmt.check_abreast likeness_eq
  rw [Stmt.moved_same] at follows
  exact ⟨⟨⟨kept.table, kept.loopDepth, kept.switchDepth⟩, follows.errors_append⟩, kept.expectedResult⟩

theorem MethodDecl.check_restores (decl : MethodDecl) (state : CheckState) :
    state.Restored (decl.check.outcome state).2 ∧
      (decl.check.outcome state).2.expectedResult = .void := by
  obtain ⟨_, passed, _⟩ := decl.checks_nodes state
  have follows : (Twin.onto state.toNotes).Follows Eq decl.check (decl.moved id).check Eq :=
    decl.check_abreast likeness_eq
  rw [MethodDecl.moved_same] at follows
  exact ⟨⟨passed, follows.errors_append⟩, rfl⟩

theorem checkMethods_restores (items : List Item) (state : CheckState) :
    state.Restored ((checkMethods items).outcome state).2 := by
  induction items generalizing state with
  | nil => exact ⟨⟨.refl _, rfl, rfl⟩, List.prefix_refl _⟩
  | cons item items ih =>
    cases item with
    | method decl => exact (decl.check_restores state).1.trans (ih _)
    | const decl | vars decl | classDecl decl => exact ih state

end Reports

section Guarded

/-- A check that stops where a scope is closed but none is open. -/
abbrev Guarded := StateT CheckState Option

def guarded {α : Type} (f : Checking α) : Guarded α := fun state => some (f.outcome state)

def closeOpened : Guarded Unit := fun state =>
  state.table.closeScope?.map fun table => ((), { state with table })

mutual

def Stmt.checkGuarded : Stmt → Guarded Unit
  | .branch cond onTrue onFalse _ => do
    guarded (note fun table => cond.check table)
    onTrue.checkGuarded
    checkOptionGuarded onFalse
  | .whileLoop cond body _ => do
    guarded (note fun table => cond.check table)
    guarded enterLoop
    body.checkGuarded
    guarded leaveLoop
  | .forLoop init cond update body _ => do
    checkOptionGuarded init
    match cond with
    | some cond => guarded (note fun table => cond.check table)
    | none => pure ()
    checkOptionGuarded update
    guarded enterLoop
    body.checkGuarded
    guarded leaveLoop
  | .switch selector cases default span => do
    let type ← guarded (checkSelector selector span)
    guarded enterSwitch
    checkCasesGuarded type [] cases
    checkDefaultGuarded default
    guarded leaveSwitch
  | .block ⟨items, _⟩ => do
    guarded openScope
    checkItemsGuarded items
    closeOpened
  | stmt@(.assign ..) | stmt@(.call ..) | stmt@(.increment ..) | stmt@(.decrement ..)
  | stmt@(.breakStmt _) | stmt@(.returnStmt ..) | stmt@(.read ..) | stmt@(.write ..)
  | stmt@(.empty _) => guarded stmt.check

def checkOptionGuarded : Option Stmt → Guarded Unit
  | none => return ()
  | some stmt => stmt.checkGuarded

def checkStmtsGuarded : List Stmt → Guarded Unit
  | [] => return ()
  | stmt :: rest => do
    stmt.checkGuarded
    checkStmtsGuarded rest

def checkCasesGuarded (selector : Tag) : (seen : List Literal) → List SwitchCase → Guarded Unit
  | _, [] => return ()
  | seen, ⟨label, body, span⟩ :: rest => do
    guarded (checkLabel selector seen label span)
    checkStmtsGuarded body
    checkCasesGuarded selector (label :: seen) rest

def checkDefaultGuarded : Option DefaultCase → Guarded Unit
  | none => return ()
  | some ⟨body, _⟩ => checkStmtsGuarded body

def checkItemsGuarded : List BlockItem → Guarded Unit
  | [] => return ()
  | .var decl :: rest => do
    guarded (decl.declare .localVar)
    checkItemsGuarded rest
  | .stmt stmt :: rest => do
    stmt.checkGuarded
    checkItemsGuarded rest

end

def MethodDecl.checkGuarded (decl : MethodDecl) : Guarded Unit := do
  guarded (modify fun state => { state with expectedResult := state.table.resultType decl.result })
  guarded openScope
  guarded (declareParams decl.params)
  checkItemsGuarded decl.body.items
  closeOpened
  guarded (modify fun state => { state with expectedResult := .void })

def checkMethodsGuarded : List Item → Guarded Unit
  | [] => return ()
  | .method decl :: rest => do
    decl.checkGuarded
    checkMethodsGuarded rest
  | _ :: rest => checkMethodsGuarded rest

def Program.checkGuarded (program : Program) (entry : String) : Guarded Unit := do
  guarded openScope
  let classes ← guarded (declareClasses program.items)
  guarded (classes.forM ClassDecl.declareFields)
  guarded (program.items.forM Item.declare)
  checkMethodsGuarded program.items
  guarded (checkEntry entry program.span)

def Guarded.Agrees {α : Type} (x : Guarded α) (f : Checking α) : Prop :=
  ∀ state, x.run state = some (f.outcome state)

variable {α β : Type}

theorem agrees_guarded (f : Checking α) : (guarded f).Agrees f := fun _ => rfl

theorem agrees_pure (a : α) : (pure a : Guarded α).Agrees (pure a) := fun _ => rfl

theorem Guarded.Agrees.bind {x : Guarded α} {f : Checking α} {k : α → Guarded β} {g : α → Checking β}
    (first : x.Agrees f) (second : ∀ a, (k a).Agrees (g a)) : (x >>= k).Agrees (f >>= g) := by
  intro state
  rw [StateT.run_bind, first state]
  exact second (f.outcome state).1 (f.outcome state).2

theorem Guarded.Agrees.inScope {x : Guarded Unit} {f : Checking Unit} (agrees : x.Agrees f)
    (grows : ∀ state : CheckState, state.Grown (f.outcome state).2) :
    (do guarded openScope; x; closeOpened).Agrees (do openScope; f; closeScope) := by
  intro state
  have boundaries : (f.outcome { state with table := state.table.openScope }).2.table.boundaries =
      state.table.active.length :: state.table.boundaries :=
    (grows { state with table := state.table.openScope }).boundaries
  have inner := agrees { state with table := state.table.openScope }
  change (x.run { state with table := state.table.openScope } >>= fun ended => closeOpened ended.2) = _
  rw [inner]
  change closeOpened (f.outcome { state with table := state.table.openScope }).2 =
    some (closeScope.outcome (f.outcome { state with table := state.table.openScope }).2)
  generalize (f.outcome { state with table := state.table.openScope }).2 = ended at boundaries
  have closed : ended.table.closeScope?.isSome = true := by
    rw [SymbolTable.closeScope?, boundaries]
    rfl
  obtain ⟨table, closed⟩ := Option.isSome_iff_exists.mp closed
  have guard : closeOpened ended = some ((), { ended with table }) := by
    rw [closeOpened, closed]
    rfl
  have plain : closeScope.outcome ended = ((), { ended with table }) := by
    change ((), { ended with table := ended.table.closeScope?.getD ended.table }) = _
    rw [closed]
    rfl
  rw [guard, plain]

theorem declareParams_grown (params : List Param) (state : CheckState) :
    state.Grown ((declareParams params).outcome state).2 := by
  have checks : (declareParams params).Checks [] CheckState.Grown
      (·.At state.table.sight [] false .void) _ := declareParams_checks params
  exact (checks state).2.1

mutual

theorem Stmt.checkGuarded_agrees : ∀ stmt : Stmt, stmt.checkGuarded.Agrees stmt.check
  | .branch cond onTrue onFalse _ =>
    (agrees_guarded _).bind fun _ => onTrue.checkGuarded_agrees.bind fun _ =>
      checkOptionGuarded_agrees onFalse
  | .whileLoop cond body _ =>
    (agrees_guarded _).bind fun _ => (agrees_guarded _).bind fun _ =>
      body.checkGuarded_agrees.bind fun _ => agrees_guarded _
  | .forLoop init cond update body _ => by
    have rest : (do
        checkOptionGuarded update
        guarded enterLoop
        body.checkGuarded
        guarded leaveLoop : Guarded Unit).Agrees (do
        checkOption update
        enterLoop
        body.check
        leaveLoop) :=
      (checkOptionGuarded_agrees update).bind fun _ => (agrees_guarded _).bind fun _ =>
        body.checkGuarded_agrees.bind fun _ => agrees_guarded _
    refine (checkOptionGuarded_agrees init).bind fun _ => ?_
    cases cond with
    | none => exact rest
    | some cond => exact (agrees_guarded _).bind fun _ => rest
  | .switch selector cases default span =>
    (agrees_guarded _).bind fun type => (agrees_guarded _).bind fun _ =>
      (checkCasesGuarded_agrees cases type []).bind fun _ =>
        (checkDefaultGuarded_agrees default).bind fun _ => agrees_guarded _
  | .block ⟨items, _⟩ =>
    (checkItemsGuarded_agrees items).inScope fun state => checkItems_grown state items
  | .assign .. | .call .. | .increment .. | .decrement .. | .breakStmt _ | .returnStmt .. | .read ..
  | .write .. | .empty _ => agrees_guarded _

theorem checkOptionGuarded_agrees : ∀ stmt : Option Stmt,
    (checkOptionGuarded stmt).Agrees (checkOption stmt)
  | none => agrees_pure ()
  | some stmt => stmt.checkGuarded_agrees

theorem checkStmtsGuarded_agrees : ∀ stmts : List Stmt,
    (checkStmtsGuarded stmts).Agrees (checkStmts stmts)
  | [] => agrees_pure ()
  | stmt :: rest => stmt.checkGuarded_agrees.bind fun _ => checkStmtsGuarded_agrees rest

theorem checkCasesGuarded_agrees : ∀ (cases : List SwitchCase) (selector : Tag) (seen : List Literal),
    (checkCasesGuarded selector seen cases).Agrees (checkCases selector seen cases)
  | [], _, _ => agrees_pure ()
  | ⟨label, body, _⟩ :: rest, selector, seen =>
    (agrees_guarded _).bind fun _ => (checkStmtsGuarded_agrees body).bind fun _ =>
      checkCasesGuarded_agrees rest selector (label :: seen)

theorem checkDefaultGuarded_agrees : ∀ default : Option DefaultCase,
    (checkDefaultGuarded default).Agrees (checkDefault default)
  | none => agrees_pure ()
  | some ⟨body, _⟩ => checkStmtsGuarded_agrees body

theorem checkItemsGuarded_agrees : ∀ items : List BlockItem,
    (checkItemsGuarded items).Agrees (checkItems items)
  | [] => agrees_pure ()
  | .var _ :: rest => (agrees_guarded _).bind fun _ => checkItemsGuarded_agrees rest
  | .stmt stmt :: rest => stmt.checkGuarded_agrees.bind fun _ => checkItemsGuarded_agrees rest

end

theorem MethodDecl.checkGuarded_agrees (decl : MethodDecl) : decl.checkGuarded.Agrees decl.check := by
  have body : (do guarded (declareParams decl.params); checkItemsGuarded decl.body.items).Agrees
      (do declareParams decl.params; checkItems decl.body.items) :=
    (agrees_guarded _).bind fun _ => checkItemsGuarded_agrees decl.body.items
  have scope := body.inScope fun state =>
    (declareParams_grown decl.params state).trans (checkItems_grown _ decl.body.items)
  have whole := (agrees_guarded (modify fun state =>
    { state with expectedResult := state.table.resultType decl.result })).bind fun _ =>
      scope.bind fun _ => agrees_guarded (modify fun state => { state with expectedResult := .void })
  simp only [bind_assoc] at whole
  exact whole

theorem checkMethodsGuarded_agrees (items : List Item) :
    (checkMethodsGuarded items).Agrees (checkMethods items) := by
  induction items with
  | nil => exact agrees_pure ()
  | cons item rest ih =>
    cases item with
    | method decl => exact decl.checkGuarded_agrees.bind fun _ => ih
    | const decl | vars decl | classDecl decl => exact ih

theorem Program.checkGuarded_agrees (program : Program) (entry : String) :
    (program.checkGuarded entry).Agrees (program.checking entry) :=
  (agrees_guarded _).bind fun _ => (agrees_guarded _).bind fun _ => (agrees_guarded _).bind fun _ =>
    (agrees_guarded _).bind fun _ => (checkMethodsGuarded_agrees program.items).bind fun _ =>
      agrees_guarded _

end Guarded

end StackCode
