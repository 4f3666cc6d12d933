import StackCode.Proofs.Emission.Failures

namespace StackCode

open Code

inductive Step where
  | onTrue
  | onFalse
  | body
  | init
  | update
  | case (case i : Nat)
  | fallback (i : Nat)
  | item (i : Nat)
  | method (i : Nat)
deriving DecidableEq, Repr

/-- Does the step lead into what a `break` leaves? -/
def Step.enters : Step → Bool
  | .body | .case .. | .fallback _ => true
  | _ => false

abbrev Path := List Step

/-- The ways to the statements that a `break` can leave, the innermost first. -/
def Path.left : Path → List Path
  | [] => []
  | step :: path => if step.enters then path :: Path.left path else Path.left path

structure Visit (σ : Type) where
  path : Path
  stmt : Stmt
  state : σ

def Visit.position {σ : Type} (visit : Visit σ) : Path × Stmt := (visit.path, visit.stmt)

structure Logged (σ : Type) where
  state : σ
  visits : List (Visit σ) := []

abbrev Logging (σ : Type) := StateM (Logged σ)

mutual

def Stmt.inner (path : Path) : Stmt → List (Path × Stmt)
  | .branch _ onTrue onFalse _ =>
    (.onTrue :: path, onTrue) :: onTrue.inner (.onTrue :: path) ++
      optionPositions (.onFalse :: path) onFalse
  | .whileLoop _ body _ => (.body :: path, body) :: body.inner (.body :: path)
  | .forLoop init _ update body _ =>
    optionPositions (.init :: path) init ++ optionPositions (.update :: path) update ++
      (.body :: path, body) :: body.inner (.body :: path)
  | .switch _ cases default _ => casesPositions path 0 cases ++ defaultPositions path default
  | .block ⟨items, _⟩ => itemsPositions path 0 items
  | .assign .. | .call .. | .increment .. | .decrement .. | .breakStmt _ | .returnStmt .. | .read ..
  | .write .. | .empty _ => []

def optionPositions (path : Path) : Option Stmt → List (Path × Stmt)
  | none => []
  | some stmt => (path, stmt) :: stmt.inner path

def stmtsPositions (path : Path) (step : Nat → Step) : (i : Nat) → List Stmt → List (Path × Stmt)
  | _, [] => []
  | i, stmt :: rest =>
    (step i :: path, stmt) :: stmt.inner (step i :: path) ++ stmtsPositions path step (i + 1) rest

def casesPositions (path : Path) : (i : Nat) → List SwitchCase → List (Path × Stmt)
  | _, [] => []
  | i, ⟨_, body, _⟩ :: rest => stmtsPositions path (.case i) 0 body ++ casesPositions path (i + 1) rest

def defaultPositions (path : Path) : Option DefaultCase → List (Path × Stmt)
  | none => []
  | some ⟨body, _⟩ => stmtsPositions path .fallback 0 body

def itemsPositions (path : Path) : (i : Nat) → List BlockItem → List (Path × Stmt)
  | _, [] => []
  | i, .var _ :: rest => itemsPositions path (i + 1) rest
  | i, .stmt stmt :: rest =>
    (.item i :: path, stmt) :: stmt.inner (.item i :: path) ++ itemsPositions path (i + 1) rest

end

def methodsPositions : (i : Nat) → List Item → List (Path × Stmt)
  | _, [] => []
  | i, .method decl :: rest => itemsPositions [.method i] 0 decl.body.items ++ methodsPositions (i + 1) rest
  | i, _ :: rest => methodsPositions (i + 1) rest

section Checked

open Checking

def unlogged {α : Type} (f : Checking α) : Logging CheckState α := fun log =>
  ((f.outcome log.state).1, { log with state := (f.outcome log.state).2 })

def comes (path : Path) (stmt : Stmt) : Logging CheckState Unit :=
  modify fun log => { log with visits := log.visits ++ [⟨path, stmt, log.state⟩] }

mutual

def Stmt.checkLogged (path : Path) : Stmt → Logging CheckState Unit
  | .branch cond onTrue onFalse span => do
    comes path (.branch cond onTrue onFalse span)
    unlogged (note fun table => cond.check table)
    onTrue.checkLogged (.onTrue :: path)
    checkOptionLogged (.onFalse :: path) onFalse
  | .whileLoop cond body span => do
    comes path (.whileLoop cond body span)
    unlogged (note fun table => cond.check table)
    unlogged enterLoop
    body.checkLogged (.body :: path)
    unlogged leaveLoop
  | .forLoop init cond update body span => do
    comes path (.forLoop init cond update body span)
    checkOptionLogged (.init :: path) init
    match cond with
    | some cond => unlogged (note fun table => cond.check table)
    | none => pure ()
    checkOptionLogged (.update :: path) update
    unlogged enterLoop
    body.checkLogged (.body :: path)
    unlogged leaveLoop
  | .switch selector cases default span => do
    comes path (.switch selector cases default span)
    let type ← unlogged (checkSelector selector span)
    unlogged enterSwitch
    checkCasesLogged path type 0 [] cases
    checkDefaultLogged path default
    unlogged leaveSwitch
  | .block ⟨items, span⟩ => do
    comes path (.block ⟨items, span⟩)
    unlogged openScope
    checkItemsLogged path 0 items
    unlogged closeScope
  | stmt@(.assign ..) | stmt@(.call ..) | stmt@(.increment ..) | stmt@(.decrement ..)
  | stmt@(.breakStmt _) | stmt@(.returnStmt ..) | stmt@(.read ..) | stmt@(.write ..)
  | stmt@(.empty _) => do
    comes path stmt
    unlogged stmt.check

def checkOptionLogged (path : Path) : Option Stmt → Logging CheckState Unit
  | none => return ()
  | some stmt => stmt.checkLogged path

def checkStmtsLogged (path : Path) (step : Nat → Step) : (i : Nat) → List Stmt → Logging CheckState Unit
  | _, [] => return ()
  | i, stmt :: rest => do
    stmt.checkLogged (step i :: path)
    checkStmtsLogged path step (i + 1) rest

def checkCasesLogged (path : Path) (selector : Tag) :
    (i : Nat) → (seen : List Literal) → List SwitchCase → Logging CheckState Unit
  | _, _, [] => return ()
  | i, seen, ⟨label, body, span⟩ :: rest => do
    unlogged (checkLabel selector seen label span)
    checkStmtsLogged path (.case i) 0 body
    checkCasesLogged path selector (i + 1) (label :: seen) rest

def checkDefaultLogged (path : Path) : Option DefaultCase → Logging CheckState Unit
  | none => return ()
  | some ⟨body, _⟩ => checkStmtsLogged path .fallback 0 body

def checkItemsLogged (path : Path) : (i : Nat) → List BlockItem → Logging CheckState Unit
  | _, [] => return ()
  | i, .var decl :: rest => do
    unlogged (decl.declare .localVar)
    checkItemsLogged path (i + 1) rest
  | i, .stmt stmt :: rest => do
    stmt.checkLogged (.item i :: path)
    checkItemsLogged path (i + 1) rest

end

def MethodDecl.checkLogged (i : Nat) (decl : MethodDecl) : Logging CheckState Unit := do
  unlogged (modify fun state => { state with expectedResult := state.table.resultType decl.result })
  unlogged openScope
  unlogged (declareParams decl.params)
  checkItemsLogged [.method i] 0 decl.body.items
  unlogged closeScope
  unlogged (modify fun state => { state with expectedResult := .void })

def checkMethodsLogged : (i : Nat) → List Item → Logging CheckState Unit
  | _, [] => return ()
  | i, .method decl :: rest => do
    decl.checkLogged i
    checkMethodsLogged (i + 1) rest
  | i, _ :: rest => checkMethodsLogged (i + 1) rest

def Program.checkLogged (program : Program) (entry : String) : Logging CheckState Unit := do
  unlogged openScope
  let classes ← unlogged (declareClasses program.items)
  unlogged (classes.forM ClassDecl.declareFields)
  unlogged (program.items.forM Item.declare)
  checkMethodsLogged 0 program.items
  unlogged (checkEntry entry program.span)

def Program.checked (program : Program) (entry : String) : List (Visit CheckState) :=
  ((program.checkLogged entry).run { state := {} }).2.visits

def Logging.Erases {α : Type} (x : Logging CheckState α) (f : Checking α) : Prop :=
  ∀ log, ((x.run log).1, (x.run log).2.state) = f.outcome log.state

section Erasure

variable {α β : Type}

theorem erases_unlogged (f : Checking α) : (unlogged f).Erases f := fun _ => rfl

theorem erases_pure (a : α) : (pure a : Logging CheckState α).Erases (pure a) := fun _ => rfl

theorem Logging.Erases.bind {x : Logging CheckState α} {f : Checking α} {k : α → Logging CheckState β}
    {g : α → Checking β} (first : x.Erases f) (second : ∀ a, (k a).Erases (g a)) :
    (x >>= k).Erases (f >>= g) := by
  intro log
  have run : (f >>= g).outcome log.state = (g (f.outcome log.state).1).outcome (f.outcome log.state).2 :=
    rfl
  rw [run, ← first log]
  exact second (x.run log).1 (x.run log).2

theorem Logging.Erases.comes {x : Logging CheckState α} {f : Checking α} {path : Path} {stmt : Stmt}
    (erases : x.Erases f) : (comes path stmt >>= fun _ => x).Erases f :=
  fun log => erases { log with visits := log.visits ++ [⟨path, stmt, log.state⟩] }

theorem Logging.Erases.skip {f : Checking α} {k : α → Logging CheckState β} {g : α → Checking β}
    (second : ∀ a, (k a).Erases (g a)) : (unlogged f >>= k).Erases (f >>= g) :=
  (erases_unlogged f).bind second

mutual

theorem Stmt.checkLogged_erases {path : Path} : ∀ stmt : Stmt, (stmt.checkLogged path).Erases stmt.check
  | .branch _ onTrue onFalse _ =>
    .comes <| .skip fun _ => onTrue.checkLogged_erases.bind fun _ => checkOptionLogged_erases onFalse
  | .whileLoop _ body _ =>
    .comes <| .skip fun _ => .skip fun _ => body.checkLogged_erases.bind fun _ => erases_unlogged _
  | .forLoop init cond update body _ => by
    have rest : (do
        checkOptionLogged (.update :: path) update
        unlogged enterLoop
        body.checkLogged (.body :: path)
        unlogged leaveLoop : Logging CheckState Unit).Erases (do
        checkOption update
        enterLoop
        body.check
        leaveLoop) :=
      (checkOptionLogged_erases update).bind fun _ => .skip fun _ =>
        body.checkLogged_erases.bind fun _ => erases_unlogged _
    refine .comes <| (checkOptionLogged_erases init).bind fun _ => ?_
    cases cond with
    | none => exact rest
    | some cond => exact .skip fun _ => rest
  | .switch _ cases default _ =>
    .comes <| .skip fun type => .skip fun _ => (checkCasesLogged_erases type cases).bind fun _ =>
      (checkDefaultLogged_erases default).bind fun _ => erases_unlogged _
  | .block ⟨items, _⟩ =>
    .comes <| .skip fun _ => (checkItemsLogged_erases items).bind fun _ => erases_unlogged _
  | .assign .. | .call .. | .increment .. | .decrement .. | .breakStmt _ | .returnStmt .. | .read ..
  | .write .. | .empty _ => .comes (erases_unlogged _)

theorem checkOptionLogged_erases {path : Path} : ∀ stmt : Option Stmt,
    (checkOptionLogged path stmt).Erases (checkOption stmt)
  | none => erases_pure ()
  | some stmt => stmt.checkLogged_erases

theorem checkStmtsLogged_erases {path : Path} {step : Nat → Step} : ∀ (stmts : List Stmt) {i : Nat},
    (checkStmtsLogged path step i stmts).Erases (checkStmts stmts)
  | [], _ => erases_pure ()
  | stmt :: rest, _ => stmt.checkLogged_erases.bind fun _ => checkStmtsLogged_erases rest

theorem checkCasesLogged_erases {path : Path} (selector : Tag) :
    ∀ (cases : List SwitchCase) {i : Nat} {seen : List Literal},
      (checkCasesLogged path selector i seen cases).Erases (checkCases selector seen cases)
  | [], _, _ => erases_pure ()
  | ⟨_, body, _⟩ :: rest, _, _ =>
    .skip fun _ => (checkStmtsLogged_erases body).bind fun _ => checkCasesLogged_erases selector rest

theorem checkDefaultLogged_erases {path : Path} : ∀ default : Option DefaultCase,
    (checkDefaultLogged path default).Erases (checkDefault default)
  | none => erases_pure ()
  | some ⟨body, _⟩ => checkStmtsLogged_erases body

theorem checkItemsLogged_erases {path : Path} : ∀ (items : List BlockItem) {i : Nat},
    (checkItemsLogged path i items).Erases (checkItems items)
  | [], _ => erases_pure ()
  | .var _ :: rest, _ => .skip fun _ => checkItemsLogged_erases rest
  | .stmt stmt :: rest, _ => stmt.checkLogged_erases.bind fun _ => checkItemsLogged_erases rest

end

theorem checkMethodsLogged_erases (items : List Item) (i : Nat) :
    (checkMethodsLogged i items).Erases (checkMethods items) := by
  induction items generalizing i with
  | nil => exact erases_pure ()
  | cons item rest ih =>
    cases item with
    | method decl =>
      have body : (decl.checkLogged i).Erases decl.check :=
        .skip fun _ => .skip fun _ => .skip fun _ => (checkItemsLogged_erases decl.body.items).bind
          fun _ => .skip fun _ => erases_unlogged _
      exact body.bind fun _ => ih (i + 1)
    | const decl | vars decl | classDecl decl => exact ih (i + 1)

theorem Program.checkLogged_erases (program : Program) (entry : String) :
    (program.checkLogged entry).Erases (program.checking entry) :=
  .skip fun _ => .skip fun _ => .skip fun _ => .skip fun _ =>
    (checkMethodsLogged_erases program.items 0).bind fun _ => erases_unlogged _

end Erasure

end Checked

section Emitted

open Emit

/-- Generation with a log, which is there also when it fails. -/
abbrev LoggedEmit := ExceptT Unsupported (Logging Frame)

namespace LoggedEmit

variable {α : Type}

def silent (action : Emit α) : LoggedEmit α := ExceptT.mk fun log =>
  ((action.outcome log.state).1, { log with state := (action.outcome log.state).2 })

def comes (path : Path) (stmt : Stmt) : LoggedEmit Unit := ExceptT.mk fun log =>
  (.ok (), { log with visits := log.visits ++ [⟨path, stmt, log.state⟩] })

def within (enter leave : Frame → Frame) (action : LoggedEmit α) : LoggedEmit α := ExceptT.mk fun log =>
  let (result, after) := action.run.run { log with state := enter log.state }
  (result, { after with state := leave after.state })

def breakingTo (label : Label) (action : LoggedEmit α) : LoggedEmit α :=
  within (·.breaking label) Frame.unbroken action

def inBlock (action : LoggedEmit α) : LoggedEmit α := within Frame.opened Frame.closed action

end LoggedEmit

open LoggedEmit (silent)

mutual

def Stmt.emitLogged (env : Env) (path : Path) : Stmt → LoggedEmit Piece
  | .branch cond onTrue (some onFalse) span => do
    LoggedEmit.comes path (.branch cond onTrue (some onFalse) span)
    let finish ← silent newLabel
    let otherwise ← silent newLabel
    let test ← silent (cond.emit env)
    let yes ← onTrue.emitLogged env (.onTrue :: path)
    let no ← onFalse.emitLogged env (.onFalse :: path)
    return test ++ [.brfalse otherwise] ++ yes ++ [.br finish, .mark otherwise] ++ no ++ [.mark finish]
  | .branch cond onTrue none span => do
    LoggedEmit.comes path (.branch cond onTrue none span)
    let finish ← silent newLabel
    let test ← silent (cond.emit env)
    let yes ← onTrue.emitLogged env (.onTrue :: path)
    return test ++ [.brfalse finish] ++ yes ++ [.mark finish]
  | .whileLoop cond body span => do
    LoggedEmit.comes path (.whileLoop cond body span)
    let start ← silent newLabel
    let finish ← silent newLabel
    let test ← silent (cond.emit env)
    let code ← LoggedEmit.breakingTo finish (body.emitLogged env (.body :: path))
    return [.mark start] ++ test ++ [.brfalse finish] ++ code ++ [.br start, .mark finish]
  | .forLoop init cond update body span => do
    LoggedEmit.comes path (.forLoop init cond update body span)
    let start ← silent newLabel
    let check ← silent newLabel
    let finish ← silent newLabel
    let first ← emitOptionalLogged env (.init :: path) init
    let code ← LoggedEmit.breakingTo finish (body.emitLogged env (.body :: path))
    let next ← emitOptionalLogged env (.update :: path) update
    let again ← silent (emitAgain env start cond)
    return first ++ [.br check, .mark start] ++ code ++ next ++ [.mark check] ++ again ++ [.mark finish]
  | .switch selector cases default span => do
    LoggedEmit.comes path (.switch selector cases default span)
    let tag ← silent (env.nodeType selector.id)
    let value ← silent (selector.emit env)
    let slot ← silent (temp env tag)
    let finish ← silent newLabel
    let labels ← silent (newLabels cases.length)
    let fallback ← silent (if default.isSome then newLabel else pure finish)
    let dispatch ← silent (emitDispatch slot (cases.zip labels))
    let bodies ← LoggedEmit.breakingTo finish do
      let code ← emitCasesLogged env path 0 labels cases
      return code ++ (← emitDefaultLogged env path fallback default)
    return value ++ [.stloc slot] ++ dispatch ++ [.br fallback] ++ bodies ++ [.mark finish]
  | .block ⟨items, span⟩ => do
    LoggedEmit.comes path (.block ⟨items, span⟩)
    LoggedEmit.inBlock (emitItemsLogged env path 0 items)
  | stmt@(.assign ..) | stmt@(.call ..) | stmt@(.increment ..) | stmt@(.decrement ..)
  | stmt@(.breakStmt _) | stmt@(.returnStmt ..) | stmt@(.read ..) | stmt@(.write ..)
  | stmt@(.empty _) => do
    LoggedEmit.comes path stmt
    silent (stmt.emit env)

def emitOptionalLogged (env : Env) (path : Path) : Option Stmt → LoggedEmit Piece
  | some stmt => stmt.emitLogged env path
  | none => return []

def emitStmtsLogged (env : Env) (path : Path) (step : Nat → Step) : (i : Nat) → List Stmt → LoggedEmit Piece
  | _, [] => return []
  | i, stmt :: rest => do
    let code ← stmt.emitLogged env (step i :: path)
    return code ++ (← emitStmtsLogged env path step (i + 1) rest)

def emitCasesLogged (env : Env) (path : Path) :
    (i : Nat) → List Label → List SwitchCase → LoggedEmit Piece
  | i, label :: labels, ⟨_, body, _⟩ :: cases => do
    let code ← emitStmtsLogged env path (.case i) 0 body
    return [.mark label] ++ code ++ (← emitCasesLogged env path (i + 1) labels cases)
  | _, _, _ => return []

def emitDefaultLogged (env : Env) (path : Path) (label : Label) : Option DefaultCase → LoggedEmit Piece
  | some ⟨body, _⟩ => return [.mark label] ++ (← emitStmtsLogged env path .fallback 0 body)
  | none => return []

def emitItemsLogged (env : Env) (path : Path) : (i : Nat) → List BlockItem → LoggedEmit Piece
  | _, [] => return []
  | i, .var decl :: rest => do
    let tag ← silent (env.writtenType decl.type)
    silent (emitLocals env tag decl.names)
    emitItemsLogged env path (i + 1) rest
  | i, .stmt stmt :: rest => do
    let code ← stmt.emitLogged env (.item i :: path)
    return code ++ (← emitItemsLogged env path (i + 1) rest)

end

def emitBodyLogged (env : Env) (i : Nat) (params : List (String × Tag)) (result : Ty)
    (items : List BlockItem) : LoggedEmit Piece := do
  let entry ← silent (emitParams env 0 params)
  let code := entry ++ (← emitItemsLogged env [.method i] 0 items)
  if code.getLast? = some .ret then return code
  else return code ++ result.defaultCode ++ [.ret]

def LoggedEmit.Erases {α : Type} (x : LoggedEmit α) (action : Emit α) : Prop :=
  ∀ log, ((x.run.run log).1, (x.run.run log).2.state) = action.outcome log.state

namespace LoggedEmit

variable {α β : Type}

theorem run_bind (x : LoggedEmit α) (k : α → LoggedEmit β) (log : Logged Frame) :
    (x >>= k).run.run log = match x.run.run log with
      | (.ok a, mid) => (k a).run.run mid
      | (.error cause, mid) => (.error cause, mid) := by
  change (match x.run.run log with
    | (result, mid) => (ExceptT.bindCont k result).run mid) = _
  rcases x.run.run log with ⟨_ | a, mid⟩ <;> rfl

theorem erases_silent (action : Emit α) : (silent action).Erases action := fun _ => rfl

theorem erases_return (a : α) : (pure a : LoggedEmit α).Erases (pure a) := fun _ => rfl

theorem Erases.bind {x : LoggedEmit α} {action : Emit α} {k : α → LoggedEmit β} {g : α → Emit β}
    (first : x.Erases action) (second : ∀ a, (k a).Erases (g a)) : (x >>= k).Erases (action >>= g) := by
  intro log
  rw [Emit.outcome_bind, run_bind, ← first log]
  rcases x.run.run log with ⟨cause | a, mid⟩
  · rfl
  · exact second a mid

theorem Erases.map {x : LoggedEmit α} {action : Emit α} (erases : x.Erases action) (f : α → β) :
    (x >>= fun a => pure (f a)).Erases (action >>= fun a => pure (f a)) :=
  erases.bind fun _ => erases_return _

theorem Erases.skip {action : Emit α} {k : α → LoggedEmit β} {g : α → Emit β}
    (second : ∀ a, (k a).Erases (g a)) : (silent action >>= k).Erases (action >>= g) :=
  (erases_silent action).bind second

theorem Erases.comes {x : LoggedEmit α} {action : Emit α} {path : Path} {stmt : Stmt}
    (erases : x.Erases action) : (comes path stmt >>= fun _ => x).Erases action :=
  fun log => erases { log with visits := log.visits ++ [⟨path, stmt, log.state⟩] }

theorem Erases.within {enter leave : Frame → Frame} {x : LoggedEmit α} {action : Emit α}
    (erases : x.Erases action) : (within enter leave x).Erases (Emit.within enter leave action) := by
  intro log
  have inner := erases { log with state := enter log.state }
  have result := congrArg Prod.fst inner
  have frame := congrArg (fun out => leave out.2) inner
  exact Prod.ext result frame

end LoggedEmit

section Erasure

open LoggedEmit

variable {env : Env}

mutual

theorem Stmt.emitLogged_erases {path : Path} : ∀ stmt : Stmt,
    (stmt.emitLogged env path).Erases (stmt.emit env)
  | .branch _ onTrue (some onFalse) _ =>
    .comes <| .skip fun _ => .skip fun _ => .skip fun _ => onTrue.emitLogged_erases.bind fun _ =>
      onFalse.emitLogged_erases.map _
  | .branch _ onTrue none _ =>
    .comes <| .skip fun _ => .skip fun _ => onTrue.emitLogged_erases.map _
  | .whileLoop _ body _ =>
    .comes <| .skip fun _ => .skip fun _ => .skip fun _ => body.emitLogged_erases.within.map _
  | .forLoop init cond update body _ => by
    refine .comes <| .skip fun start => .skip fun _ => .skip fun _ =>
      (emitOptionalLogged_erases init).bind fun _ => body.emitLogged_erases.within.bind fun _ =>
        (emitOptionalLogged_erases update).bind fun _ => ?_
    cases cond with
    | none => exact (erases_silent (emitAgain env start none)).map _
    | some cond =>
      have assoc (k : Piece → Emit Piece) : emitAgain env start (some cond) >>= k =
          cond.emit env >>= fun test => pure (test ++ ([.brtrue start] : Piece)) >>= k :=
        bind_assoc ..
      exact (congrArg (LoggedEmit.Erases _) (assoc _)).mp <|
        (erases_silent (emitAgain env start (some cond))).map _
  | .switch _ cases default _ => by
    have rest (slot : Nat) (finish : Label) (labels : List Label) (value : Piece) (fallback : Label) : (do
        let dispatch ← silent (emitDispatch slot (cases.zip labels))
        let bodies ← LoggedEmit.breakingTo finish do
          let code ← emitCasesLogged env path 0 labels cases
          return code ++ (← emitDefaultLogged env path fallback default)
        return value ++ [.stloc slot] ++ dispatch ++ [.br fallback] ++ bodies ++ [.mark finish] :
          LoggedEmit Piece).Erases (do
        let dispatch ← emitDispatch slot (cases.zip labels)
        let bodies ← Emit.breakingTo finish do
          let code ← emitCases env labels cases
          return code ++ (← emitDefault env fallback default)
        return value ++ [.stloc slot] ++ dispatch ++ [.br fallback] ++ bodies ++ [.mark finish]) :=
      .skip fun _ => ((emitCasesLogged_erases labels cases).bind fun _ =>
        (emitDefaultLogged_erases default fallback).map _).within.map _
    refine .comes <| .skip fun _ => .skip fun _ => .skip fun _ => .skip fun finish => .skip fun _ => ?_
    cases default with
    | none => exact (erases_silent (pure finish)).bind fun _ => rest _ _ _ _ _
    | some block => exact (erases_silent newLabel).bind fun _ => rest _ _ _ _ _
  | .block ⟨items, _⟩ => .comes (emitItemsLogged_erases items).within
  | .assign .. | .call .. | .increment .. | .decrement .. | .breakStmt _ | .returnStmt .. | .read ..
  | .write .. | .empty _ => .comes (erases_silent _)

theorem emitOptionalLogged_erases {path : Path} : ∀ stmt : Option Stmt,
    (emitOptionalLogged env path stmt).Erases (emitOptional env stmt)
  | none => erases_return _
  | some stmt => stmt.emitLogged_erases

theorem emitStmtsLogged_erases {path : Path} {step : Nat → Step} : ∀ (stmts : List Stmt) {i : Nat},
    (emitStmtsLogged env path step i stmts).Erases (emitStmts env stmts)
  | [], _ => erases_return _
  | stmt :: rest, _ => stmt.emitLogged_erases.bind fun _ => (emitStmtsLogged_erases rest).map _

theorem emitCasesLogged_erases {path : Path} : ∀ (labels : List Label) (cases : List SwitchCase)
    {i : Nat}, (emitCasesLogged env path i labels cases).Erases (emitCases env labels cases)
  | label :: labels, ⟨_, body, _⟩ :: rest, _ =>
    (emitStmtsLogged_erases body).bind fun _ => (emitCasesLogged_erases labels rest).map _
  | [], _, _ => by
    unfold emitCasesLogged emitCases
    exact erases_return _
  | _ :: _, [], _ => by
    unfold emitCasesLogged emitCases
    exact erases_return _

theorem emitDefaultLogged_erases {path : Path} : ∀ (default : Option DefaultCase) (label : Label),
    (emitDefaultLogged env path label default).Erases (emitDefault env label default)
  | none, _ => erases_return _
  | some ⟨body, _⟩, _ => (emitStmtsLogged_erases body).map _

theorem emitItemsLogged_erases {path : Path} : ∀ (items : List BlockItem) {i : Nat},
    (emitItemsLogged env path i items).Erases (emitItems env items)
  | [], _ => erases_return _
  | .var _ :: rest, _ => .skip fun _ => .skip fun _ => emitItemsLogged_erases rest
  | .stmt stmt :: rest, _ => stmt.emitLogged_erases.bind fun _ => (emitItemsLogged_erases rest).map _

end

theorem emitBodyLogged_erases (i : Nat) (params : List (String × Tag)) (result : Ty)
    (items : List BlockItem) :
    (emitBodyLogged env i params result items).Erases (emitBody env params result items) := by
  refine .skip fun _ => (emitItemsLogged_erases items).bind fun _ => ?_
  dsimp only
  split <;> exact erases_return _

end Erasure

end Emitted

end StackCode
