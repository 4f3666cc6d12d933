import StackCode.Proofs.Breaks.Visits
import StackCode.Proofs.Order.Declarations

namespace StackCode

open Checking

/-- The property is kept by what a method does to the table; the local names have types that are
`Good`. -/
structure SymbolTable.Steady (Inv : SymbolTable → Prop) (Good : Tag → Prop) : Prop where
  unknown : Good .unknown
  types : ∀ {table}, Inv table → ∀ text, Good (table.typeOf text)
  opens : ∀ {table}, Inv table → Inv table.openScope
  closes : ∀ {table}, Inv table → Inv (table.closeScope?.getD table)
  declares : ∀ {table}, Inv table → ∀ (name : Ident) (type : Tag) (site : Site) (decl : Span),
    Good type → site = .localVar ∨ site = .param → Inv (table.push name type site (.var false) decl)

/-- The property holds at the end and wherever the check comes to a statement, if it does at the
start. -/
def Logging.Keeps {α : Type} (x : Logging CheckState α) (Inv : SymbolTable → Prop) : Prop :=
  ∀ log, Inv log.state.table → Inv (x.run log).2.state.table ∧
    ∀ visit ∈ (x.run log).2.visits, visit ∈ log.visits ∨ Inv visit.state.table

theorem namedType_result (table : SymbolTable) (type : TypeName) (notes : Notes) :
    ((table.namedType type).outcome notes).1 = table.typeOf type.name := by
  unfold SymbolTable.namedType
  dsimp only
  split <;> rfl

theorem namedValueType_result (table : SymbolTable) (type : TypeName) (notes : Notes) :
    ((table.namedValueType type).outcome notes).1 =
      if table.typeOf type.name == .void then .unknown else table.typeOf type.name := by
  have run : (table.namedValueType type).outcome notes =
      (if ((table.namedType type).outcome notes).1 == .void then do
          Noting.mismatch .voidVariable type.span
          return .unknown
        else return ((table.namedType type).outcome notes).1 : Noting Tag).outcome
          ((table.namedType type).outcome notes).2 := rfl
  rw [run, namedType_result]
  split <;> rfl

section Steps

variable {α β : Type} {Inv : SymbolTable → Prop} {Good : Tag → Prop}

theorem keeps_pure (a : α) : (pure a : Logging CheckState α).Keeps Inv :=
  fun _ holds => ⟨holds, fun _ member => .inl member⟩

theorem Logging.Keeps.bind {x : Logging CheckState α} {k : α → Logging CheckState β}
    (first : x.Keeps Inv) (second : ∀ a, (k a).Keeps Inv) : (x >>= k).Keeps Inv := by
  intro log holds
  obtain ⟨between, visited⟩ := first log holds
  obtain ⟨after, later⟩ := second (x.run log).1 (x.run log).2 between
  refine ⟨after, fun visit member => ?_⟩
  rcases later visit member with early | known
  · exact visited visit early
  · exact .inr known

theorem keeps_unlogged {f : Checking α}
    (keeps : ∀ state : CheckState, Inv state.table → Inv (f.outcome state).2.table) :
    (unlogged f).Keeps Inv :=
  fun log holds => ⟨keeps log.state holds, fun _ member => .inl member⟩

theorem keeps_same {f : Checking α} (same : ∀ state, (f.outcome state).2.table = state.table) :
    (unlogged f).Keeps Inv :=
  keeps_unlogged fun state holds => (same state).symm ▸ holds

theorem Logging.Keeps.skip {f : Checking α} {k : α → Logging CheckState β}
    (same : ∀ state, (f.outcome state).2.table = state.table) (second : ∀ a, (k a).Keeps Inv) :
    (unlogged f >>= k).Keeps Inv :=
  (keeps_same same).bind second

theorem Logging.Keeps.comes {x : Logging CheckState α} {path : Path} {stmt : Stmt}
    (keeps : x.Keeps Inv) : (comes path stmt >>= fun _ => x).Keeps Inv := by
  intro log holds
  obtain ⟨after, visited⟩ := keeps { log with visits := log.visits ++ [⟨path, stmt, log.state⟩] } holds
  refine ⟨after, fun visit member => ?_⟩
  rcases visited visit member with early | known
  · rcases List.mem_append.mp early with old | new
    · exact .inl old
    · rw [List.mem_singleton.mp new]
      exact .inr holds
  · exact .inr known

variable (steady : SymbolTable.Steady Inv Good)

include steady

theorem SymbolTable.Steady.openScope : (unlogged Checking.openScope).Keeps Inv :=
  keeps_unlogged fun _ holds => steady.opens holds

theorem SymbolTable.Steady.closeScope : (unlogged Checking.closeScope).Keeps Inv :=
  keeps_unlogged fun _ holds => steady.closes holds

theorem SymbolTable.Steady.introduce {site : Site} (place : site = .localVar ∨ site = .param)
    {type : Tag} (good : Good type) (name : Ident) (decl : Span) (state : CheckState)
    (holds : Inv state.table) :
    Inv ((Checking.introduce name (·.declareVar? name type false site decl)).outcome state).2.table := by
  rw [outcome_introduce]
  have declares : state.table.declareVar? name type false site decl =
      if (state.table.lookupCurrent? name.name).isSome then none
      else some (state.table.push name type site (.var false) decl) := rfl
  rw [declares]
  split
  · rename_i later made
    split at made
    · cases made
    · cases made
      exact steady.declares holds name type site decl good place
  · exact holds

theorem SymbolTable.Steady.declareNames {site : Site} (place : site = .localVar ∨ site = .param)
    {type : Tag} (good : Good type) (decl : Span) (names : List Ident) (state : CheckState)
    (holds : Inv state.table) :
    Inv ((StackCode.declareNames type site decl names).outcome state).2.table := by
  induction names generalizing state with
  | nil => exact holds
  | cons name names ih => exact ih _ (steady.introduce place good name decl state holds)

theorem SymbolTable.Steady.declareLocals (decl : VarDecl) (state : CheckState)
    (holds : Inv state.table) : Inv ((decl.declare .localVar).outcome state).2.table := by
  rw [VarDecl.declare, outcome_note_bind]
  refine steady.declareNames (.inl rfl) ?_ decl.span decl.names _ holds
  rw [namedValueType_result]
  split
  · exact steady.unknown
  · exact steady.types holds _

theorem SymbolTable.Steady.declareParams (params : List Param) (state : CheckState)
    (holds : Inv state.table) : Inv ((StackCode.declareParams params).outcome state).2.table := by
  induction params generalizing state with
  | nil => exact holds
  | cons param params ih =>
    refine ih _ (steady.introduce (.inr rfl) ?_ param.name _ state holds)
    change Good (if state.table.typeOf param.type.name == .void then .unknown
      else state.table.typeOf param.type.name)
    split
    · exact steady.unknown
    · exact steady.types holds _

end Steps

section Leaves

theorem checkBreak_table (span : Span) (state : CheckState) :
    ((checkBreak span).outcome state).2.table = state.table := by
  change ((if state.loopDepth == 0 && state.switchDepth == 0 then report .strayBreak span
    else pure () : Checking Unit).outcome state).2.table = _
  split <;> rfl

theorem checkResult_table (value : Option Expr) (span : Span) (state : CheckState) :
    ((checkResult value span).outcome state).2.table = state.table := by
  cases value with
  | some value => rfl
  | none =>
    change ((if state.expectedResult != .void && !state.expectedResult.isUnknown then
      report (.mismatch (.missingResult state.expectedResult)) span
      else pure () : Checking Unit).outcome state).2.table = _
    split <;> rfl

end Leaves

section Statements

variable {Inv : SymbolTable → Prop} {Good : Tag → Prop}

mutual

theorem Stmt.checkLogged_keeps (steady : SymbolTable.Steady Inv Good) {path : Path} :
    ∀ stmt : Stmt, (stmt.checkLogged path).Keeps Inv
  | .branch _ onTrue onFalse _ =>
    .comes <| .skip (fun _ => rfl) fun _ => (onTrue.checkLogged_keeps steady).bind fun _ =>
      checkOptionLogged_keeps steady onFalse
  | .whileLoop _ body _ =>
    .comes <| .skip (fun _ => rfl) fun _ => .skip (fun _ => rfl) fun _ =>
      (body.checkLogged_keeps steady).bind fun _ => keeps_same fun _ => rfl
  | .forLoop init cond update body _ => by
    have rest : (do
        checkOptionLogged (.update :: path) update
        unlogged enterLoop
        body.checkLogged (.body :: path)
        unlogged leaveLoop : Logging CheckState Unit).Keeps Inv :=
      (checkOptionLogged_keeps steady update).bind fun _ => .skip (fun _ => rfl) fun _ =>
        (body.checkLogged_keeps steady).bind fun _ => keeps_same fun _ => rfl
    refine .comes <| (checkOptionLogged_keeps steady init).bind fun _ => ?_
    cases cond with
    | none => exact rest
    | some cond => exact .skip (fun _ => rfl) fun _ => rest
  | .switch _ cases default _ =>
    .comes <| .skip (fun _ => rfl) fun type => .skip (fun _ => rfl) fun _ =>
      (checkCasesLogged_keeps steady type cases).bind fun _ =>
        (checkDefaultLogged_keeps steady default).bind fun _ => keeps_same fun _ => rfl
  | .block ⟨items, _⟩ =>
    .comes <| steady.openScope.bind fun _ => (checkItemsLogged_keeps steady items).bind fun _ =>
      steady.closeScope
  | .breakStmt span => .comes (keeps_same (checkBreak_table span))
  | .returnStmt value span => .comes (keeps_same (checkResult_table value span))
  | .assign .. | .call .. | .increment .. | .decrement .. | .read .. | .write .. | .empty _ =>
    .comes (keeps_same fun _ => rfl)

theorem checkOptionLogged_keeps (steady : SymbolTable.Steady Inv Good) {path : Path} :
    ∀ stmt : Option Stmt, (checkOptionLogged path stmt).Keeps Inv
  | none => keeps_pure ()
  | some stmt => stmt.checkLogged_keeps steady

theorem checkStmtsLogged_keeps (steady : SymbolTable.Steady Inv Good) {path : Path} {step : Nat → Step} :
    ∀ (stmts : List Stmt) {i : Nat}, (checkStmtsLogged path step i stmts).Keeps Inv
  | [], _ => keeps_pure ()
  | stmt :: rest, _ => (stmt.checkLogged_keeps steady).bind fun _ => checkStmtsLogged_keeps steady rest

theorem checkCasesLogged_keeps (steady : SymbolTable.Steady Inv Good) {path : Path} (selector : Tag) :
    ∀ (cases : List SwitchCase) {i : Nat} {seen : List Literal},
      (checkCasesLogged path selector i seen cases).Keeps Inv
  | [], _, _ => keeps_pure ()
  | ⟨_, body, _⟩ :: rest, _, _ =>
    .skip (fun _ => rfl) fun _ => (checkStmtsLogged_keeps steady body).bind fun _ =>
      checkCasesLogged_keeps steady selector rest

theorem checkDefaultLogged_keeps (steady : SymbolTable.Steady Inv Good) {path : Path} :
    ∀ default : Option DefaultCase, (checkDefaultLogged path default).Keeps Inv
  | none => keeps_pure ()
  | some ⟨body, _⟩ => checkStmtsLogged_keeps steady body

theorem checkItemsLogged_keeps (steady : SymbolTable.Steady Inv Good) {path : Path} :
    ∀ (items : List BlockItem) {i : Nat}, (checkItemsLogged path i items).Keeps Inv
  | [], _ => keeps_pure ()
  | .var decl :: rest, _ =>
    (keeps_unlogged (steady.declareLocals decl)).bind fun _ => checkItemsLogged_keeps steady rest
  | .stmt stmt :: rest, _ => (stmt.checkLogged_keeps steady).bind fun _ => checkItemsLogged_keeps steady rest

end

theorem checkMethodsLogged_keeps (steady : SymbolTable.Steady Inv Good) (items : List Item) (i : Nat) :
    (checkMethodsLogged i items).Keeps Inv := by
  induction items generalizing i with
  | nil => exact keeps_pure ()
  | cons item rest ih =>
    cases item with
    | method decl =>
      have body : (decl.checkLogged i).Keeps Inv :=
        .skip (fun _ => rfl) fun _ => steady.openScope.bind fun _ =>
          (keeps_unlogged (steady.declareParams decl.params)).bind fun _ =>
            (checkItemsLogged_keeps steady decl.body.items).bind fun _ =>
              steady.closeScope.bind fun _ => keeps_same fun _ => rfl
      exact body.bind fun _ => ih (i + 1)
    | const decl | vars decl | classDecl decl => exact ih (i + 1)

theorem checkMethods_keeps (steady : SymbolTable.Steady Inv Good) (items : List Item)
    (state : CheckState) (holds : Inv state.table) :
    Inv ((checkMethods items).outcome state).2.table := by
  have erased := checkMethodsLogged_erases items 0 { state }
  rw [← erased]
  exact (checkMethodsLogged_keeps steady items 0 { state } holds).1

end Statements

end StackCode
