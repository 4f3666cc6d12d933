import StackCode.Proofs.Parallel.Emission
import StackCode.Proofs.Parallel.Statements
import StackCode.Proofs.Tree.Numbers
import StackCode.Report

namespace StackCode

open Checking Twin

def Symbol.moved (place : Span → Span) (symbol : Symbol) : Symbol :=
  { symbol with span := place symbol.span, decl := place symbol.decl }

namespace SymbolTable

def moved (place : Span → Span) (table : SymbolTable) : SymbolTable :=
  { table with history := table.history.map (·.moved place) }

variable (place : Span → Span) (table : SymbolTable)

theorem symbolsAt_moved (ids : List Nat) :
    (table.moved place).symbolsAt ids = (table.symbolsAt ids).map (·.moved place) := by
  unfold symbolsAt moved
  rw [List.map_filterMap]
  refine List.filterMap_congr fun id _ => ?_
  rw [Array.getElem?_map]

theorem find?_moved (name : String) (symbols : List Symbol) :
    (symbols.map (·.moved place)).find? (·.name == name) =
      (symbols.find? (·.name == name)).map (·.moved place) := by
  rw [List.find?_map]
  rfl

theorem lookup?_moved (name : String) :
    (table.moved place).lookup? name = (table.lookup? name).map (·.moved place) := by
  rw [lookup?, lookup?, ← find?_moved, visible, visible, ← symbolsAt_moved]
  rfl

theorem lookupCurrent?_moved (name : String) :
    (table.moved place).lookupCurrent? name = (table.lookupCurrent? name).map (·.moved place) := by
  rw [lookupCurrent?, lookupCurrent?, ← find?_moved, current, current, ← symbolsAt_moved]
  rfl

theorem fieldsOf_moved (className : String) :
    (table.moved place).fieldsOf className = (table.fieldsOf className).map (·.moved place) :=
  symbolsAt_moved place table _

theorem sight_moved : (table.moved place).sight = table.sight := by
  have meanings : ∀ name, ((table.moved place).lookup? name).map Symbol.meaning =
      (table.lookup? name).map Symbol.meaning := by
    intro name
    rw [lookup?_moved, Option.map_map]
    rfl
  have members : ∀ tag name, ((table.moved place).lookupField? tag name).map (·.type) =
      (table.lookupField? tag name).map (·.type) := by
    intro tag name
    have registry : (table.moved place).registry = table.registry := rfl
    unfold lookupField?
    rw [registry]
    cases table.registry.name? tag with
    | none => rfl
    | some className =>
      simp only [Option.bind_eq_bind, Option.bind_some, fieldsOf_moved, find?_moved, Option.map_map]
      rfl
  simp only [sight, meanings, members]
  rfl

theorem push_moved (name : Ident) (type : Tag) (site : Site) (kind : SymbolKind) (decl : Span) :
    (table.moved place).push (name.moved place) type site kind (place decl) =
      (table.push name type site kind decl).moved place := by
  unfold push moved
  simp [Symbol.moved, Ident.moved, level]

theorem likeness_moved : Likeness place fun table other => other = table.moved place where
  sight := by
    rintro table _ rfl
    exact sight_moved place table
  taken := by
    rintro table _ rfl name
    rw [lookupCurrent?_moved, Option.isSome_map]
  opens := by
    rintro table _ rfl
    rfl
  closes := by
    rintro ⟨registry, history, active, boundaries, fields⟩ _ rfl
    cases boundaries <;> rfl
  push := by
    rintro table _ rfl name type site kind decl
    exact push_moved place table name type site kind decl

end SymbolTable

variable {twin : Twin}

abbrev Twin.Pace {α β : Type} (twin : Twin) (f : Checking α) (g : Checking β) (R : α → β → Prop) : Prop :=
  twin.Follows (fun table other => other = table.moved twin.place) f g R

section Declarations

theorem declareClasses_abreast (items : List Item) :
    twin.Pace (declareClasses items) (declareClasses (items.map (·.moved twin.place)))
      fun classes classes' => classes' = classes.map (·.moved twin.place) := by
  induction items with
  | nil => exact follows_pure rfl
  | cons item items ih =>
    cases item with
    | classDecl decl =>
      have introduced : twin.Pace (introduce decl.name (·.declareClass? decl.name decl.span))
          (introduce (decl.name.moved twin.place)
            (·.declareClass? (decl.name.moved twin.place) (twin.place decl.span))) Eq := by
        refine follows_introduce fun table other related => ?_
        subst related
        unfold SymbolTable.declareClass?
        rw [Ident.moved_name, SymbolTable.lookupCurrent?_moved, Option.isSome_map]
        split
        · exact .none
        · refine .some ?_
          rw [SymbolTable.push_moved]
          rfl
      refine introduced.andThen fun fresh => ih.bind fun classes classes' related => follows_pure ?_
      rw [related]
      cases fresh <;> rfl
    | _ => exact ih

theorem declareFieldNames_abreast (className : String) (type : Tag) (decl : Span) (names : List Ident) :
    twin.Pace (declareFieldNames className type decl names)
      (declareFieldNames className type (twin.place decl) (names.map (·.moved twin.place))) Eq := by
  induction names with
  | nil => exact follows_return ()
  | cons name names ih =>
    refine Follows.andThen (Follows.discard (follows_introduce fun table other related => ?_)) fun _ => ih
    subst related
    have taken : ((table.fieldsOf className).map (·.moved twin.place)).any
        (·.name == (name.moved twin.place).name) = (table.fieldsOf className).any (·.name == name.name) := by
      rw [List.any_map]
      rfl
    unfold SymbolTable.declareField?
    rw [SymbolTable.fieldsOf_moved, taken]
    split
    · exact .none
    · refine .some ?_
      unfold SymbolTable.moved
      simp [Symbol.moved, Ident.moved, SymbolTable.level]

theorem declareMembers_abreast (className : String) (decls : List VarDecl) :
    twin.Pace (declareMembers className decls)
      (declareMembers className (decls.map (·.moved twin.place))) Eq := by
  have alike := SymbolTable.likeness_moved twin.place
  induction decls with
  | nil => exact follows_return ()
  | cons decl decls ih =>
    refine Follows.andThen (follows_note fun table other related => ?_) fun type =>
      (declareFieldNames_abreast className type decl.span decl.names).andThen fun _ => ih
    exact namedValueType_agree (SymbolTable.typeOf_of_sight (alike.sight related)) decl.type

theorem ConstDecl.declare_abreast (decl : ConstDecl) :
    twin.Pace decl.declare (decl.moved twin.place).declare Eq := by
  have alike := SymbolTable.likeness_moved twin.place
  rw [ConstDecl.declare, ConstDecl.declare]
  refine Follows.andThen (follows_note fun table other related => ?_) fun type =>
    (follows_declareVar alike decl.name type true .constant decl.span).discard
  have same := alike.sight related
  exact decl.declaredType_agree (SymbolTable.typeOf_of_sight same) (SymbolTable.registry_of_sight same)

theorem MethodDecl.declare_abreast (decl : MethodDecl) :
    twin.Pace decl.declare (decl.moved twin.place).declare Eq := by
  have alike := SymbolTable.likeness_moved twin.place
  rw [MethodDecl.declare, MethodDecl.declare]
  refine Follows.andThen (follows_note fun table other related => ?_) fun signature =>
    (follows_declareMethod alike decl.name signature.1 signature.2 decl.span).discard
  exact decl.signature_agree (SymbolTable.typeOf_of_sight (alike.sight related))

theorem Item.declare_abreast (item : Item) :
    twin.Pace item.declare (item.moved twin.place).declare Eq := by
  cases item with
  | const decl => exact decl.declare_abreast
  | vars decl => exact decl.declare_abreast (SymbolTable.likeness_moved twin.place) .global
  | classDecl decl => exact follows_return ()
  | method decl => exact decl.declare_abreast

theorem forM_abreast {α : Type} {f : α → Checking Unit} {change : α → α}
    (follows : ∀ a, twin.Pace (f a) (f (change a)) Eq) (items : List α) :
    twin.Pace (items.forM f) ((items.map change).forM f) Eq := by
  induction items with
  | nil => exact follows_return ()
  | cons item items ih => exact (follows item).andThen fun _ => ih

theorem checkMethods_abreast (items : List Item) :
    twin.Pace (checkMethods items) (checkMethods (items.map (·.moved twin.place))) Eq := by
  induction items with
  | nil => exact follows_return ()
  | cons item items ih =>
    cases item with
    | method decl =>
      exact (decl.check_abreast (SymbolTable.likeness_moved twin.place)).andThen fun _ => ih
    | _ => exact ih

theorem checkEntry_abreast (entry : String) (span : Span) :
    twin.Pace (checkEntry entry span) (checkEntry entry (twin.place span)) Eq := by
  refine follows_get fun state other abreast => ?_
  have same : other.table.hasEntry entry = state.table.hasEntry entry := by
    rw [abreast.table, SymbolTable.hasEntry, SymbolTable.hasEntry, SymbolTable.lookupCurrent?_moved]
    cases state.table.lookupCurrent? entry <;> rfl
  rw [same]
  exact follows_ite (fun _ => follows_report _ _) fun _ => follows_return ()

theorem Program.checking_abreast (program : Program) (entry : String) :
    twin.Pace (program.checking entry) ((program.moved twin.place).checking entry) Eq := by
  have alike := SymbolTable.likeness_moved twin.place
  refine Follows.andThen (follows_modify fun state other abreast => ?_) fun _ =>
    (declareClasses_abreast program.items).bind fun classes classes' related => ?_
  · exact { abreast with table := alike.opens abreast.table }
  · subst related
    exact (forM_abreast (fun decl => declareMembers_abreast decl.name.name decl.fields) classes).andThen
      fun _ => (forM_abreast Item.declare_abreast program.items).andThen fun _ =>
      (checkMethods_abreast program.items).andThen fun _ => checkEntry_abreast entry program.span

end Declarations

theorem Program.check_unplaced (program : Program) (entry : String) :
    let place : Span → Span := fun _ => {}
    (program.unplaced.check entry).annotations = (program.check entry).annotations ∧
      (program.unplaced.check entry).errors = (program.check entry).errors.map (·.moved place) ∧
      (program.unplaced.check entry).table = (program.check entry).table.moved place := by
  intro place
  let twin : Twin := ⟨place, {}, {}, fun _ _ => rfl⟩
  have start : twin.Abreast (fun table other => other = table.moved place) {} {} :=
    ⟨⟨{}, rfl, rfl⟩, by simp [SymbolTable.moved], rfl, rfl, rfl⟩
  have abreast : twin.Pace (program.checking entry) ((program.moved place).checking entry) Eq :=
    program.checking_abreast entry
  obtain ⟨_, ⟨found, noted, noted'⟩, tables, _⟩ := abreast {} {} start
  have notes : (program.check entry).toNotes = twin.first.add found := noted
  have notes' : (program.unplaced.check entry).toNotes = twin.second.add (found.moved place) := noted'
  refine ⟨?_, ?_, tables⟩
  · exact (congrArg Notes.annotations notes').trans (congrArg Notes.annotations notes).symm
  · rw [notes, notes']
    simp [Notes.add, Findings.moved, twin]

theorem Program.generate_unplaced (program : Program) (table : SymbolTable) (annotations : Annotations)
    (entry : String) :
    program.unplaced.generate (table.moved fun _ => {}) annotations entry =
      program.generate table annotations entry := by
  let place : Span → Span := fun _ => {}
  let env : Env := { table, annotations, constants := constantsOf program.items }
  let other : Env := { table := table.moved place, annotations,
                       constants := constantsOf (program.items.map (·.moved place)) }
  have alike : env.Alike other :=
    ⟨SymbolTable.sight_moved place table, fun _ => rfl, fun name => by
      simp only [env, other, constantsOf_moved]⟩
  have data : other.data (program.items.map (·.moved place)) = env.data program.items := by
    refine Env.data_moved alike (fun className => ?_) program.items
    rw [SymbolTable.fieldsOf_moved, List.map_map]
    rfl
  have methods : other.methodsFrom [] (program.items.map (·.moved place)) =
      env.methodsFrom [] program.items := Env.methodsFrom_moved alike [] program.items
  simp only [Program.generate, Program.unplaced, Program.moved, Ident.moved_name]
  rw [data, methods]

def Symbol.unplaced (symbol : Symbol) : Symbol := symbol.moved fun _ => {}

def ReportEntry.unplaced (entry : ReportEntry) : ReportEntry := { entry with span := {} }

def Rejection.entries (pretty : Tag → String) : Rejection → List ReportEntry
  | .diagnostics found => found.toList.map (.ofDiagnostic pretty)
  | .unsupported cause => [.ofUnsupported cause]

theorem ReportEntry.ofDiagnostic_unplaced (pretty : Tag → String) (found : List Diagnostic) :
    ((found.map (·.moved fun _ => {})).map (.ofDiagnostic pretty)).map ReportEntry.unplaced =
      (found.map (.ofDiagnostic pretty)).map ReportEntry.unplaced := by
  rw [List.map_map, List.map_map, List.map_map]
  rfl

theorem Program.build_unplaced (program : Program) (entry : String) :
    (program.unplaced.build (program.unplaced.check entry) entry).mapError
        (fun r => (r.entries (program.unplaced.check entry).table.pretty).map ReportEntry.unplaced) =
      (program.build (program.check entry) entry).mapError
        fun r => (r.entries (program.check entry).table.pretty).map ReportEntry.unplaced := by
  obtain ⟨annotated, errors, table⟩ := program.check_unplaced entry
  have quiet : ((program.check entry).errors.map (·.moved fun _ => {})).isEmpty =
      (program.check entry).errors.isEmpty := by simp [Array.isEmpty]
  unfold Program.build
  rw [annotated, errors, table, Program.generate_unplaced, quiet]
  split
  · cases program.generate (program.check entry).table (program.check entry).annotations entry <;> rfl
  · simp only [Except.mapError, Rejection.entries, Array.toList_map, ReportEntry.ofDiagnostic_unplaced]
    rfl

/-- Programs that are equal without their places are compiled alike. -/
theorem Program.compiled_alike_of_unplaced_eq (p q : Program) (same : p.unplaced = q.unplaced)
    (entry : String) :
    (p.check entry).annotations = (q.check entry).annotations ∧
      (p.check entry).table.history.map Symbol.unplaced =
        (q.check entry).table.history.map Symbol.unplaced ∧
      (p.check entry).errors.map (·.problem) = (q.check entry).errors.map (·.problem) ∧
      ((p.check entry).errors.map (.ofDiagnostic (p.check entry).table.pretty)).map
          ReportEntry.unplaced =
        ((q.check entry).errors.map (.ofDiagnostic (q.check entry).table.pretty)).map
          ReportEntry.unplaced ∧
      (p.build (p.check entry) entry).mapError
          (fun r => (r.entries (p.check entry).table.pretty).map ReportEntry.unplaced) =
        (q.build (q.check entry) entry).mapError
          (fun r => (r.entries (q.check entry).table.pretty).map ReportEntry.unplaced) := by
  obtain ⟨annotated, errors, table⟩ := p.check_unplaced entry
  obtain ⟨annotated', errors', table'⟩ := q.check_unplaced entry
  have built := p.build_unplaced entry
  rw [same] at annotated errors table built
  have found := errors.symm.trans errors'
  have tables := table.symm.trans table'
  refine ⟨annotated.symm.trans annotated', congrArg SymbolTable.history tables, ?_, ?_, ?_⟩
  · have problems := congrArg (Array.map (·.problem)) found
    rw [Array.map_map, Array.map_map] at problems
    exact problems
  · have pretty : (p.check entry).table.pretty = (q.check entry).table.pretty := by
      funext tag
      exact congrArg (·.registry.pretty tag) tables
    have entries := congrArg (fun errors : Array Diagnostic =>
      (errors.map (.ofDiagnostic (q.check entry).table.pretty)).map ReportEntry.unplaced) found
    simp only [Array.map_map] at entries ⊢
    rw [pretty]
    exact entries
  · exact built.symm.trans (q.build_unplaced entry)

def Sample.onLine (line : UInt32) : Program := Sample.totals.moved fun _ => ⟨line, 1⟩

theorem onLine_compiled_alike : (Sample.onLine 1).unplaced = (Sample.onLine 2).unplaced ∧
    (Sample.onLine 1).span ≠ (Sample.onLine 2).span ∧
    ((Sample.onLine 1).check "Start").errors.map (·.problem) =
      ((Sample.onLine 2).check "Start").errors.map (·.problem) := by
  have same : (Sample.onLine 1).unplaced = (Sample.onLine 2).unplaced := rfl
  refine ⟨same, by decide, ?_⟩
  exact (Program.compiled_alike_of_unplaced_eq _ _ same "Start").2.2.1

end StackCode
