import StackCode.Proofs.Cascade.Statements

namespace StackCode

section Positions

def Owned (positions : List (Path × Stmt)) (occurrences : List Occurrence) : Prop :=
  ∀ position ∈ positions, position.2.ownNodes ⊆ occurrences.map (·.node)

variable {positions more : List (Path × Stmt)} {occurrences others : List Occurrence}

theorem owned_nil : Owned [] occurrences := fun _ member => absurd member List.not_mem_nil

theorem Owned.mono (owned : Owned positions occurrences) (within : occurrences ⊆ others) :
    Owned positions others :=
  fun position member => List.Subset.trans (owned position member) (List.map_subset _ within)

theorem Owned.append (first : Owned positions occurrences) (second : Owned more others) :
    Owned (positions ++ more) (occurrences ++ others) :=
  List.forall_mem_append.mpr ⟨first.mono (List.subset_append_left _ _),
    second.mono (List.subset_append_right _ _)⟩

variable (names : List String) {path : Path} {stmt : Stmt}

theorem Owned.cons (rest : Owned positions others) :
    Owned ((path, stmt) :: positions) (inSight names stmt.ownNodes ++ others) := by
  refine List.forall_mem_cons.mpr ⟨?_, rest.mono (List.subset_append_right _ _)⟩
  rw [List.map_append, inSight, List.map_map, Function.comp_def, List.map_id']
  exact List.subset_append_left _ _

theorem owned_own : Owned [(path, stmt)] (inSight names stmt.ownNodes) := by
  have alone : Owned [] ([] : List Occurrence) := owned_nil
  have owned : Owned [(path, stmt)] (inSight names stmt.ownNodes ++ []) := alone.cons names
  rwa [List.append_nil] at owned

mutual

theorem Stmt.owned {names : List String} {path : Path} : ∀ stmt : Stmt,
    Owned ((path, stmt) :: stmt.inner path) (stmt.occurrences names)
  | .branch _ onTrue onFalse _ => .cons names (onTrue.owned.append (option_owned onFalse))
  | .whileLoop _ body _ => .cons names body.owned
  | .forLoop init cond update body span => by
    rw [Stmt.inner, Stmt.occurrences, List.append_assoc]
    refine (Owned.cons names <| (@option_owned names _ init).append <|
      (@option_owned names _ update).append (@body.owned names _)).mono ?_
    -- The condition stands behind the first statement.
    intro occurrence member
    simp only [List.mem_append] at member ⊢
    rcases member with own | first | rest
    · exact .inr (.inl own)
    · exact .inl first
    · exact .inr (.inr rest)
  | .switch _ cases default _ => .cons names ((cases_owned cases).append (default_owned default))
  | .block ⟨items, _⟩ => .cons names (items_owned items)
  | .assign .. | .call .. | .increment .. | .decrement .. | .read .. | .write .. | .returnStmt ..
  | .breakStmt _ | .empty _ => owned_own names

theorem option_owned {names : List String} {path : Path} : ∀ stmt : Option Stmt,
    Owned (optionPositions path stmt) (optionOccurrences names stmt)
  | none => owned_nil
  | some stmt => stmt.owned

theorem stmts_owned {names : List String} {path : Path} {step : Nat → Step} :
    ∀ (stmts : List Stmt) {i : Nat}, Owned (stmtsPositions path step i stmts) (stmtsOccurrences names stmts)
  | [], _ => owned_nil
  | stmt :: rest, _ => stmt.owned.append (stmts_owned rest)

theorem cases_owned {names : List String} {path : Path} : ∀ (cases : List SwitchCase) {i : Nat},
    Owned (casesPositions path i cases) (casesOccurrences names cases)
  | [], _ => owned_nil
  | ⟨_, body, _⟩ :: rest, _ => (stmts_owned body).append (cases_owned rest)

theorem default_owned {names : List String} {path : Path} : ∀ default : Option DefaultCase,
    Owned (defaultPositions path default) (defaultOccurrences names default)
  | none => owned_nil
  | some ⟨body, _⟩ => stmts_owned body

theorem items_owned {path : Path} : ∀ (items : List BlockItem) {names : List String} {i : Nat},
    Owned (itemsPositions path i items) (itemsOccurrences names items)
  | [], _, _ => owned_nil
  | .var _ :: rest, _, _ => items_owned rest
  | .stmt stmt :: rest, _, _ => stmt.owned.append (items_owned rest)

end

theorem methods_owned (items : List Item) (i : Nat) :
    Owned (methodsPositions i items) (items.flatMap Item.occurrences) := by
  induction items generalizing i with
  | nil => exact owned_nil
  | cons item items ih =>
    cases item with
    | method decl => exact (items_owned decl.body.items).append (ih (i + 1))
    | const decl | vars decl | classDecl decl => exact ih (i + 1)

theorem Program.ownNodes_subset (program : Program) {entry : String} {visit : Visit CheckState}
    (visited : visit ∈ program.checked entry) : visit.stmt.ownNodes ⊆ program.nodes := by
  have position : visit.position ∈ methodsPositions 0 program.items := by
    rw [← (program.checked_counts entry).positions]
    exact List.mem_map_of_mem visited
  exact methods_owned program.items 0 visit.position position

end Positions

section Known

theorem Registry.Held.isKnown_iff {registry : Registry} {type : Tag} (held : registry.Held type) :
    type.isKnown = true ↔ type ≠ .unknown := by
  constructor
  · rintro known rfl
    exact absurd known (by decide)
  · exact fun known => (held.resolve_left known).isKnown

/-- The types of what a name stands for. -/
def Symbol.types (symbol : Symbol) : List Tag :=
  match symbol.kind with
  | .var _ => [symbol.type]
  | .method result params => result :: params
  | .classType => []

theorem Symbol.Held.stands_iff {registry : Registry} {symbol : Symbol} (held : symbol.Held registry) :
    symbol.kind.Stands symbol.type ↔ ∀ type ∈ symbol.types, type ≠ .unknown := by
  unfold Symbol.Held at held
  unfold Symbol.types
  cases kind : symbol.kind with
  | var constant =>
    rw [kind] at held
    rw [List.forall_mem_singleton]
    exact held.isKnown_iff
  | method result params =>
    rw [kind] at held
    rw [List.forall_mem_cons]
    refine and_congr ?_ (forall₂_congr fun param member => (held.2 param member).isKnown_iff)
    rcases held.1 with void | known
    · rw [void]
      exact by decide
    · exact known.isKnown_iff
  | classType =>
    rw [kind] at held
    refine iff_of_true ?_ (List.forall_mem_nil _)
    rcases held with unknown | isClass
    · rw [unknown]
      rfl
    · exact Tag.isProper_of_isKnown (Registry.valued_of_isClass isClass).isKnown

theorem SymbolTable.Held.known_iff {table : SymbolTable} (held : table.Held) : table.Known ↔
    (∀ symbol ∈ table.visible, ∀ type ∈ symbol.types, type ≠ .unknown) ∧
      ∀ className, ∀ symbol ∈ table.fieldsOf className, symbol.type ≠ .unknown := by
  rw [known_iff_stands]
  exact and_congr (forall₂_congr fun symbol member => (held.symbols symbol member).stands_iff)
    (forall₃_congr fun className symbol member => (held.fields className symbol member).isKnown_iff)

end Known

section Reasons

open Logging

/-- The checks that give a type to a node: its own and, for a call, that of what the callee gives. -/
def Node.typings (table : SymbolTable) : Node → List (Noting Tag)
  | .expr e => [e.check table]
  | .term product => [product.check table]
  | .factor ⟨id, .call callee args, span⟩ =>
    [Factor.check table ⟨id, .call callee args, span⟩, callee.checkCall table args span]
  | .factor value => [value.check table]
  | .designator target => [target.check table]
  | .fact test => [test.check table]
  | .condTerm _ | .condition _ => []

/-- The checks that give a type to something in a statement but not in a statement within it. -/
def Stmt.typings (table : SymbolTable) (stmt : Stmt) : List (Noting Tag) :=
  stmt.ownNodes.flatMap (Node.typings table) ++
    match stmt with
    | .call callee args span => [callee.checkCall table args span]
    | _ => []

variable {table : SymbolTable}

theorem Node.typings_tell (held : table.Held) {node : Node} (plain : ∀ inner ∈ node.below, inner.Plain table)
    {typing : Noting Tag} (listed : typing ∈ node.typings table) (notes : Notes) :
    typing.Tells notes fun type after => type = .void ∨ Given table.registry notes.tally type after := by
  unfold Node.typings at listed
  split at listed
  · rw [List.mem_singleton.mp listed]
    exact (Expr.check_tells held _ plain notes).mono fun _ _ _ => .inr
  · rw [List.mem_singleton.mp listed]
    exact (Term.check_tells held _ plain notes).mono fun _ _ _ => .inr
  · rename_i id callee args span
    rcases List.mem_cons.mp listed with own | called
    · rw [own]
      exact (Factor.check_tells held _ plain notes).mono fun _ _ _ => .inr
    · rw [List.mem_singleton.mp called]
      have inside := (List.forall_mem_cons.mp plain).2
      exact callee.checkCall_tells held (List.forall_mem_append.mp inside).2 span notes
  · rw [List.mem_singleton.mp listed]
    exact (Factor.check_tells held _ plain notes).mono fun _ _ _ => .inr
  · rw [List.mem_singleton.mp listed]
    exact (Designator.check_tells held _ plain notes).mono fun _ _ _ => .inr
  · rw [List.mem_singleton.mp listed]
    exact (CondFact.check_tells held _ plain notes).mono fun _ _ _ => .inr
  · exact absurd listed List.not_mem_nil
  · exact absurd listed List.not_mem_nil

theorem Stmt.typings_tell (held : table.Held) {stmt : Stmt} (plain : ∀ node ∈ stmt.ownNodes, node.Plain table)
    {typing : Noting Tag} (listed : typing ∈ stmt.typings table) (notes : Notes) :
    typing.Tells notes fun type after => type = .void ∨ Given table.registry notes.tally type after := by
  rcases List.mem_append.mp listed with inside | called
  · obtain ⟨node, own, typed⟩ := List.mem_flatMap.mp inside
    have below := stmt.ownNodes_closed node own
    exact Node.typings_tell held (fun inner member => plain inner (below member)) typed notes
  · split at called
    · rename_i callee args span
      rw [List.mem_singleton.mp called]
      exact callee.checkCall_tells held (List.forall_mem_append.mp plain).2 span notes
    · exact absurd called List.not_mem_nil

namespace Program

variable {program : Program} {entry : String}

theorem checked_held : ∀ visit ∈ program.checked entry, visit.state.table.Held := by
  obtain ⟨visits, run, held, _⟩ :=
    (program.checkLogged_tidy entry).visits { state := {} } SymbolTable.stocked_empty
  rw [Program.checked, run]
  exact held

/-- No table that a statement is checked with has a list of the unknown type: it knows all its types if
none of them is the unknown type itself. -/
theorem checked_known_iff {visit : Visit CheckState} (member : visit ∈ program.checked entry) :
    visit.state.table.Known ↔
      (∀ symbol ∈ visit.state.table.visible, ∀ type ∈ symbol.types, type ≠ .unknown) ∧
        ∀ className, ∀ symbol ∈ visit.state.table.fieldsOf className, symbol.type ≠ .unknown :=
  (checked_held visit member).known_iff

theorem check_reported (plain : ∀ visit ∈ program.checked entry, visit.Plain) :
    Reported (program.check entry).errors.toList := by
  obtain ⟨visits, run, _, leads⟩ :=
    (program.checkLogged_tidy entry).visits { state := {} } SymbolTable.stocked_empty
  have visited : ∀ visit ∈ visits, visit.Plain := by
    intro visit member
    apply plain
    rw [Program.checked, run]
    exact member
  have erased := congrArg Prod.snd (program.checkLogged_erases entry { state := {} })
  obtain ⟨⟨new, added, reported⟩, _⟩ := leads (fun _ member => absurd member List.not_mem_nil) visited
  dsimp only at erased
  rw [erased] at added
  have errors : (program.check entry).errors.toList = new := added
  rw [errors]
  exact reported

end Program

end Reasons

/-- In a program without `null` and `[]`, and with no type of more dimensions than there is room for, what
gets the unknown type has a reason for it, noted while it was checked. A report names the unknown type
only if it is on a cast to a written type that the report right before it calls unknown. -/
theorem Program.unknown_explained (program : Program) (entry : String)
    (plain : ∀ node ∈ program.nodes, node.isPlain = true)
    (fits : ∀ visit ∈ program.checked entry, ∀ node ∈ visit.stmt.ownNodes,
      node.fits visit.state.table = true) :
    (∀ visit ∈ program.checked entry, ∀ typing ∈ visit.stmt.typings visit.state.table, ∀ notes : Notes,
      (typing.outcome notes).1 = .unknown → notes.tally < (typing.outcome notes).2.tally) ∧
    ∀ i d, (program.check entry).errors[i]? = some d → .unknown ∈ d.problem.types →
      ∃ j source name place, i = j + 1 ∧ d.problem = .mismatch (.cast source .unknown) ∧
        source ≠ .unknown ∧ (program.check entry).errors[j]? = some ⟨.unknownType name, place⟩ := by
  have plainly : ∀ visit ∈ program.checked entry, visit.Plain := fun visit member node own =>
    ⟨plain node (program.ownNodes_subset member own), fits visit member node own⟩
  constructor
  · intro visit member typing listed notes unknown
    obtain ⟨_, given⟩ := Stmt.typings_tell (checked_held visit member) (plainly visit member) listed notes
    rcases given with void | given
    · exact absurd (unknown.symm.trans void) (by decide)
    · exact given.explains unknown
  · intro i d found named
    have reported := check_reported plainly
    simp only [← Array.getElem?_toList] at found ⊢
    exact reported.getElem? found named

namespace Sample

/-- `void Main() { int x; x = y[0].f + Foo(z) * (-"s"); while ([w] == v) x++; x = (Foo) "s"; }` -/
def undeclared : Program := program [
  method none "Main" [] [
    .var (vars "int" ["x"]),
    .stmt (.assign (place "x" [])
      (sum (term (load "y" [.index (value (int 0)), .field ⟨"f", {}⟩]) [])
        [(.add, term (call "Foo" [value (load "z" [])]) [(.mul, factor (.paren
          ⟨0, true, none, term (.literal (.str "s")) [], [], {}⟩))])]) {}),
    .stmt (.whileLoop (test (value (.list [value (load "w" [])])) .eq (value (load "v" [])))
      (.increment (place "x" []) {}) {}),
    .stmt (.assign (place "x" [])
      ⟨0, false, some ⟨"Foo", {}⟩, term (.literal (.str "s")) [], [], {}⟩ {})]]

end Sample

theorem undeclared_explained : (Sample.undeclared.check "Main").errors.toList.map (·.problem) =
      [.undeclared "y", .undeclared "z", .undeclared "Foo", .mismatch (.negation .string),
        .undeclared "w", .undeclared "v", .unknownType "Foo", .mismatch (.cast .string .unknown)] ∧
    ∃ j source name place, 7 = j + 1 ∧
      Problem.mismatch (.cast .string .unknown) = .mismatch (.cast source .unknown) ∧
      source ≠ .unknown ∧
      (Sample.undeclared.check "Main").errors[j]? = some ⟨.unknownType name, place⟩ := by
  refine ⟨by decide +kernel, ?_⟩
  exact (Sample.undeclared.unknown_explained "Main" (by decide +kernel) (by decide +kernel)).2 7
    ⟨.mismatch (.cast .string .unknown), {}⟩ (by decide +kernel) (by decide)

namespace Sample

/-- `void Main() { int x; x = (Foo) "s"; }` -/
def castToUnknown : Program := program [
  method none "Main" [] [
    .var (vars "int" ["x"]),
    .stmt (.assign (place "x" [])
      ⟨0, false, some ⟨"Foo", {}⟩, term (.literal (.str "s")) [], [], {}⟩ {})]]

end Sample

/-- A cast to a type that is not declared is reported twice, the second time with the unknown type. -/
theorem castToUnknown_reported_twice :
    Sample.castToUnknown.nodes.all Node.isPlain = true ∧
    (Sample.castToUnknown.check "Main").errors =
      #[⟨.unknownType "Foo", {}⟩, ⟨.mismatch (.cast .string .unknown), {}⟩] ∧
    .unknown ∈ (Problem.mismatch (.cast .string .unknown)).types := by
  decide +kernel

end StackCode
