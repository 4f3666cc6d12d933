import StackCode.Proofs.Balance.Scopes
import StackCode.Proofs.Breaks.Visits
import StackCode.Proofs.Order.Program

namespace StackCode

open Checking

def CasesFit (selector : Tag) : (seen : List Literal) → List SwitchCase → Prop
  | _, [] => True
  | seen, case :: rest => case.label.Labels selector seen ∧ CasesFit selector (case.label :: seen) rest

/-- What is known of the labels of a statement that is a switch, by the types that nodes have; `used`
says that a name of unknown type has been used. -/
def Stmt.Sorted (facts : Facts) (used : Prop) : Stmt → Prop
  | .switch selector cases _ _ => ∃ type, facts selector.id type ∧
      ((type = .unknown ∧ used) ∨ (type.isSelector = true ∧ CasesFit type [] cases))
  | _ => True

def AllSorted (facts : Facts) (used : Prop) (positions : List (Path × Stmt)) : Prop :=
  ∀ position ∈ positions, position.2.Sorted facts used

section Lists

variable {facts : Facts} {used : Prop} {position : Path × Stmt} {first others : List (Path × Stmt)}

theorem allSorted_nil : AllSorted facts used [] := fun _ member => nomatch member

theorem AllSorted.append (one : AllSorted facts used first) (two : AllSorted facts used others) :
    AllSorted facts used (first ++ others) :=
  List.forall_mem_append.mpr ⟨one, two⟩

theorem AllSorted.cons (one : position.2.Sorted facts used) (two : AllSorted facts used others) :
    AllSorted facts used (position :: others) :=
  List.forall_mem_cons.mpr ⟨one, two⟩

end Lists

namespace Checking

variable {α β : Type}

/-- What the check finds does not depend on what has been found before. It records types for the nodes
`ids`, and if it reports nothing, `post` holds by these types. -/
def Sorts (f : Checking α) (ids : List NodeId) (post : Facts → Prop → α → Prop) : Prop :=
  ∀ state : CheckState, ∃ found : Findings, (f.outcome state).2.toNotes = state.toNotes.add found ∧
    found.log.map Prod.fst = ids ∧ (found.errors = [] → ∀ (facts : Facts) (used : Prop),
      (∀ entry ∈ found.log, facts entry.1 entry.2) → (0 < found.uses → used) →
        post facts used (f.outcome state).1)

variable {f : Checking α} {ids ids' : List NodeId} {post post' : Facts → Prop → α → Prop}

theorem Sorts.mono (sorts : f.Sorts ids post)
    (weaker : ∀ facts used a, post facts used a → post' facts used a) : f.Sorts ids post' := by
  intro state
  obtain ⟨found, added, keys, holds⟩ := sorts state
  exact ⟨found, added, keys, fun quiet facts used known uses =>
    weaker facts used _ (holds quiet facts used known uses)⟩

theorem add_add (notes : Notes) (one two : Findings) : (notes.add one).add two =
    notes.add ⟨one.errors ++ two.errors, one.log ++ two.log, one.uses + two.uses⟩ := by
  unfold Notes.add
  rw [Annotations.recordAll_append, Nat.add_assoc]
  have errors : notes.errors ++ one.errors ++ two.errors = notes.errors ++ (one.errors ++ two.errors) :=
    Array.ext' (by simp)
  rw [errors]

theorem Sorts.bind {g : α → Checking β} {Q : α → Facts → Prop → β → Prop} (first : f.Sorts ids post)
    (second : ∀ a, (g a).Sorts ids' (Q a)) :
    (f >>= g).Sorts (ids ++ ids') fun facts used b => ∃ a, post facts used a ∧ Q a facts used b := by
  intro state
  obtain ⟨found, added, keys, holds⟩ := first state
  obtain ⟨found', added', keys', holds'⟩ := second (f.outcome state).1 (f.outcome state).2
  refine ⟨⟨found.errors ++ found'.errors, found.log ++ found'.log, found.uses + found'.uses⟩, ?_, ?_, ?_⟩
  · have run : ((f >>= g).outcome state).2 =
        ((g (f.outcome state).1).outcome (f.outcome state).2).2 := rfl
    rw [run, added', added, add_add]
  · rw [List.map_append, keys, keys']
  · intro quiet facts used known uses
    obtain ⟨none, none'⟩ := List.append_eq_nil_iff.mp quiet
    rw [List.forall_mem_append] at known
    exact ⟨_, holds none facts used known.1 fun some => uses (Nat.add_pos_left some _),
      holds' none' facts used known.2 fun some => uses (Nat.add_pos_right _ some)⟩

theorem Sorts.after {g : α → Checking β} {Q : Facts → Prop → β → Prop} (first : f.Sorts ids post)
    (second : ∀ a, (g a).Sorts ids' Q) : (f >>= g).Sorts (ids ++ ids') Q :=
  (first.bind second).mono fun _ _ _ ⟨_, _, found⟩ => found

theorem found_of_follows {g : Checking α} {R : CheckState → CheckState → Prop}
    {pre : CheckState → Prop} {Q : Facts → α → CheckState → Prop} (checks : f.Checks ids R pre Q)
    (same : g = f) (follows : ∀ start : Notes, (Twin.onto start).Follows Eq f g Eq)
    (state : CheckState) :
    ∃ found : Findings, (f.outcome state).2.toNotes = state.toNotes.add found ∧
      found.log.map Prod.fst = ids ∧ (f.outcome { state with toNotes := {} }).2.tally = found.tally := by
  subst same
  have abreast : (Twin.onto state.toNotes).Abreast Eq { state with toNotes := {} } state :=
    ⟨⟨{}, rfl, rfl⟩, rfl, rfl, rfl, rfl⟩
  obtain ⟨_, ⟨found, alone, added⟩, _⟩ := follows state.toNotes _ _ abreast
  change _ = state.toNotes.add (found.moved id) at added
  rw [Findings.moved_id] at added
  obtain ⟨_, _, log, makes, keys, _⟩ := checks state
  have annotated := makes.annotations_eq
  refine ⟨⟨found.errors, log, found.uses⟩, ?_, keys, ?_⟩
  · rw [added] at annotated ⊢
    have same : state.annotations.recordAll found.log = state.annotations.recordAll log := annotated
    unfold Notes.add
    rw [same]
  · rw [alone, Notes.tally_add]
    exact Nat.zero_add _

theorem sorts_of_follows {g : Checking α} {R : CheckState → CheckState → Prop}
    {pre : CheckState → Prop} {Q : Facts → α → CheckState → Prop} (checks : f.Checks ids R pre Q)
    (same : g = f) (follows : ∀ start : Notes, (Twin.onto start).Follows Eq f g Eq) :
    f.Sorts ids fun _ _ _ => True := by
  intro state
  obtain ⟨found, added, keys, _⟩ := found_of_follows checks same follows state
  exact ⟨found, added, keys, fun _ _ _ _ _ => trivial⟩

theorem sorts_pure (a : α) : (pure a : Checking α).Sorts [] fun _ _ b => b = a :=
  fun state => ⟨{}, by rfl, rfl, fun _ _ _ _ _ => rfl⟩

/-- If the check reports nothing, the labels of the switches at `positions` are known. -/
def SortsAll (f : Checking α) (ids : List NodeId) (positions : List (Path × Stmt)) : Prop :=
  f.Sorts ids fun facts used _ => AllSorted facts used positions

variable {positions more : List (Path × Stmt)}

theorem sortsAll_pure (a : α) : (pure a : Checking α).SortsAll [] [] :=
  (sorts_pure a).mono fun _ _ _ _ => allSorted_nil

theorem SortsAll.then {g : α → Checking β} (first : f.SortsAll ids positions)
    (second : ∀ a, (g a).SortsAll ids' more) : (f >>= g).SortsAll (ids ++ ids') (positions ++ more) :=
  (first.bind second).mono fun _ _ _ ⟨_, one, two⟩ => one.append two

theorem SortsAll.come {path : Path} {stmt : Stmt} (inner : f.SortsAll ids positions)
    (other : ∀ facts used, stmt.Sorted facts used) : f.SortsAll ids ((path, stmt) :: positions) :=
  inner.mono fun _ _ _ inner => .cons (other _ _) inner

variable {f : Checking Unit} {post : Facts → Prop → Unit → Prop} (sorts : f.Sorts ids post)

include sorts

theorem Sorts.inLoop : (do enterLoop; f; leaveLoop).Sorts ids post :=
  fun state => sorts { state with loopDepth := state.loopDepth + 1 }

theorem Sorts.inSwitch : (do enterSwitch; f; leaveSwitch).Sorts ids post :=
  fun state => sorts { state with switchDepth := state.switchDepth + 1 }

theorem Sorts.inScope : (do openScope; f; closeScope).Sorts ids post :=
  fun state => sorts { state with table := state.table.openScope }

end Checking

section Parts

theorem Stmt.check_sorts_nodes (stmt : Stmt) : stmt.check.Sorts stmt.annotated fun _ _ _ => True := by
  have checks : stmt.check.Checks stmt.annotated CheckState.Kept
      (·.At ({} : SymbolTable).sight [] false .void) _ := stmt.check_checks
  exact sorts_of_follows checks (congrArg Stmt.check stmt.moved_same) fun _ =>
    stmt.check_abreast likeness_eq

theorem condition_sorts (cond : Condition) :
    (note fun table => cond.check table).Sorts cond.annotated fun _ _ _ => True := by
  have checks : (note fun table => cond.check table).Checks cond.annotated CheckState.Kept
      (fun _ => False) _ := checks_note fun table => Condition.check_finds table cond
  exact sorts_of_follows checks (congrArg (fun cond => note (Condition.check · cond))
    (condition_moved_same cond)) fun _ => cond.check_abreast likeness_eq

theorem VarDecl.declare_sorts (decl : VarDecl) :
    (decl.declare .localVar).Sorts [] fun _ _ _ => True := by
  have checks : (decl.declare .localVar).Checks [] CheckState.Grown
      (·.At ({} : SymbolTable).sight [] false .void) _ := decl.declare_checks .localVar
  exact sorts_of_follows checks (congrArg (VarDecl.declare · .localVar) decl.moved_same) fun _ =>
    decl.declare_abreast likeness_eq .localVar

def Noting.Ends (f : Noting Tag) (id : NodeId) : Prop :=
  ∀ notes, (f.outcome notes).2.annotations.type? id = some (f.outcome notes).1

theorem Noting.ends_record (id : NodeId) (type : Tag) :
    (do Noting.record id type; return type : Noting Tag).Ends id := by
  intro notes
  change (notes.annotations.record id type).type? id = some type
  rw [Annotations.type?_record, if_pos rfl]

theorem Noting.ends_bind {α : Type} {f : Noting α} {g : α → Noting Tag} {id : NodeId}
    (second : ∀ a, (g a).Ends id) : (f >>= g).Ends id :=
  fun notes => second _ (f.outcome notes).2

theorem Expr.check_ends (table : SymbolTable) (e : Expr) : (e.check table).Ends e.id := by
  obtain ⟨id, neg, cast, head, tail, span⟩ := e
  rw [Expr.check]
  refine Noting.ends_bind fun start => ?_
  have rest (type : Tag) : (do
      let type ← checkCast table start type span cast
      let type ← checkSign start neg type span
      let type ← checkSum table start span type tail
      Noting.record id type
      return type : Noting Tag).Ends id :=
    Noting.ends_bind fun _ => Noting.ends_bind fun _ => Noting.ends_bind fun _ => Noting.ends_record id _
  dsimp only
  split
  · exact Noting.ends_bind fun _ => Noting.ends_bind fun _ => Noting.ends_bind rest
  · exact Noting.ends_bind rest

theorem Expr.own_record {table : SymbolTable} {e : Expr} {notes : Notes} {log : List (NodeId × Tag)}
    (annotated : ((e.check table).outcome notes).2.annotations = notes.annotations.recordAll log)
    (keys : log.map Prod.fst = e.annotated) : (e.id, ((e.check table).outcome notes).1) ∈ log := by
  obtain ⟨others, last⟩ : ∃ others, e.annotated = others ++ [e.id] := by
    obtain ⟨id, neg, cast, head, tail, span⟩ := e
    exact ⟨head.annotated ++ sumAnnotated tail, by rw [Expr.annotated, List.append_assoc]⟩
  rw [last] at keys
  obtain ⟨before, own, rfl, _, single⟩ := List.map_eq_append_iff.mp keys
  obtain ⟨⟨id, type⟩, rfl, rfl⟩ := List.map_eq_singleton_iff.mp single
  have recorded := e.check_ends table notes
  rw [annotated, Annotations.recordAll_append] at recorded
  change ((notes.annotations.recordAll before).record e.id type).type? e.id = _ at recorded
  rw [Annotations.type?_record, if_pos rfl] at recorded
  rw [← Option.some.inj recorded]
  exact List.mem_append_right _ (List.mem_singleton.mpr rfl)

theorem outcome_checkSelector (selector : Expr) (span : Span) (state : CheckState) :
    (checkSelector selector span).outcome state =
      let mid := (selector.check state.table).outcome state.toNotes
      if !mid.1.isSelector && !(state.tally < mid.2.tally && mid.1.isUnknown) then
        (mid.1, { state with toNotes :=
          ((Noting.mismatch (.selector mid.1) (selector.span.orElse span)).outcome mid.2).2 })
      else (mid.1, { state with toNotes := mid.2 }) := by
  let mid := (selector.check state.table).outcome state.toNotes
  have excuse : [mid.1].any Tag.isUnknown = mid.1.isUnknown := by simp
  have run : (checkSelector selector span).outcome state =
      (fun (result : Tag × Notes) => (result.1, { state with toNotes := result.2 }))
        ((if !mid.1.isSelector && !(state.tally < mid.2.tally && [mid.1].any Tag.isUnknown) then do
            Noting.mismatch (.selector mid.1) (selector.span.orElse span)
            return mid.1
          else return mid.1 : Noting Tag).outcome mid.2) := rfl
  rw [run, excuse]
  dsimp only
  split <;> rfl

/-- The type of a selector is recorded. It is one to decide by, or else it is unknown and a name of
unknown type has been used. -/
theorem checkSelector_sorts (selector : Expr) (span : Span) :
    (checkSelector selector span).Sorts selector.annotated fun facts used type =>
      facts selector.id type ∧ (type.isSelector = true ∨ type = .unknown ∧ used) := by
  have checks : (checkSelector selector span).Checks selector.annotated CheckState.Kept
      (·.At ({} : SymbolTable).sight [] false .void) _ := checkSelector_checks selector span
  intro state
  obtain ⟨found, added, keys, _⟩ := sorts_of_follows checks
    (congrArg (checkSelector · span) selector.moved_same)
    (fun _ => checkSelector_abreast likeness_eq selector span) state
  refine ⟨found, added, keys, fun quiet facts used known uses => ?_⟩
  have run := outcome_checkSelector selector span state
  dsimp only at run
  have size : ((checkSelector selector span).outcome state).2.errors.size = state.errors.size := by
    rw [show ((checkSelector selector span).outcome state).2.errors = _ from
      congrArg Notes.errors added, Notes.add, quiet]
    simp
  have grows : state.errors.size ≤ ((selector.check state.table).outcome state.toNotes).2.errors.size :=
    selector.check_clears.grows state.toNotes
  split at run
  · -- A complaint would be among the reports.
    rw [run] at size
    change (((selector.check state.table).outcome state.toNotes).2.errors.push _).size = _ at size
    rw [Array.size_push] at size
    omega
  · rename_i silent
    rw [run] at added ⊢
    have annotated : ((selector.check state.table).outcome state.toNotes).2.annotations =
        state.annotations.recordAll found.log := congrArg Notes.annotations added
    refine ⟨known _ (Expr.own_record annotated keys), ?_⟩
    have tally : ((selector.check state.table).outcome state.toNotes).2.tally =
        state.tally + found.tally := by
      rw [← Notes.tally_add]
      exact congrArg Notes.tally added
    rw [Findings.tally, quiet, List.length_nil, Nat.zero_add] at tally
    by_cases selects : ((selector.check state.table).outcome state.toNotes).1.isSelector = true
    · exact .inl selects
    · simp only [selects, Bool.not_false, Bool.true_and, Bool.not_eq_true', Bool.not_eq_false,
        Bool.and_eq_true, decide_eq_true_eq, tally] at silent
      exact .inr ⟨by simpa [Tag.isUnknown] using silent.2, uses (by omega)⟩

theorem Literal.check_uses (literal : Literal) (span : Span) (notes : Notes) :
    ((literal.check span).outcome notes).2.unknownUses = notes.unknownUses := by
  unfold Literal.check
  cases literal with
  | int | char =>
    dsimp only
    split <;> rfl
  | float x | double x | str s | bool b | null => rfl

theorem checkLabel_uses (selector : Tag) (seen : List Literal) (label : Literal) (span : Span)
    (state : CheckState) : ((checkLabel selector seen label span).outcome state).2.unknownUses =
      state.unknownUses := by
  rw [← label.check_uses span state.toNotes]
  let mid := (label.check span).outcome state.toNotes
  change (((do
    if selector.isSelector && mid.1 != selector then Noting.mismatch (.caseLabel label selector) span
    if seen.any (·.sameValue label) then Noting.report (.duplicateLabel label) span :
      Noting Unit).outcome mid.2).2).unknownUses = mid.2.unknownUses
  split <;> dsimp only <;> split <;> rfl

theorem checkLabel_sorts (selector : Tag) (seen : List Literal) (label : Literal) (span : Span) :
    (checkLabel selector seen label span).Sorts [] fun _ _ _ =>
      selector.isSelector = true → label.Labels selector seen := by
  have checks : (checkLabel selector seen label span).Checks [] CheckState.Kept
      (·.At ({} : SymbolTable).sight [] false .void) _ := checkLabel_checks selector seen label span
  intro state
  obtain ⟨found, added, keys, alone⟩ := found_of_follows checks rfl
    (fun _ => checkLabel_abreast selector seen label span) state
  refine ⟨found, added, keys, fun quiet facts _ _ _ => ?_⟩
  have uses : state.unknownUses + found.uses = state.unknownUses :=
    (congrArg Notes.unknownUses added).symm.trans (checkLabel_uses selector seen label span state)
  have none : found.tally = 0 := by
    rw [Findings.tally, quiet, List.length_nil]
    omega
  obtain ⟨_, log, _, keys, holds⟩ := label_finds selector seen label span {}
  obtain rfl := List.map_eq_nil_iff.mp keys
  exact holds (alone.trans none) facts fun _ member => absurd member List.not_mem_nil

end Parts

section Statements

mutual

theorem Stmt.check_sorts (path : Path) : ∀ stmt : Stmt,
    stmt.check.SortsAll stmt.annotated ((path, stmt) :: stmt.inner path)
  | .branch cond onTrue onFalse _ =>
    .come ((condition_sorts cond).after fun _ => (onTrue.check_sorts _).then fun _ =>
      checkOption_sorts _ onFalse) fun _ _ => trivial
  | .whileLoop cond body _ =>
    .come ((condition_sorts cond).after fun _ => (body.check_sorts _).inLoop) fun _ _ => trivial
  | .forLoop init cond update body _ => by
    have rest : (do
        checkOption update
        enterLoop
        body.check
        leaveLoop : Checking Unit).SortsAll (optionAnnotated update ++ body.annotated)
          (optionPositions (.update :: path) update ++
            (.body :: path, body) :: body.inner (.body :: path)) :=
      (checkOption_sorts _ update).then fun _ => (body.check_sorts _).inLoop
    rw [Stmt.check, Stmt.annotated, Stmt.inner, List.append_assoc]
    refine .come ((checkOption_sorts _ init).then fun _ => ?_) fun _ _ => trivial
    cases cond with
    | none => exact rest
    | some cond => exact (condition_sorts cond).after fun _ => rest
  | .switch selector cases default span => by
    refine ((checkSelector_sorts selector span).bind fun type =>
      ((checkCases_sorts path 0 type cases).bind fun _ => checkDefault_sorts path default).inSwitch).mono ?_
    rintro facts used _ ⟨type, ⟨recorded, decides⟩, _, ⟨fit, inner⟩, last⟩
    refine .cons ⟨type, recorded, ?_⟩ (inner.append last)
    rcases decides with selects | unknown
    · exact .inr ⟨selects, fit selects⟩
    · exact .inl unknown
  | .block ⟨items, _⟩ => .come (checkItems_sorts path 0 items).inScope fun _ _ => trivial
  | .assign .. | .call .. | .increment .. | .decrement .. | .breakStmt _ | .returnStmt .. | .read ..
  | .write .. | .empty _ =>
    (Stmt.check_sorts_nodes _).mono fun _ _ _ _ => .cons trivial allSorted_nil

theorem checkOption_sorts (path : Path) : ∀ stmt : Option Stmt,
    (checkOption stmt).SortsAll (optionAnnotated stmt) (optionPositions path stmt)
  | none => sortsAll_pure ()
  | some stmt => stmt.check_sorts path

theorem checkStmts_sorts (path : Path) (step : Nat → Step) (i : Nat) : ∀ stmts : List Stmt,
    (checkStmts stmts).SortsAll (stmtsAnnotated stmts) (stmtsPositions path step i stmts)
  | [] => sortsAll_pure ()
  | stmt :: rest => (stmt.check_sorts _).then fun _ => checkStmts_sorts path step (i + 1) rest

theorem checkCases_sorts (path : Path) (i : Nat) (selector : Tag) :
    ∀ (cases : List SwitchCase) {seen : List Literal},
      (checkCases selector seen cases).Sorts (casesAnnotated cases)
      fun facts used _ => (selector.isSelector = true → CasesFit selector seen cases) ∧
        AllSorted facts used (casesPositions path i cases)
  | [], _ => (sorts_pure ()).mono fun _ _ _ _ => ⟨fun _ => trivial, allSorted_nil⟩
  | ⟨label, body, span⟩ :: rest, seen => by
    refine ((checkLabel_sorts selector seen label span).bind fun _ =>
      (checkStmts_sorts path (.case i) 0 body).bind fun _ =>
        checkCases_sorts path (i + 1) selector rest).mono ?_
    rintro facts used _ ⟨_, labels, _, one, fit, two⟩
    exact ⟨fun selects => ⟨labels selects, fit selects⟩, one.append two⟩

theorem checkDefault_sorts (path : Path) : ∀ default : Option DefaultCase,
    (checkDefault default).SortsAll (defaultAnnotated default) (defaultPositions path default)
  | none => sortsAll_pure ()
  | some ⟨body, _⟩ => checkStmts_sorts path .fallback 0 body

theorem checkItems_sorts (path : Path) (i : Nat) : ∀ items : List BlockItem,
    (checkItems items).SortsAll (itemsAnnotated items) (itemsPositions path i items)
  | [] => sortsAll_pure ()
  | .var decl :: rest => decl.declare_sorts.after fun _ => checkItems_sorts path (i + 1) rest
  | .stmt stmt :: rest => (stmt.check_sorts _).then fun _ => checkItems_sorts path (i + 1) rest

end

theorem declareParams_sorts (params : List Param) :
    (declareParams params).Sorts [] fun _ _ _ => True := by
  have checks : (declareParams params).Checks [] CheckState.Grown
      (·.At ({} : SymbolTable).sight [] false .void) _ := declareParams_checks params
  have same : params.map (·.moved id) = params := map_moved_same (fun _ => rfl) params
  exact sorts_of_follows checks (congrArg declareParams same) fun _ =>
    declareParams_abreast likeness_eq params

theorem MethodDecl.check_sorts (decl : MethodDecl) (i : Nat) : decl.check.SortsAll
    (itemsAnnotated decl.body.items) (itemsPositions [.method i] 0 decl.body.items) := by
  have body := ((declareParams_sorts decl.params).after fun _ =>
    checkItems_sorts [.method i] 0 decl.body.items).inScope
  exact fun state => body { state with expectedResult := state.table.resultType decl.result }

theorem checkMethods_sorts (items : List Item) (i : Nat) : (checkMethods items).SortsAll
    (items.flatMap Item.annotated) (methodsPositions i items) := by
  induction items generalizing i with
  | nil => exact sortsAll_pure ()
  | cons item rest ih =>
    cases item with
    | method decl => exact (decl.check_sorts i).then fun _ => ih (i + 1)
    | const decl | vars decl | classDecl decl => exact ih (i + 1)

end Statements

namespace Program

variable {program : Program} {entry : String}

/-- Where nothing is reported, the labels of all switches are known by the types that were recorded. -/
theorem switches_sorted (clean : (program.check entry).errors = #[]) : ∃ log,
    (program.check entry).annotations = program.declared.annotations.recordAll log ∧
      log.map Prod.fst = program.annotated ∧
      ∀ facts : Facts, (∀ entry ∈ log, facts entry.1 entry.2) →
        AllSorted facts (0 < (program.check entry).unknownUses) (methodsPositions 0 program.items) := by
  obtain ⟨found, added, keys, holds⟩ := checkMethods_sorts program.items 0 program.declared
  have last : program.check entry = ((checkEntry entry program.span).outcome
      ((checkMethods program.items).outcome program.declared).2).2 := rfl
  rw [outcome_checkEntry] at last
  split at last
  · rw [last] at clean ⊢
    have quiet : found.errors = [] := by
      have errors := congrArg (fun notes : Notes => notes.errors.toList) added
      rw [Notes.add_errors] at errors
      exact (List.append_eq_nil_iff.mp (errors.symm.trans (congrArg Array.toList clean))).2
    refine ⟨found.log, congrArg Notes.annotations added, keys, fun facts known => ?_⟩
    refine holds quiet facts _ known fun uses => ?_
    rw [show ((checkMethods program.items).outcome program.declared).2.unknownUses = _ from
      congrArg Notes.unknownUses added, Notes.add]
    exact Nat.add_pos_right _ uses
  · rw [last] at clean
    exact absurd clean (by simp)

/-- The type that the selector of a switch has got, and its labels, in a program of which the nodes are
numbered. -/
theorem switch_sorted (numbered : program.IsNumbered) (clean : (program.check entry).errors = #[])
    {path : Path} {stmt : Stmt} (inside : (path, stmt) ∈ methodsPositions 0 program.items) :
    stmt.Sorted (fun id tag => (program.check entry).annotations.type? id = some tag)
      (0 < (program.check entry).unknownUses) := by
  obtain ⟨log, annotated, keys, sorted⟩ := switches_sorted clean
  refine sorted _ (fun entry member => ?_) _ inside
  have once : (log.map Prod.fst).Nodup := keys ▸ Program.annotated_nodup numbered.nodup
  rw [annotated]
  exact Annotations.type?_recordAll once member

end Program

end StackCode
