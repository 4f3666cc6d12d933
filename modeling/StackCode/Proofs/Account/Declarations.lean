import StackCode.Proofs.Account.Statements

namespace StackCode

open Checking

section Names

mutual

def Stmt.locals : Stmt → List Declaration
  | .branch _ onTrue onFalse _ => onTrue.locals ++ optionLocals onFalse
  | .whileLoop _ body _ => body.locals
  | .forLoop init _ update body _ => optionLocals init ++ (optionLocals update ++ body.locals)
  | .switch _ cases default _ => casesLocals cases ++ defaultLocals default
  | .block ⟨items, _⟩ => itemsLocals items
  | .assign .. | .call .. | .increment .. | .decrement .. | .breakStmt _ | .returnStmt .. | .read ..
  | .write .. | .empty _ => []

def optionLocals : Option Stmt → List Declaration
  | none => []
  | some stmt => stmt.locals

def stmtsLocals : List Stmt → List Declaration
  | [] => []
  | stmt :: rest => stmt.locals ++ stmtsLocals rest

def casesLocals : List SwitchCase → List Declaration
  | [] => []
  | ⟨_, body, _⟩ :: rest => stmtsLocals body ++ casesLocals rest

def defaultLocals : Option DefaultCase → List Declaration
  | none => []
  | some ⟨body, _⟩ => stmtsLocals body

def itemsLocals : List BlockItem → List Declaration
  | [] => []
  | .var decl :: rest => decl.declarations .localVar ++ itemsLocals rest
  | .stmt stmt :: rest => stmt.locals ++ itemsLocals rest

end

def Item.locals : Item → List Declaration
  | .method decl => decl.params.map Param.declaration ++ itemsLocals decl.body.items
  | _ => []

theorem sift_fst (decls new : List Declaration) : (sift decls new).map Prod.fst = new := by
  induction new generalizing decls with
  | nil => rfl
  | cons decl new ih => rw [sift, List.map_cons, ih]

mutual

theorem Stmt.sifted_fst : ∀ stmt : Stmt, stmt.sifted.map Prod.fst = stmt.locals
  | .branch _ onTrue onFalse _ => by
    rw [Stmt.sifted, Stmt.locals, List.map_append, onTrue.sifted_fst, optionSifted_fst]
  | .whileLoop _ body _ => by rw [Stmt.sifted, Stmt.locals, body.sifted_fst]
  | .forLoop init _ update body _ => by
    rw [Stmt.sifted, Stmt.locals, List.map_append, List.map_append, optionSifted_fst, optionSifted_fst,
      body.sifted_fst]
  | .switch _ cases default _ => by
    rw [Stmt.sifted, Stmt.locals, List.map_append, casesSifted_fst, defaultSifted_fst]
  | .block ⟨items, _⟩ => by rw [Stmt.sifted, Stmt.locals, itemsSifted_fst]
  | .assign .. | .call .. | .increment .. | .decrement .. | .breakStmt _ | .returnStmt .. | .read ..
  | .write .. | .empty _ => by rw [Stmt.sifted, Stmt.locals, List.map_nil]

theorem optionSifted_fst : ∀ stmt : Option Stmt, (optionSifted stmt).map Prod.fst = optionLocals stmt
  | none => by rw [optionSifted, optionLocals, List.map_nil]
  | some stmt => by rw [optionSifted, optionLocals, stmt.sifted_fst]

theorem stmtsSifted_fst : ∀ stmts : List Stmt, (stmtsSifted stmts).map Prod.fst = stmtsLocals stmts
  | [] => by rw [stmtsSifted, stmtsLocals, List.map_nil]
  | stmt :: rest => by
    rw [stmtsSifted, stmtsLocals, List.map_append, stmt.sifted_fst, stmtsSifted_fst]

theorem casesSifted_fst : ∀ cases : List SwitchCase, (casesSifted cases).map Prod.fst = casesLocals cases
  | [] => by rw [casesSifted, casesLocals, List.map_nil]
  | ⟨_, body, _⟩ :: rest => by
    rw [casesSifted, casesLocals, List.map_append, stmtsSifted_fst, casesSifted_fst]

theorem defaultSifted_fst : ∀ default : Option DefaultCase,
    (defaultSifted default).map Prod.fst = defaultLocals default
  | none => by rw [defaultSifted, defaultLocals, List.map_nil]
  | some ⟨body, _⟩ => by rw [defaultSifted, defaultLocals, stmtsSifted_fst]

theorem itemsSifted_fst : ∀ {decls : List Declaration} (items : List BlockItem),
    (itemsSifted decls items).map Prod.fst = itemsLocals items
  | _, [] => by rw [itemsSifted, itemsLocals, List.map_nil]
  | _, .var decl :: rest => by
    rw [itemsSifted, itemsLocals, List.map_append, sift_fst, itemsSifted_fst]
  | _, .stmt stmt :: rest => by
    rw [itemsSifted, itemsLocals, List.map_append, stmt.sifted_fst, itemsSifted_fst]

end

theorem Item.sifted_fst (item : Item) : item.sifted.map Prod.fst = item.locals := by
  cases item with
  | method decl => rw [Item.sifted, Item.locals, MethodDecl.sifted, List.map_append, sift_fst, itemsSifted_fst]
  | const decl | vars decl | classDecl decl => rfl

end Names

section Classes

/-- The classes whose names are not taken, which are those of `decls` and of the classes before. -/
def firstClasses (decls : List Declaration) : List Item → List ClassDecl
  | [] => []
  | .classDecl decl :: rest =>
    if decls.any (·.name.name == decl.name.name) then firstClasses decls rest
    else decl :: firstClasses (accept decls ⟨decl.name, .classDecl, decl.span⟩) rest
  | _ :: rest => firstClasses decls rest

theorem any_accept (decls : List Declaration) (decl : Declaration) (name : String) :
    (accept decls decl).any (·.name.name == name) =
      (decls.any (·.name.name == name) || decl.name.name == name) := by
  unfold accept
  split
  · rename_i taken
    cases same : decl.name.name == name with
    | false => simp
    | true => rw [← beq_iff_eq.mp same, taken, Bool.true_or]
  · simp

theorem firstClasses_free {decls : List Declaration} {items : List Item} :
    ∀ decl ∈ firstClasses decls items, decls.any (·.name.name == decl.name.name) = false := by
  induction items generalizing decls with
  | nil => exact nofun
  | cons item rest ih =>
    cases item with
    | classDecl decl =>
      rw [firstClasses]
      split
      · exact ih
      · rename_i free
        refine List.forall_mem_cons.mpr ⟨Bool.eq_false_iff.mpr free, fun other member => ?_⟩
        have free := ih other member
        rw [any_accept, Bool.or_eq_false_iff] at free
        exact free.1
    | const decl | vars decl | method decl => exact ih

theorem firstClasses_distinct (decls : List Declaration) (items : List Item) :
    (firstClasses decls items).Pairwise (·.name.name ≠ ·.name.name) := by
  induction items generalizing decls with
  | nil => exact .nil
  | cons item rest ih =>
    cases item with
    | classDecl decl =>
      rw [firstClasses]
      split
      · exact ih decls
      · refine .cons (fun other member same => ?_) (ih _)
        have free := firstClasses_free other member
        rw [any_accept, ← same] at free
        simp at free
    | const decl | vars decl | method decl => exact ih decls

theorem declareClasses_result (items : List Item) {state : CheckState} {scoping : Scoping}
    (represents : state.table.Represents scoping) (opened : scoping.opened ≠ []) :
    ((declareClasses items).outcome state).1 = firstClasses (scoping.decls none) items := by
  induction items generalizing state scoping with
  | nil => rfl
  | cons item rest ih =>
    cases item with
    | const decl | vars decl | method decl => exact ih represents opened
    | classDecl decl =>
      let step := TableStep.declareClass decl.name decl.span
      have declares : step.declaration? = some (none, ⟨decl.name, .classDecl, decl.span⟩) := rfl
      have run : ((declareClasses (.classDecl decl :: rest)).outcome state).1 =
          let first := (introduce decl.name (·.attempt step)).outcome state
          let classes := ((declareClasses rest).outcome first.2).1
          if first.1 then decl :: classes else classes := rfl
      have refuses := scoping.refuses_eq declares
      rw [run, outcome_introduce, firstClasses]
      rcases represents.attempt step with ⟨refused, none⟩ | ⟨granted, next, some, alike⟩
      · rw [refuses] at refused
        rw [none, if_pos refused]
        exact ih represents opened
      · rw [refuses] at granted
        have fills := Scoping.fills_apply declares opened granted
        have others : ((declareClasses rest).outcome { state with table := next }).1 = _ :=
          ih alike fills.opened
        rw [fills.decls] at others
        rw [some, if_neg (Bool.eq_false_iff.mp granted)]
        exact congrArg (decl :: ·) others

theorem declareFields_books (classes : List ClassDecl) {state : CheckState} {scoping : Scoping}
    (distinct : classes.Pairwise (·.name.name ≠ ·.name.name))
    (represents : state.table.Represents scoping) (opened : scoping.opened ≠ [])
    (empty : ∀ decl ∈ classes, scoping.fields decl.name.name = []) :
    let sifted := classes.flatMap fun decl => sift [] decl.members
    ∃ later, ((classes.forM ClassDecl.declareFields).outcome state).2.table.Represents later ∧
      later.opened ≠ [] ∧ later.decls none = scoping.decls none ∧
      later.history.map Symbol.declaration =
        scoping.history.map Symbol.declaration ++ acceptedOf sifted ∧
      ((classes.forM ClassDecl.declareFields).outcome state).2.redeclarations =
        state.redeclarations ++ refusalsOf sifted := by
  induction classes generalizing state scoping with
  | nil => exact ⟨scoping, represents, opened, rfl, (List.append_nil _).symm, (List.append_nil _).symm⟩
  | cons decl classes ih =>
    rw [List.pairwise_cons] at distinct
    rw [List.forall_mem_cons] at empty
    obtain ⟨later, alike, fills, refused⟩ := decl.declareFields_accounts.books state scoping represents opened
    have own : scoping.decls (some decl.name.name) = [] := by
      rw [Scoping.decls, Scoping.held, empty.1, List.map_nil]
    rw [own] at fills refused
    have others : ∀ other ∈ classes, later.fields other.name.name = [] := fun other member => by
      have same := fills.others (some other.name.name) fun same =>
        distinct.1 other member (Option.some.inj same).symm
      exact same.trans (empty.2 other member)
    obtain ⟨last, alike', opened', decls, history, refused'⟩ := ih distinct.2 alike fills.opened others
    refine ⟨last, alike', opened', decls.trans ?_, ?_, ?_⟩
    · rw [Scoping.decls, fills.others none (by simp)]
      rfl
    · rw [history, fills.history, List.flatMap_cons, acceptedOf_append, List.append_assoc]
    · rw [List.flatMap_cons, refusalsOf_append, ← List.append_assoc, ← refused]
      exact refused'

end Classes

/-- The declarations of a program in the order in which they are made, each with whether it is
accepted: classes, the fields of the accepted ones, the other declarations outside of methods, and what
is declared in methods. -/
def Program.sifted (program : Program) : List (Declaration × Bool) :=
  let classes := program.items.flatMap Item.classDeclarations
  sift [] classes ++
    (((firstClasses [] program.items).flatMap fun decl => sift [] decl.members) ++
      (sift (classes.foldl accept []) (program.items.flatMap Item.valueDeclarations) ++
        program.items.flatMap Item.sifted))

theorem length_sifted (sifted : List (Declaration × Bool)) :
    (acceptedOf sifted).length + (refusalsOf sifted).length = sifted.length := by
  rw [acceptedOf, refusalsOf, List.length_map, List.length_map, ← List.countP_eq_length_filter,
    ← List.countP_eq_length_filter, List.length_eq_countP_add_countP (·.2)]
  simp

theorem Program.check_books (program : Program) (entry : String) :
    (program.check entry).table.history.toList.map Symbol.declaration = acceptedOf program.sifted ∧
      (program.check entry).redeclarations = refusalsOf program.sifted := by
  let begun : CheckState := { table := SymbolTable.openScope {} }
  have opened : (Scoping.apply {} .openScope).opened ≠ [] := List.cons_ne_nil _ _
  have start : begun.table.Represents (Scoping.apply {} .openScope) :=
    SymbolTable.represents_empty.openScope
  have fresh : ((declareClasses program.items).outcome begun).1 = firstClasses [] program.items :=
    declareClasses_result program.items start opened
  -- The passes of the check, each from the state behind the one before.
  have run : program.walked = ((checkMethods program.items).outcome ((program.items.forM Item.declare).outcome
      ((((declareClasses program.items).outcome begun).1.forM ClassDecl.declareFields).outcome
        ((declareClasses program.items).outcome begun).2).2).2).2 := rfl
  obtain ⟨_, alike, fills, classes⟩ := (declareClasses_accounts program.items).books begun _ start opened
  obtain ⟨_, alike, opened, decls, history, fields⟩ := declareFields_books
    (firstClasses [] program.items) (firstClasses_distinct _ _) alike fills.opened fun decl _ =>
      fills.others (some decl.name.name) (by simp)
  obtain ⟨_, alike, fills', values⟩ := (declareItems_accounts program.items).books _ _ alike opened
  obtain ⟨_, alike, fills'', locals⟩ :=
    (checkMethods_accounts program.items).books _ _ alike fills'.opened
  rw [decls, fills.decls] at fills' values
  have books : program.walked.table.history.toList.map Symbol.declaration = acceptedOf program.sifted ∧
      program.walked.redeclarations = refusalsOf program.sifted := by
    rw [run, fresh, alike.history, fills''.history, fills'.history, history, fills.history, locals, values,
      fields, classes]
    simp only [Program.sifted, acceptedOf_append, refusalsOf_append, List.append_assoc]
    exact ⟨rfl, rfl⟩
  rw [program.check_walked entry]
  split
  · exact books
  · refine ⟨books.1, Eq.trans ?_ books.2⟩
    simp [Notes.redeclarations, Problem.isRedeclaration]

/-- Every declaration is recorded or reported: the history has those that are accepted and the reports
about taken names are about the others, in their order. -/
theorem Program.declarations_recorded_or_reported (program : Program) (entry : String) :
    (program.check entry).table.history.toList.map Symbol.declaration = acceptedOf program.sifted ∧
    (program.check entry).redeclarations = refusalsOf program.sifted ∧
    program.sifted.map Prod.fst = program.items.flatMap Item.classDeclarations ++
      ((firstClasses [] program.items).flatMap ClassDecl.members ++
        (program.items.flatMap Item.valueDeclarations ++ program.items.flatMap Item.locals)) ∧
    (program.check entry).table.history.size + (program.check entry).redeclarations.length =
      (program.items.flatMap Item.classDeclarations).length +
        ((firstClasses [] program.items).flatMap ClassDecl.members).length +
        (program.items.flatMap Item.valueDeclarations).length +
        (program.items.flatMap Item.locals).length := by
  obtain ⟨recorded, reported⟩ := program.check_books entry
  have names : program.sifted.map Prod.fst = program.items.flatMap Item.classDeclarations ++
      ((firstClasses [] program.items).flatMap ClassDecl.members ++
        (program.items.flatMap Item.valueDeclarations ++ program.items.flatMap Item.locals)) := by
    simp only [Program.sifted, List.map_append, sift_fst, List.map_flatMap, Item.sifted_fst]
  refine ⟨recorded, reported, names, ?_⟩
  have count := congrArg List.length recorded
  rw [List.length_map, Array.length_toList] at count
  rw [count, reported, length_sifted, ← List.length_map Prod.fst, names]
  simp only [List.length_append, Nat.add_assoc]

end StackCode
