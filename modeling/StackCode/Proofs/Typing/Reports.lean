import StackCode.Proofs.Typing.Checks

namespace StackCode

/-- What is looked up by name in an expression, calls apart. -/
inductive Use where
  | place (target : Designator)
  | written (type : TypeName)

mutual

def Expr.uses : Expr → List Use
  | ⟨_, _, cast, head, tail, _⟩ => head.uses ++ (cast.toList.map Use.written ++ sumUses tail)

def sumUses : List (AddOp × Term) → List Use
  | [] => []
  | (_, term) :: rest => term.uses ++ sumUses rest

def Term.uses : Term → List Use
  | ⟨_, head, tail, _⟩ => head.uses ++ productUses tail

def productUses : List (MulOp × Factor) → List Use
  | [] => []
  | (_, factor) :: rest => factor.uses ++ productUses rest

def Factor.uses : Factor → List Use
  | ⟨_, kind, _⟩ => kind.uses

def FactorKind.uses : FactorKind → List Use
  | .literal _ => []
  | .designator target => target.uses
  | .call _ args => exprsUses args
  | .newObject _ => []
  | .newArray elem sizes => .written elem :: exprsUses sizes
  | .paren inner => inner.uses
  | .list elems => exprsUses elems

def exprsUses : List Expr → List Use
  | [] => []
  | e :: rest => e.uses ++ exprsUses rest

def Designator.uses : Designator → List Use
  | ⟨id, base, selectors, span⟩ => .place ⟨id, base, selectors, span⟩ :: selectorsUses selectors

def selectorsUses : List Selector → List Use
  | [] => []
  | .field _ :: rest => selectorsUses rest
  | .index value :: rest => value.uses ++ selectorsUses rest

end

def FactKind.uses : FactKind → List Use
  | .relation left _ right => left.uses ++ right.uses
  | .expr value => value.uses

def CondTerm.uses (term : CondTerm) : List Use := term.facts.flatMap (·.kind.uses)

def Condition.uses (cond : Condition) : List Use := cond.terms.flatMap CondTerm.uses

/-- A place is based on a variable, and a written type is known. -/
def Use.Resolves (table : SymbolTable) : Use → Prop
  | .place target => ∃ symbol, table.lookup? target.base.name = some symbol ∧ symbol.isVariable = true
  | .written type => table.typeOf type.name ≠ .unknown

mutual

/-- The literals of an expression, apart from the least integer behind its sign. -/
def Expr.literals : Expr → List Literal
  | ⟨_, neg, cast, head, tail, _⟩ =>
    (if isLeastInt neg cast head then [] else head.literals) ++ sumLiterals tail

def sumLiterals : List (AddOp × Term) → List Literal
  | [] => []
  | (_, term) :: rest => term.literals ++ sumLiterals rest

def Term.literals : Term → List Literal
  | ⟨_, head, tail, _⟩ => head.literals ++ productLiterals tail

def productLiterals : List (MulOp × Factor) → List Literal
  | [] => []
  | (_, factor) :: rest => factor.literals ++ productLiterals rest

def Factor.literals : Factor → List Literal
  | ⟨_, kind, _⟩ => kind.literals

def FactorKind.literals : FactorKind → List Literal
  | .literal value => [value]
  | .designator target => target.literals
  | .call _ args => exprsLiterals args
  | .newObject _ => []
  | .newArray _ sizes => exprsLiterals sizes
  | .paren inner => inner.literals
  | .list elems => exprsLiterals elems

def exprsLiterals : List Expr → List Literal
  | [] => []
  | e :: rest => e.literals ++ exprsLiterals rest

def Designator.literals : Designator → List Literal
  | ⟨_, _, selectors, _⟩ => selectorsLiterals selectors

def selectorsLiterals : List Selector → List Literal
  | [] => []
  | .field _ :: rest => selectorsLiterals rest
  | .index value :: rest => value.literals ++ selectorsLiterals rest

end

def FactKind.literals : FactKind → List Literal
  | .relation left _ right => left.literals ++ right.literals
  | .expr value => value.literals

def CondTerm.literals (term : CondTerm) : List Literal := term.facts.flatMap (·.kind.literals)

def Condition.literals (cond : Condition) : List Literal := cond.terms.flatMap CondTerm.literals

def Problem.isOfValue (problem : Problem) : Bool :=
  match problem.category with
  | .undeclaredSymbol | .typeMismatch | .arityMismatch => true
  | _ => false

namespace Noting

variable {α β : Type}

/-- The check adds to what has been reported, and only problems of values. If it adds nothing, the uses
are resolved and the literals fit. -/
def Clears (f : Noting α) (table : SymbolTable) (uses : List Use) (literals : List Literal) : Prop :=
  ∀ notes, ∃ more : List Diagnostic,
    (f.outcome notes).2.errors.toList = notes.errors.toList ++ more ∧
      (∀ d ∈ more, d.problem.isOfValue = true) ∧
      (more = [] → (∀ use ∈ uses, use.Resolves table) ∧ ∀ literal ∈ literals, literal.Fits)

variable {f g : Noting α} {table : SymbolTable} {uses uses' : List Use} {literals literals' : List Literal}

theorem Clears.grows (clears : f.Clears table uses literals) (notes : Notes) :
    notes.errors.size ≤ (f.outcome notes).2.errors.size := by
  obtain ⟨more, added, _⟩ := clears notes
  rw [← Array.length_toList, ← Array.length_toList, added, List.length_append]
  exact Nat.le_add_right _ _

theorem Clears.clear (clears : f.Clears table uses literals) (notes : Notes)
    (same : (f.outcome notes).2.errors.size = notes.errors.size) : ∀ use ∈ uses, use.Resolves table := by
  obtain ⟨more, added, _, clear⟩ := clears notes
  rw [← Array.length_toList, ← Array.length_toList, added, List.length_append] at same
  exact (clear (List.eq_nil_of_length_eq_zero (by omega))).1

variable {k : α → Noting β}

theorem Clears.bind (first : f.Clears table uses literals)
    (second : ∀ a, (k a).Clears table uses' literals') :
    (f >>= k).Clears table (uses ++ uses') (literals ++ literals') := by
  intro notes
  obtain ⟨more, added, known, clear⟩ := first notes
  obtain ⟨more', added', known', clear'⟩ := second (f.outcome notes).1 (f.outcome notes).2
  refine ⟨more ++ more', ?_, List.forall_mem_append.mpr ⟨known, known'⟩, fun none => ?_⟩
  · rw [← List.append_assoc, ← added]
    exact added'
  · obtain ⟨none, none'⟩ := List.append_eq_nil_iff.mp none
    rw [List.forall_mem_append, List.forall_mem_append]
    exact ⟨⟨(clear none).1, (clear' none').1⟩, (clear none).2, (clear' none').2⟩

theorem Clears.then (first : f.Clears table uses literals) (second : ∀ a, (k a).Clears table [] []) :
    (f >>= k).Clears table uses literals := by
  have whole := first.bind second
  rwa [List.append_nil, List.append_nil] at whole

theorem Clears.after (first : f.Clears table [] []) (second : ∀ a, (k a).Clears table uses literals) :
    (f >>= k).Clears table uses literals :=
  first.bind second

theorem clears_of_eq (same : ∀ notes, (f.outcome notes).2.errors = notes.errors) : f.Clears table [] [] :=
  fun notes => ⟨[], by rw [same, List.append_nil], nofun, fun _ => ⟨nofun, nofun⟩⟩

theorem clears_pure (a : α) : (pure a : Noting α).Clears table [] [] := clears_of_eq fun _ => rfl

theorem clears_tally : tally.Clears table [] [] := clears_of_eq fun _ => rfl

theorem clears_excused (start : Nat) (types : List Tag) : (excused start types).Clears table [] [] :=
  clears_of_eq fun _ => rfl

theorem clears_record (id : NodeId) (type : Tag) : (record id type).Clears table [] [] :=
  clears_of_eq fun _ => rfl

theorem clears_asDeclared (type : Tag) : (asDeclared type).Clears table [] [] := by
  refine clears_of_eq fun notes => ?_
  unfold asDeclared
  cases type.isUnknown <;> rfl

theorem clears_report {problem : Problem} (known : problem.isOfValue = true) (span : Span) :
    (report problem span).Clears table uses literals := by
  intro notes
  refine ⟨[⟨problem, span⟩], ?_, by simpa using known, nofun⟩
  change (notes.errors.push ⟨problem, span⟩).toList = _
  rw [Array.toList_push]

theorem clears_mismatch (what : Mismatch) (span : Span) :
    (mismatch what span).Clears table uses literals :=
  clears_report rfl span

variable {condition : Prop} {_ : Decidable condition}

theorem clears_ite (yes : f.Clears table uses literals) (no : g.Clears table uses literals) :
    (if condition then f else g).Clears table uses literals := by
  split
  · exact yes
  · exact no

theorem clears_unless {complaint : Noting Unit} {rest : Unit → Noting α}
    (complains : complaint.Clears table [] []) (more : (rest ()).Clears table uses literals) :
    (if condition then complaint >>= rest else rest ()).Clears table uses literals :=
  clears_ite (complains.after fun _ => more) more

theorem Clears.demand {check : Noting Tag} (clears : check.Clears table uses literals)
    (fits : Tag → Bool) (problem : Tag → Mismatch) (span : Span) :
    (check.demand fits problem span).Clears table uses literals :=
  clears_tally.after fun _ => clears.then fun _ => (clears_excused _ _).then fun _ =>
    clears_unless (clears_mismatch _ _) (clears_pure _)

theorem clears_guard {complaint : Noting Unit} (complains : complaint.Clears table [] []) :
    (if condition then complaint else pure ()).Clears table [] [] :=
  clears_ite complains (clears_pure ())

end Noting

open Noting

section Parts

variable {table : SymbolTable} (start : Nat)

theorem namedType_clears (type : TypeName) : (table.namedType type).Clears table [.written type] [] := by
  unfold SymbolTable.namedType
  dsimp only
  split
  · exact (clears_report rfl _).then fun _ => clears_pure _
  · rename_i known
    refine fun notes => ⟨[], (List.append_nil _).symm, nofun, fun _ => ⟨?_, nofun⟩⟩
    exact List.forall_mem_singleton.mpr fun unknown => known (by rw [unknown]; rfl)

theorem namedValueType_clears (type : TypeName) :
    (table.namedValueType type).Clears table [.written type] [] :=
  (namedType_clears type).then fun _ =>
    clears_ite ((clears_mismatch _ _).then fun _ => clears_pure _) (clears_pure _)

theorem Literal.check_clears (literal : Literal) (span : Span) :
    (literal.check span).Clears table [] [literal] := by
  have fitting (fits : literal.Fits) : (pure literal.tag : Noting Tag).Clears table [] [literal] :=
    fun notes => ⟨[], (List.append_nil _).symm, nofun, fun _ =>
      ⟨nofun, List.forall_mem_singleton.mpr fits⟩⟩
  unfold Literal.check
  cases literal with
  | int | char =>
    dsimp only
    split
    · exact (clears_mismatch _ _).then fun _ => clears_pure _
    · rename_i fits
      exact fitting (by simpa [Literal.Fits] using fits)
  | float x | double x | str s | bool b | null => exact fitting trivial

theorem checkArith_clears (symbol : String) (left right : Tag) (span : Span) :
    (checkArith start symbol left right span).Clears table [] [] := by
  unfold checkArith
  cases Tag.promote left right with
  | some type => exact clears_pure _
  | none =>
    exact (clears_excused _ _).then fun _ => clears_unless (clears_mismatch _ _) (clears_pure _)

theorem checkBase_clears (target : Designator) :
    (checkBase table target.base).Clears table [.place target] [] := by
  unfold checkBase
  cases found : table.lookup? target.base.name with
  | none => exact (clears_report rfl _).then fun _ => clears_pure _
  | some symbol =>
    dsimp only
    split
    · rename_i isVariable
      intro notes
      have declared : (asDeclared symbol.type).Clears table [] [] := clears_asDeclared _
      obtain ⟨more, added, known, _⟩ := declared notes
      refine ⟨more, added, known, fun _ => ⟨List.forall_mem_singleton.mpr ?_, nofun⟩⟩
      exact ⟨symbol, found, isVariable⟩
    · exact (clears_mismatch _ _).then fun _ => clears_pure _

theorem checkField_clears (container : Tag) (field : Ident) :
    (checkField table container field).Clears table [] [] := by
  unfold checkField
  refine clears_ite (clears_pure _) ?_
  cases table.lookupField? container field.name with
  | some symbol => exact clears_asDeclared _
  | none => exact (clears_report rfl _).then fun _ => clears_pure _

theorem checkElement_clears (container : Tag) (span : Span) :
    (checkElement container span).Clears table [] [] :=
  clears_ite (clears_pure _) (clears_ite (clears_pure _)
    ((clears_mismatch _ _).then fun _ => clears_pure _))

theorem checkCast_clears (type : Tag) (span : Span) : ∀ cast : Option TypeName,
    (checkCast table start type span cast).Clears table (cast.toList.map Use.written) []
  | none => clears_pure _
  | some target => (namedType_clears target).then fun _ =>
    clears_ite ((clears_mismatch _ _).then fun _ => clears_pure _)
      ((clears_excused _ _).then fun _ => clears_unless (clears_mismatch _ _) (clears_pure _))

theorem checkSign_clears (neg : Bool) (type : Tag) (span : Span) :
    (checkSign start neg type span).Clears table [] [] :=
  clears_ite ((clears_excused _ _).then fun _ => clears_unless (clears_mismatch _ _) (clears_pure _))
    (clears_pure _)

theorem Expr.adopt_clears (e : Expr) (expected : Tag) : (e.adopt expected).Clears table [] [] :=
  (clears_record _ _).then fun _ => (clears_record _ _).then fun _ => (clears_record _ _).then fun _ =>
    clears_pure _

theorem checkNew_clears (className : Ident) : (checkNew table className).Clears table [] [] :=
  clears_ite (clears_pure _) ((clears_report rfl _).then fun _ => clears_pure _)

theorem checkElements_clears (first : Tag) (span : Span) (rest : List (Tag × Span)) :
    (checkElements start first span rest).Clears table [] [] := by
  induction rest with
  | nil => exact clears_pure _
  | cons entry rest ih =>
    exact (clears_excused _ _).then fun _ =>
      clears_ite ((clears_mismatch _ _).then fun _ => clears_pure _) ih

theorem checkValue_clears (callee : Designator) (result : Tag) (span : Span) :
    (checkValue callee result span).Clears table [] [] :=
  clears_ite ((clears_mismatch _ _).then fun _ => clears_pure _) (clears_pure _)

theorem Callee.use_clears (callee : Callee) : callee.use.Clears table [] [] := by
  cases callee with
  | method result params => exact fun notes => clears_asDeclared result notes
  | _ => exact clears_pure ()

theorem checkListArgument_clears (op : Intrinsic) (list : Argument) (span : Span) {more : Noting Unit}
    (clears : more.Clears table [] []) : (checkListArgument op list span more).Clears table [] [] :=
  clears_ite clears (clears_mismatch _ _)

theorem Intrinsic.checkArguments_clears (span : Span) (op : Intrinsic) (arguments : List Argument) :
    (op.checkArguments table span arguments).Clears table [] [] := by
  unfold Intrinsic.checkArguments
  split
  · exact checkListArgument_clears _ _ span (clears_pure ())
  · exact checkListArgument_clears _ _ span (clears_guard (clears_mismatch _ _))
  · exact checkListArgument_clears _ _ span (clears_guard (clears_mismatch _ _))
  · exact clears_guard (clears_mismatch _ _)
  · exact clears_guard (clears_mismatch _ _)
  · exact clears_pure ()

theorem checkParams_clears (name : String) (span : Span) (position : Nat) (params : List Tag)
    (arguments : List Argument) :
    (checkParams table name span position params arguments).Clears table [] [] := by
  induction params generalizing position arguments with
  | nil => exact clears_pure ()
  | cons param params ih =>
    cases arguments with
    | nil => exact clears_pure ()
    | cons argument arguments => exact clears_unless (clears_mismatch _ _) (ih _ _)

theorem Callee.check_clears (callee : Callee) (name : String) (span : Span) (arguments : List Argument) :
    (callee.check table name span arguments).Clears table [] [] := by
  cases callee with
  | intrinsic op =>
    exact clears_ite ((clears_report rfl _).then fun _ => clears_pure _)
      ((op.checkArguments_clears span arguments).then fun _ => clears_pure _)
  | method result params =>
    exact clears_ite ((clears_report rfl _).then fun _ => clears_pure _)
      ((checkParams_clears name span 1 params arguments).then fun _ => clears_pure _)
  | undeclared | notCallable => exact (clears_report rfl _).then fun _ => clears_pure _

theorem uses_of_isLeastInt {neg : Bool} {cast : Option TypeName} {head : Term}
    (least : isLeastInt neg cast head = true) : head.uses = [] := by
  obtain ⟨_, _, _, _, _, rfl⟩ := eq_of_isLeastInt least
  rfl

theorem Expr.nothing_of_isBareList {e : Expr} (bare : e.isBareList = true) :
    e.uses = [] ∧ e.literals = [] := by
  obtain ⟨_, _, _, _, _, _, rfl⟩ := Expr.eq_of_isBareList bare
  exact ⟨rfl, rfl⟩

end Parts

variable {table : SymbolTable}

mutual

theorem Expr.check_clears : ∀ e : Expr, (e.check table).Clears table e.uses e.literals
  | ⟨id, neg, cast, head, tail, span⟩ => by
    have rest : ∀ start type, (do
        let type ← checkCast table start type span cast
        let type ← checkSign start neg type span
        let type ← checkSum table start span type tail
        record id type
        return type).Clears table (cast.toList.map Use.written ++ sumUses tail) (sumLiterals tail) :=
      fun start type => (checkCast_clears start type span cast).bind fun type =>
        (checkSign_clears start neg type span).after fun type =>
        (checkSum_clears tail start span type).then fun type =>
        (clears_record id type).then fun _ => clears_pure _
    rw [Expr.check, Expr.uses, Expr.literals]
    cases least : isLeastInt neg cast head with
    | true =>
      rw [uses_of_isLeastInt least]
      exact clears_tally.after fun start => (clears_record _ _).after fun _ =>
        (clears_record _ _).after fun _ => rest start .int
    | false => exact clears_tally.after fun start => head.check_clears.bind (rest start)

theorem checkSum_clears : ∀ (tail : List (AddOp × Term)) (start : Nat) (span : Span) (type : Tag),
    (checkSum table start span type tail).Clears table (sumUses tail) (sumLiterals tail)
  | [], _, _, type => clears_pure type
  | (op, term) :: rest, start, span, type => by
    rw [checkSum, sumUses, sumLiterals]
    exact term.check_clears.bind fun right => (checkArith_clears start op.symbol type right _).after
      fun next => checkSum_clears rest start span next

theorem Term.check_clears : ∀ term : Term, (term.check table).Clears table term.uses term.literals
  | ⟨id, head, tail, span⟩ => by
    rw [Term.check, Term.uses, Term.literals]
    exact clears_tally.after fun start => head.check_clears.bind fun type =>
      (checkProduct_clears tail start span type).then fun type =>
      (clears_record id type).then fun _ => clears_pure _

theorem checkProduct_clears : ∀ (tail : List (MulOp × Factor)) (start : Nat) (span : Span) (type : Tag),
    (checkProduct table start span type tail).Clears table (productUses tail) (productLiterals tail)
  | [], _, _, type => clears_pure type
  | (op, factor) :: rest, start, span, type => by
    rw [checkProduct, productUses, productLiterals]
    exact factor.check_clears.bind fun right => (checkArith_clears start op.symbol type right _).after
      fun next => checkProduct_clears rest start span next

theorem Factor.check_clears : ∀ factor : Factor,
    (factor.check table).Clears table factor.uses factor.literals
  | ⟨id, kind, span⟩ => by
    rw [Factor.check, Factor.uses, Factor.literals]
    exact (kind.check_clears span).then fun type => (clears_record id type).then fun _ => clears_pure _

theorem FactorKind.check_clears : ∀ (kind : FactorKind) (span : Span),
    (kind.check table span).Clears table kind.uses kind.literals
  | .literal value, span => value.check_clears span
  | .designator target, _ => target.check_clears
  | .call callee args, span => by
    rw [FactorKind.check, FactorKind.uses, FactorKind.literals]
    exact (Callee.use_clears _).after fun _ => (checkArguments_clears args _).then fun arguments =>
      (Callee.check_clears _ _ _ arguments).then fun result => checkValue_clears callee result span
  | .newObject className, _ => checkNew_clears className
  | .newArray elem sizes, _ => by
    rw [FactorKind.check, FactorKind.uses, FactorKind.literals]
    exact (namedValueType_clears elem).bind fun type =>
      (checkSizes_clears sizes).then fun _ => clears_pure _
  | .paren inner, _ => inner.check_clears
  | .list elems, span => by
    rw [FactorKind.check, FactorKind.uses, FactorKind.literals]
    refine clears_tally.after fun start => (checkExprs_clears elems).then fun types => ?_
    cases types with
    | nil => exact (clears_mismatch _ _).then fun _ => clears_pure _
    | cons first rest => exact checkElements_clears start first.1 span rest

theorem checkExprs_clears : ∀ exprs : List Expr,
    (checkExprs table exprs).Clears table (exprsUses exprs) (exprsLiterals exprs)
  | [] => clears_pure _
  | e :: rest => by
    rw [checkExprs, exprsUses, exprsLiterals]
    exact e.check_clears.bind fun type => (checkExprs_clears rest).then fun types => clears_pure _

theorem checkSizes_clears : ∀ sizes : List Expr,
    (checkSizes table sizes).Clears table (exprsUses sizes) (exprsLiterals sizes)
  | [] => clears_pure _
  | size :: rest => by
    rw [checkSizes, exprsUses, exprsLiterals]
    exact (size.check_clears.demand _ _ _).bind fun _ => checkSizes_clears rest

theorem checkArguments_clears : ∀ (args : List Expr) (expectation : Expectation),
    (checkArguments table expectation args).Clears table (exprsUses args) (exprsLiterals args)
  | [], _ => clears_pure _
  | arg :: rest, expectation => by
    have more : ∀ start type, (do
        let silent ← excused start [type]
        return (⟨type, silent, arg.span⟩ : Argument) ::
          (← checkArguments table (expectation.next type) rest)).Clears table (exprsUses rest)
            (exprsLiterals rest) := fun start type => (clears_excused _ _).after fun silent =>
      (checkArguments_clears rest (expectation.next type)).then fun _ => clears_pure _
    rw [checkArguments, exprsUses, exprsLiterals]
    cases adopts : arg.adopts expectation.head with
    | false => exact clears_tally.after fun start => arg.check_clears.bind (more start)
    | true =>
      obtain ⟨uses, literals⟩ := Expr.nothing_of_isBareList (Bool.and_eq_true_iff.mp adopts).2
      rw [uses, literals]
      exact clears_tally.after fun start => (arg.adopt_clears _).after (more start)

theorem Designator.check_clears : ∀ target : Designator,
    (target.check table).Clears table target.uses target.literals
  | ⟨id, base, selectors, span⟩ => by
    rw [Designator.check, Designator.uses, Designator.literals]
    exact (checkBase_clears ⟨id, base, selectors, span⟩).bind fun type =>
      (checkSelectors_clears selectors span type).then fun type =>
      (clears_record id type).then fun _ => clears_pure _

theorem checkSelectors_clears : ∀ (selectors : List Selector) (span : Span) (type : Tag),
    (checkSelectors table span type selectors).Clears table (selectorsUses selectors)
      (selectorsLiterals selectors)
  | [], _, type => clears_pure type
  | .field name :: rest, span, type => by
    rw [checkSelectors, selectorsUses, selectorsLiterals]
    exact (checkField_clears type name).after fun next => checkSelectors_clears rest span next
  | .index value :: rest, span, type => by
    rw [checkSelectors, selectorsUses, selectorsLiterals]
    exact (value.check_clears.demand _ _ _).bind fun _ => (checkElement_clears type _).after fun next =>
      checkSelectors_clears rest span next

end

theorem checkExpected_clears (e : Expr) (expected : Tag) :
    (checkExpected table e expected).Clears table e.uses e.literals := by
  unfold checkExpected
  cases adopts : e.adopts expected with
  | false => exact e.check_clears
  | true =>
    obtain ⟨uses, literals⟩ := Expr.nothing_of_isBareList (Bool.and_eq_true_iff.mp adopts).2
    rw [uses, literals]
    exact e.adopt_clears expected

theorem Designator.checkCall_clears (callee : Designator) (args : List Expr) (span : Span) :
    (callee.checkCall table args span).Clears table (exprsUses args) (exprsLiterals args) :=
  (Callee.use_clears _).after fun _ => (checkArguments_clears args _).then fun arguments =>
    Callee.check_clears _ _ _ arguments

theorem Designator.checkWritten_clears (target : Designator) :
    (target.checkWritten table).Clears table target.uses target.literals :=
  target.check_clears.then fun type => clears_unless (clears_report rfl _) (clears_pure type)

theorem CondFact.check_clears (fact : CondFact) :
    (fact.check table).Clears table fact.kind.uses fact.kind.literals := by
  obtain ⟨id, kind, span⟩ := fact
  unfold CondFact.check
  cases kind with
  | expr value =>
    exact value.check_clears.then fun type => (clears_record id type).then fun _ => clears_pure _
  | relation left op right =>
    exact clears_tally.after fun start => left.check_clears.bind fun l =>
      right.check_clears.then fun r => (clears_excused _ _).then fun silent =>
      clears_unless (clears_mismatch _ _) ((clears_record id .bool).then fun _ => clears_pure _)

theorem checkFacts_clears (span : Span) (facts : List CondFact) :
    (checkFacts table span facts).Clears table (facts.flatMap (·.kind.uses))
      (facts.flatMap (·.kind.literals)) := by
  induction facts with
  | nil => exact clears_pure _
  | cons fact rest ih =>
    rw [checkFacts, List.flatMap_cons, List.flatMap_cons]
    exact (fact.check_clears.demand _ _ _).bind fun _ => ih

theorem checkCondTerms_clears (span : Span) (terms : List CondTerm) :
    (checkCondTerms table span terms).Clears table (terms.flatMap CondTerm.uses)
      (terms.flatMap CondTerm.literals) := by
  induction terms with
  | nil => exact clears_pure _
  | cons term rest ih =>
    rw [checkCondTerms, List.flatMap_cons, List.flatMap_cons]
    exact (checkFacts_clears span term.facts).bind fun _ =>
      (clears_record term.id .bool).after fun _ => ih

theorem Condition.check_clears (cond : Condition) :
    (cond.check table).Clears table cond.uses cond.literals :=
  (checkCondTerms_clears cond.span cond.terms).then fun _ => clears_record _ _

section Statements

open Checking

/-- The check takes notes as one that needs the symbol table only. -/
def Checking.Clears {α : Type} (f : Checking α) (uses : List Use) (literals : List Literal) : Prop :=
  ∀ state, ∃ g : SymbolTable → Noting α, f.outcome state = (note g).outcome state ∧
    (g state.table).Clears state.table uses literals

variable {α : Type} {uses : List Use} {literals : List Literal}

theorem Checking.clears_note {f : SymbolTable → Noting α}
    (clears : ∀ table, (f table).Clears table uses literals) : (note f).Clears uses literals :=
  fun state => ⟨f, rfl, clears state.table⟩

theorem checkAssign_clears (target : Designator) (value : Expr) (span : Span) :
    (checkAssign target value span).Clears (target.uses ++ value.uses)
      (target.literals ++ value.literals) :=
  clears_note fun _ => target.checkWritten_clears.bind fun left => clears_tally.after fun _ =>
    (checkExpected_clears value left).then fun _ => (clears_excused _ _).then fun _ =>
    clears_guard (clears_mismatch _ _)

theorem checkTarget_clears (target : Designator) (fits : Tag → Bool) (problem : Tag → Mismatch)
    (span : Span) : (checkTarget target fits problem span).Clears target.uses target.literals :=
  clears_note fun _ => (target.checkWritten_clears.demand _ _ _).then fun _ => clears_pure ()

theorem checkWrite_clears (value : Expr) (width : Option Int64) (span : Span) :
    (checkWrite value width span).Clears value.uses
      (value.literals ++ width.toList.map Literal.int) := by
  refine clears_note fun table => ?_
  rw [← List.append_nil value.uses]
  refine (value.check_clears.demand _ _ _).bind fun _ => ?_
  cases width with
  | none => exact clears_pure ()
  | some width =>
    dsimp only
    split
    · exact clears_mismatch _ _
    · rename_i fits
      refine fun notes => ⟨[], (List.append_nil _).symm, List.forall_mem_nil _, fun _ =>
        ⟨List.forall_mem_nil _, ?_⟩⟩
      exact List.forall_mem_singleton.mpr (by simpa [Literal.Fits] using fits)

theorem checkResult_clears (value : Expr) (span : Span) :
    (checkResult (some value) span).Clears value.uses value.literals := by
  refine fun state => ⟨fun table => do
    let start ← tally
    let type ← checkExpected table value state.expectedResult
    if state.expectedResult == .void then mismatch .voidResult (span.orElse value.span)
    else if !state.expectedResult.isUnknown && !(← excused start [type]) &&
        !table.registry.accepts state.expectedResult type then
      mismatch (.result type state.expectedResult) (span.orElse value.span), rfl, ?_⟩
  exact clears_tally.after fun _ => (checkExpected_clears value _).then fun _ =>
    clears_ite (clears_mismatch _ _) ((clears_excused _ _).then fun _ =>
      clears_guard (clears_mismatch _ _))

theorem checkSelector_clears (selector : Expr) (span : Span) :
    (checkSelector selector span).Clears selector.uses selector.literals :=
  clears_note fun _ => (Expr.check_clears selector).demand _ _ _

end Statements

end StackCode
