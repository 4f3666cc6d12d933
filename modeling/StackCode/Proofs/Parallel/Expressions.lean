import StackCode.Proofs.Parallel.Notes

namespace StackCode

open Noting Twin

def Argument.moved (place : Span → Span) (argument : Argument) : Argument :=
  { argument with span := place argument.span }

namespace SymbolTable

variable {table other : SymbolTable} (same : other.sight = table.sight)

include same

theorem registry_of_sight : other.registry = table.registry := congrArg Sight.registry same

theorem typeOf_of_sight (text : String) : other.typeOf text = table.typeOf text := by
  rw [← sight_typeOf, same, sight_typeOf]

theorem typeNamed_of_sight (name : String) : other.typeNamed name = table.typeNamed name := by
  rw [← sight_typeNamed, same, sight_typeNamed]

theorem callee_of_sight (place : Span → Span) (callee : Designator) :
    other.callee (callee.moved place) = table.callee callee := by
  rw [← sight_callee, ← sight_callee, same]
  simp only [Sight.callee, Designator.moved_selectors, movedSelectors_isEmpty, Designator.moved_base,
    Ident.moved_name]

theorem isConstant_of_sight (name : String) :
    (other.lookup? name).any Symbol.isConstant = (table.lookup? name).any Symbol.isConstant := by
  rw [← sight_isConstant, same, sight_isConstant]

theorem lookup?_of_sight (name : String) :
    (table.lookup? name = none ∧ other.lookup? name = none) ∨
      ∃ symbol symbol', table.lookup? name = some symbol ∧ other.lookup? name = some symbol' ∧
        symbol'.name = symbol.name ∧ symbol'.type = symbol.type ∧ symbol'.kind = symbol.kind := by
  have meanings : (other.lookup? name).map Symbol.meaning = (table.lookup? name).map Symbol.meaning :=
    congrFun (congrArg Sight.meaning? same) name
  cases found : table.lookup? name with
  | none => exact .inl ⟨rfl, by simpa [found] using meanings⟩
  | some symbol =>
    rw [found] at meanings
    obtain ⟨symbol', found', meant⟩ := Option.map_eq_some_iff.mp meanings
    have named : ∀ {table : SymbolTable} {symbol : Symbol}, table.lookup? name = some symbol →
        symbol.name = name := fun found => by simpa using List.find?_some found
    exact .inr ⟨symbol, symbol', rfl, found', (named found').trans (named found).symm,
      congrArg Meaning.type meant, congrArg Meaning.kind meant⟩

theorem lookupField?_of_sight (tag : Tag) (name : String) :
    (table.lookupField? tag name = none ∧ other.lookupField? tag name = none) ∨
      ∃ symbol symbol', table.lookupField? tag name = some symbol ∧
        other.lookupField? tag name = some symbol' ∧ symbol'.type = symbol.type := by
  have types : (other.lookupField? tag name).map (·.type) = (table.lookupField? tag name).map (·.type) :=
    congrFun (congrFun (congrArg Sight.member? same) tag) name
  cases found : table.lookupField? tag name with
  | none => exact .inl ⟨rfl, by simpa [found] using types⟩
  | some symbol =>
    rw [found] at types
    obtain ⟨symbol', found', typed⟩ := Option.map_eq_some_iff.mp types
    exact .inr ⟨symbol, symbol', rfl, found', typed⟩

end SymbolTable

variable {twin : Twin} {table other : SymbolTable} {start start' : Nat}

section Types

theorem namedType_agree (same : ∀ text, other.typeOf text = table.typeOf text) (type : TypeName) :
    twin.Agree (table.namedType type) (other.namedType (type.moved twin.place)) Eq := by
  unfold SymbolTable.namedType
  rw [TypeName.moved_name, same]
  exact agree_unless (agree_report _ _) (agree_return _)

theorem namedValueType_agree (same : ∀ text, other.typeOf text = table.typeOf text) (type : TypeName) :
    twin.Agree (table.namedValueType type) (other.namedValueType (type.moved twin.place)) Eq := by
  refine (namedType_agree same type).andThen fun tag => ?_
  exact agree_ite (fun _ => (agree_mismatch _ _).andThen fun _ => agree_return _) fun _ => agree_return _

end Types

section Parts

theorem Literal.check_agree (literal : Literal) (span : Span) :
    twin.Agree (literal.check span) (literal.check (twin.place span)) Eq := by
  unfold Literal.check
  cases literal with
  | int | char => exact agree_unless (agree_mismatch _ _) (agree_return _)
  | _ => exact agree_return _

theorem checkArith_agree (timed : twin.Timed start start') (symbol : String) (left right : Tag)
    (span : Span) : twin.Agree (checkArith start symbol left right span)
      (checkArith start' symbol left right (twin.place span)) Eq := by
  unfold checkArith
  cases Tag.promote left right with
  | some type => exact agree_return _
  | none =>
    refine (agree_excused timed _).andThen fun silent => ?_
    exact agree_unless (agree_mismatch _ _) (agree_return _)

theorem checkElement_agree (container : Tag) (span : Span) :
    twin.Agree (checkElement container span) (checkElement container (twin.place span)) Eq := by
  unfold checkElement
  refine agree_ite (fun _ => agree_return _) fun _ => agree_ite (fun _ => agree_return _) fun _ => ?_
  exact (agree_mismatch _ _).andThen fun _ => agree_return _

theorem checkSign_agree (timed : twin.Timed start start') (neg : Bool) (type : Tag) (span : Span) :
    twin.Agree (checkSign start neg type span) (checkSign start' neg type (twin.place span)) Eq := by
  unfold checkSign
  refine agree_ite (fun _ => ?_) fun _ => agree_return _
  exact (agree_excused timed _).andThen fun _ => agree_unless (agree_mismatch _ _) (agree_return _)

theorem checkElements_agree (timed : twin.Timed start start') (first : Tag) (span : Span)
    (rest : List (Tag × Span)) : twin.Agree (checkElements start first span rest)
      (checkElements start' first (twin.place span) (rest.map fun entry => (entry.1, twin.place entry.2)))
      Eq := by
  induction rest with
  | nil => exact agree_return _
  | cons entry rest ih =>
    refine (agree_excused timed _).andThen fun silent => agree_ite (fun _ => ?_) fun _ => ih
    rw [← twin.orElse]
    exact (agree_mismatch _ _).andThen fun _ => agree_return _

theorem checkValue_agree (callee : Designator) (result : Tag) (span : Span) :
    twin.Agree (checkValue callee result span)
      (checkValue (callee.moved twin.place) result (twin.place span)) Eq := by
  unfold checkValue
  rw [Designator.moved_base, Ident.moved_name, Designator.moved_span, ← twin.orElse]
  exact agree_ite (fun _ => (agree_mismatch _ _).andThen fun _ => agree_return _) fun _ => agree_return _

theorem Expr.adopts_moved (e : Expr) (expected : Tag) :
    (e.moved twin.place).adopts expected = e.adopts expected := by
  rw [Expr.adopts, Expr.adopts, Expr.moved_isBareList]

theorem Expr.adopt_agree (e : Expr) (expected : Tag) :
    twin.Agree (e.adopt expected) ((e.moved twin.place).adopt expected) Eq := by
  unfold Expr.adopt
  rw [Expr.moved_head, Term.moved_head, Factor.moved_id, Term.moved_id, Expr.moved_id]
  exact (agree_record _ _).andThen fun _ => (agree_record _ _).andThen fun _ =>
    (agree_record _ _).andThen fun _ => agree_return _

theorem Callee.use_agree (callee : Callee) : twin.Agree callee.use callee.use Eq := by
  cases callee with
  | method result params => exact (agree_asDeclared result).discard
  | _ => exact agree_return ()

end Parts

section Calls

theorem checkListArgument_agree (op : Intrinsic) (list : Argument) (span : Span) {more more' : Noting Unit}
    (agree : twin.Agree more more' Eq) : twin.Agree (checkListArgument op list span more)
      (checkListArgument op (list.moved twin.place) (twin.place span) more') Eq := by
  unfold checkListArgument
  refine agree_ite (fun _ => agree) fun _ => ?_
  rw [Argument.moved, ← twin.orElse]
  exact agree_mismatch _ _

variable (same : other.registry = table.registry)

include same

theorem Intrinsic.checkArguments_agree (op : Intrinsic) (arguments : List Argument) (span : Span) :
    twin.Agree (op.checkArguments table span arguments) (op.checkArguments other (twin.place span)
      (arguments.map (·.moved twin.place))) Eq := by
  have complain : ∀ (condition : Prop) [Decidable condition] (what : Mismatch) (argument : Argument),
      twin.Agree (if condition then mismatch what (argument.span.orElse span) else pure ())
        (if condition then mismatch what ((argument.moved twin.place).span.orElse (twin.place span))
          else pure ()) Eq := by
    intro condition _ what argument
    rw [Argument.moved, ← twin.orElse]
    exact agree_guard (agree_mismatch _ _)
  match op, arguments with
  | .len, list :: _ => exact checkListArgument_agree _ list span (agree_return ())
  | .add, list :: value :: _ =>
    refine checkListArgument_agree _ list span ?_
    rw [same]
    exact complain _ _ value
  | .del, list :: index :: _ => exact checkListArgument_agree _ list span (complain _ _ index)
  | .ord, value :: _ => exact complain _ _ value
  | .chr, value :: _ => exact complain _ _ value
  | .len, [] | .add, [] | .add, [_] | .del, [] | .del, [_] | .ord, [] | .chr, [] => exact agree_return ()

theorem checkParams_agree (name : String) (span : Span) (position : Nat) (params : List Tag)
    (arguments : List Argument) : twin.Agree (checkParams table name span position params arguments)
      (checkParams other name (twin.place span) position params (arguments.map (·.moved twin.place)))
      Eq := by
  induction params generalizing position arguments with
  | nil => exact agree_return ()
  | cons param params ih =>
    cases arguments with
    | nil => exact agree_return ()
    | cons argument arguments =>
      rw [List.map_cons, checkParams, checkParams, same, Argument.moved, ← twin.orElse]
      exact agree_unless (agree_mismatch _ _) (ih _ _)

theorem Callee.check_agree (name : String) (span : Span) (arguments : List Argument) (callee : Callee) :
    twin.Agree (callee.check table name span arguments) (callee.check other name (twin.place span)
      (arguments.map (·.moved twin.place))) Eq := by
  cases callee with
  | intrinsic op =>
    simp only [Callee.check, List.length_map]
    refine agree_ite (fun _ => ?_) fun _ => ?_
    · exact (agree_report _ _).andThen fun _ => agree_return _
    · exact (op.checkArguments_agree same arguments span).andThen fun _ => agree_return _
  | method result params =>
    simp only [Callee.check, List.length_map]
    refine agree_ite (fun _ => ?_) fun _ => ?_
    · exact (agree_report _ _).andThen fun _ => agree_return _
    · exact (checkParams_agree same name span 1 params arguments).andThen fun _ => agree_return _
  | undeclared | notCallable => exact (agree_report _ _).andThen fun _ => agree_return _

end Calls

section Names

variable (same : other.sight = table.sight)

include same

theorem checkBase_agree (base : Ident) :
    twin.Agree (checkBase table base) (checkBase other (base.moved twin.place)) Eq := by
  unfold checkBase
  rw [Ident.moved_name]
  rcases SymbolTable.lookup?_of_sight same base.name with ⟨none, none'⟩ |
    ⟨symbol, symbol', found, found', named, typed, kind⟩
  · rw [none, none']
    exact (agree_report _ _).andThen fun _ => agree_return _
  · have assignable : symbol'.isVariable = symbol.isVariable := by rw [Symbol.isVariable, kind]; rfl
    rw [found, found']
    dsimp only
    rw [assignable, named, typed]
    exact agree_ite (fun _ => agree_asDeclared _) fun _ =>
      (agree_mismatch _ _).andThen fun _ => agree_return _

theorem checkField_agree (container : Tag) (field : Ident) :
    twin.Agree (checkField table container field) (checkField other container (field.moved twin.place))
      Eq := by
  unfold checkField
  rw [Ident.moved_name]
  refine agree_ite (fun _ => agree_return _) fun _ => ?_
  rcases SymbolTable.lookupField?_of_sight same container field.name with ⟨none, none'⟩ |
    ⟨symbol, symbol', found, found', typed⟩
  · rw [none, none']
    exact (agree_report _ _).andThen fun _ => agree_return _
  · rw [found, found']
    dsimp only
    rw [typed]
    exact agree_asDeclared _

theorem checkCast_agree (timed : twin.Timed start start') (type : Tag) (span : Span)
    (cast : Option TypeName) : twin.Agree (checkCast table start type span cast)
      (checkCast other start' type (twin.place span) (cast.map (·.moved twin.place))) Eq := by
  cases cast with
  | none => exact agree_return _
  | some target =>
    refine (namedType_agree (SymbolTable.typeOf_of_sight same) target).andThen fun tag => ?_
    refine agree_ite (fun _ => (agree_mismatch _ _).andThen fun _ => agree_return _) fun _ => ?_
    refine (agree_excused timed _).andThen fun silent => ?_
    rw [TypeName.moved_span, ← twin.orElse]
    exact agree_unless (agree_mismatch _ _) (agree_return _)

theorem checkNew_agree (className : Ident) :
    twin.Agree (checkNew table className) (checkNew other (className.moved twin.place)) Eq := by
  unfold checkNew
  rw [Ident.moved_name, SymbolTable.typeNamed_of_sight same, SymbolTable.registry_of_sight same]
  exact agree_ite (fun _ => agree_return _) fun _ =>
    (agree_report _ _).andThen fun _ => agree_return _

end Names

mutual

theorem Expr.check_agree (same : other.sight = table.sight) : ∀ e : Expr,
    twin.Agree (e.check table) ((e.moved twin.place).check other) Eq
  | ⟨id, neg, cast, head, tail, span⟩ => by
    rw [Expr.moved, Expr.check, Expr.check]
    refine agree_tally fun start start' timed => ?_
    have rest : ∀ type, twin.Agree
        (do
          let type ← checkCast table start type span cast
          let type ← checkSign start neg type span
          let type ← checkSum table start span type tail
          record id type
          pure type)
        (do
          let type ← checkCast other start' type (twin.place span) (cast.map (·.moved twin.place))
          let type ← checkSign start' neg type (twin.place span)
          let type ← checkSum other start' (twin.place span) type (movedTerms twin.place tail)
          record id type
          pure type) Eq := fun type =>
      (checkCast_agree same timed type span cast).andThen fun type =>
      (checkSign_agree timed neg type span).andThen fun type =>
      (checkSum_agree same timed span type tail).andThen fun type =>
      (agree_record id type).andThen fun _ => agree_return type
    rw [isLeastInt_moved, Term.moved_head, Factor.moved_id, Term.moved_id]
    exact agree_ite (fun _ => (agree_record _ _).andThen fun _ => (agree_record _ _).andThen fun _ =>
      (agree_return Tag.int).andThen rest) fun _ => (Term.check_agree same head).andThen rest

theorem checkSum_agree (same : other.sight = table.sight) {start start' : Nat}
    (timed : twin.Timed start start') (span : Span) :
    ∀ (type : Tag) (tail : List (AddOp × Term)), twin.Agree (checkSum table start span type tail)
      (checkSum other start' (twin.place span) type (movedTerms twin.place tail)) Eq
  | _, [] => agree_return _
  | type, (op, term) :: rest => by
    rw [movedTerms, checkSum, checkSum, Term.moved_span, ← twin.orElse]
    exact (Term.check_agree same term).andThen fun right =>
      (checkArith_agree timed op.symbol type right _).andThen fun type =>
      checkSum_agree same timed span type rest

theorem Term.check_agree (same : other.sight = table.sight) : ∀ term : Term,
    twin.Agree (term.check table) ((term.moved twin.place).check other) Eq
  | ⟨id, head, tail, span⟩ => by
    rw [Term.moved, Term.check, Term.check]
    exact agree_tally fun start start' timed => (Factor.check_agree same head).andThen fun type =>
      (checkProduct_agree same timed span type tail).andThen fun type =>
      (agree_record _ _).andThen fun _ => agree_return _

theorem checkProduct_agree (same : other.sight = table.sight) {start start' : Nat}
    (timed : twin.Timed start start') (span : Span) :
    ∀ (type : Tag) (tail : List (MulOp × Factor)),
      twin.Agree (checkProduct table start span type tail)
        (checkProduct other start' (twin.place span) type (movedFactors twin.place tail)) Eq
  | _, [] => agree_return _
  | type, (op, factor) :: rest => by
    rw [movedFactors, checkProduct, checkProduct, Factor.moved_span, ← twin.orElse]
    exact (Factor.check_agree same factor).andThen fun right =>
      (checkArith_agree timed op.symbol type right _).andThen fun type =>
      checkProduct_agree same timed span type rest

theorem Factor.check_agree (same : other.sight = table.sight) : ∀ factor : Factor,
    twin.Agree (factor.check table) ((factor.moved twin.place).check other) Eq
  | ⟨id, kind, span⟩ => by
    rw [Factor.moved, Factor.check, Factor.check]
    exact (FactorKind.check_agree same span kind).andThen fun type =>
      (agree_record _ _).andThen fun _ => agree_return _

theorem FactorKind.check_agree (same : other.sight = table.sight) (span : Span) : ∀ kind : FactorKind,
    twin.Agree (kind.check table span) ((kind.moved twin.place).check other (twin.place span)) Eq
  | .literal value => value.check_agree span
  | .designator target => Designator.check_agree same target
  | .call callee args => by
    rw [FactorKind.moved, FactorKind.check, FactorKind.check, SymbolTable.callee_of_sight same,
      Designator.moved_base, Ident.moved_name, Designator.moved_span, ← twin.orElse]
    refine (Callee.use_agree _).andThen fun _ => (checkArguments_agree same _ args).bind fun found found'
      related => ?_
    rw [related]
    exact (Callee.check_agree (SymbolTable.registry_of_sight same) _ _ found _).andThen fun result =>
      checkValue_agree callee result span
  | .newObject className => checkNew_agree same className
  | .newArray elem sizes => by
    rw [FactorKind.moved, FactorKind.check, FactorKind.check]
    refine (namedValueType_agree (SymbolTable.typeOf_of_sight same) elem).andThen fun type =>
      (checkSizes_agree same sizes).andThen fun _ => agree_pure ?_
    induction sizes generalizing type with
    | nil => rfl
    | cons size sizes ih => exact ih _
  | .paren inner => Expr.check_agree same inner
  | .list elems => by
    rw [FactorKind.moved, FactorKind.check, FactorKind.check]
    refine agree_tally fun start start' timed => (checkExprs_agree same elems).bind fun found found'
      related => ?_
    subst related
    cases found with
    | nil => exact (agree_mismatch _ _).andThen fun _ => agree_return _
    | cons entry found => exact checkElements_agree timed entry.1 span found

theorem checkExprs_agree (same : other.sight = table.sight) : ∀ exprs : List Expr,
    twin.Agree (checkExprs table exprs) (checkExprs other (movedExprs twin.place exprs))
    fun found found' => found' = found.map fun entry => (entry.1, twin.place entry.2)
  | [] => agree_pure rfl
  | e :: rest => by
    rw [movedExprs, checkExprs, checkExprs, Expr.moved_span]
    refine (Expr.check_agree same e).andThen fun type => (checkExprs_agree same rest).bind fun found found'
      related => agree_pure ?_
    rw [related]
    rfl

theorem checkSizes_agree (same : other.sight = table.sight) : ∀ sizes : List Expr,
    twin.Agree (checkSizes table sizes) (checkSizes other (movedExprs twin.place sizes)) Eq
  | [] => agree_return ()
  | size :: rest => by
    rw [movedExprs, checkSizes, checkSizes, Expr.moved_span]
    exact ((Expr.check_agree same size).demand _ _ _).andThen fun _ => checkSizes_agree same rest

theorem checkArguments_agree (same : other.sight = table.sight) :
    ∀ (expectation : Expectation) (args : List Expr), twin.Agree (checkArguments table expectation args)
      (checkArguments other expectation (movedExprs twin.place args))
      fun found found' => found' = found.map (·.moved twin.place)
  | _, [] => agree_pure rfl
  | expectation, arg :: rest => by
    rw [movedExprs, checkArguments, checkArguments, Expr.adopts_moved, Expr.moved_span]
    refine agree_tally fun start start' timed => ?_
    have more : ∀ type, twin.Agree
        (do
          let silent ← excused start [type]
          return ⟨type, silent, arg.span⟩ :: (← checkArguments table (expectation.next type) rest))
        (do
          let silent ← excused start' [type]
          return ⟨type, silent, twin.place arg.span⟩ ::
            (← checkArguments other (expectation.next type) (movedExprs twin.place rest)))
        fun found found' => found' = found.map (·.moved twin.place) := by
      intro type
      refine (agree_excused timed _).andThen fun silent =>
        (checkArguments_agree same (expectation.next type) rest).bind fun found found' related => agree_pure ?_
      rw [related]
      rfl
    exact agree_ite (fun _ => (Expr.adopt_agree arg _).andThen more) fun _ =>
      (Expr.check_agree same arg).andThen more

theorem Designator.check_agree (same : other.sight = table.sight) : ∀ target : Designator,
    twin.Agree (target.check table) ((target.moved twin.place).check other) Eq
  | ⟨id, base, selectors, span⟩ => by
    rw [Designator.moved, Designator.check, Designator.check]
    exact (checkBase_agree same base).andThen fun type =>
      (checkSelectors_agree same span type selectors).andThen fun type =>
      (agree_record _ _).andThen fun _ => agree_return _

theorem checkSelectors_agree (same : other.sight = table.sight) (span : Span) :
    ∀ (type : Tag) (selectors : List Selector), twin.Agree (checkSelectors table span type selectors)
      (checkSelectors other (twin.place span) type (movedSelectors twin.place selectors)) Eq
  | _, [] => agree_return _
  | type, .field name :: rest => by
    rw [movedSelectors, checkSelectors, checkSelectors]
    exact (checkField_agree same type name).andThen fun type => checkSelectors_agree same span type rest
  | type, .index value :: rest => by
    rw [movedSelectors, checkSelectors, checkSelectors, Expr.moved_span, ← twin.orElse]
    exact ((Expr.check_agree same value).demand _ _ _).andThen fun _ =>
      (checkElement_agree type _).andThen fun type => checkSelectors_agree same span type rest

end

section Forms

variable (same : other.sight = table.sight)

include same

theorem checkExpected_agree (e : Expr) (expected : Tag) :
    twin.Agree (checkExpected table e expected) (checkExpected other (e.moved twin.place) expected) Eq := by
  unfold checkExpected
  rw [Expr.adopts_moved]
  exact agree_ite (fun _ => e.adopt_agree expected) fun _ => Expr.check_agree same e

theorem Designator.checkCall_agree (callee : Designator) (args : List Expr) (span : Span) :
    twin.Agree (callee.checkCall table args span)
      ((callee.moved twin.place).checkCall other (movedExprs twin.place args) (twin.place span)) Eq := by
  unfold Designator.checkCall
  rw [SymbolTable.callee_of_sight same, Designator.moved_base, Ident.moved_name, Designator.moved_span,
    ← twin.orElse]
  refine (Callee.use_agree _).andThen fun _ => (checkArguments_agree same _ args).bind fun found found'
    related => ?_
  rw [related]
  exact Callee.check_agree (SymbolTable.registry_of_sight same) _ _ found _

theorem Designator.checkWritten_agree (target : Designator) :
    twin.Agree (target.checkWritten table) ((target.moved twin.place).checkWritten other) Eq := by
  unfold Designator.checkWritten
  rw [Designator.moved_selectors, movedSelectors_isEmpty, Designator.moved_base, Ident.moved_name,
    SymbolTable.isConstant_of_sight same]
  exact (Designator.check_agree same target).andThen fun type =>
    agree_unless (agree_report _ _) (agree_return _)

theorem CondFact.check_agree (fact : CondFact) :
    twin.Agree (fact.check table) ((fact.moved twin.place).check other) Eq := by
  obtain ⟨id, kind, span⟩ := fact
  unfold CondFact.check
  cases kind with
  | expr value =>
    exact (Expr.check_agree same value).andThen fun type =>
      (agree_record _ _).andThen fun _ => agree_return _
  | relation left op right =>
    simp only [CondFact.moved, FactKind.moved, SymbolTable.registry_of_sight same, Expr.moved_span,
      ← twin.orElse]
    exact agree_tally fun start start' timed => (Expr.check_agree same left).andThen fun l =>
      (Expr.check_agree same right).andThen fun r => (agree_excused timed _).andThen fun silent =>
      agree_unless (agree_mismatch _ _) ((agree_record _ _).andThen fun _ => agree_return _)

theorem checkFacts_agree (span : Span) (facts : List CondFact) : twin.Agree (checkFacts table span facts)
    (checkFacts other (twin.place span) (facts.map (·.moved twin.place))) Eq := by
  induction facts with
  | nil => exact agree_return ()
  | cons fact facts ih =>
    rw [List.map_cons, checkFacts, checkFacts, CondFact.moved, ← twin.orElse]
    exact ((CondFact.check_agree same fact).demand _ _ _).andThen fun _ => ih

theorem checkCondTerms_agree (span : Span) (terms : List CondTerm) :
    twin.Agree (checkCondTerms table span terms)
      (checkCondTerms other (twin.place span) (terms.map (·.moved twin.place))) Eq := by
  induction terms with
  | nil => exact agree_return ()
  | cons term terms ih =>
    exact (checkFacts_agree same span term.facts).andThen fun _ =>
      (agree_record _ _).andThen fun _ => ih

theorem Condition.check_agree (cond : Condition) :
    twin.Agree (cond.check table) ((cond.moved twin.place).check other) Eq :=
  (checkCondTerms_agree same cond.span cond.terms).andThen fun _ => agree_record _ _

end Forms

end StackCode
