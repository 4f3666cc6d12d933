import StackCode.Proofs.Tree.Annotated
import StackCode.Proofs.Typing.Findings

namespace StackCode

open Noting

namespace SymbolTable

variable (table : SymbolTable)

@[simp]
theorem sight_registry : table.sight.registry = table.registry := rfl

theorem sight_meaning? (name : String) :
    table.sight.meaning? name = (table.lookup? name).map Symbol.meaning := rfl

theorem sight_classTag? : table.sight.classTag? = table.classTag? := by
  funext name
  rw [Sight.classTag?, classTag?, sight_meaning?]
  cases table.lookup? name with
  | none => rfl
  | some symbol =>
    obtain ⟨_, _, _, type, _, _, kind⟩ := symbol
    cases kind <;> rfl

theorem sight_typeOf (text : String) : table.sight.typeOf text = table.typeOf text := by
  rw [Sight.typeOf, typeOf, sight_classTag?]

theorem sight_typeNamed (name : String) : table.sight.typeNamed name = table.typeNamed name := by
  rw [Sight.typeNamed, typeNamed, sight_classTag?]

theorem sight_callee (callee : Designator) : table.sight.callee callee = table.callee callee := by
  rw [Sight.callee, SymbolTable.callee, sight_meaning?]
  cases table.lookup? callee.base.name with
  | none => rfl
  | some symbol =>
    obtain ⟨_, _, _, type, _, _, kind⟩ := symbol
    cases kind <;> rfl

theorem sight_isConstant (name : String) :
    table.sight.isConstant name = (table.lookup? name).any Symbol.isConstant := by
  rw [Sight.isConstant, sight_meaning?]
  cases table.lookup? name <;> rfl

end SymbolTable

theorem Tag.isUnknown_iff {tag : Tag} : tag.isUnknown = true ↔ tag = .unknown := by
  simp [Tag.isUnknown]

theorem Noting.finds_anything {α : Type} (a : α) : (pure a : Noting α).Finds [] fun _ _ => True :=
  (finds_pure a).mono fun _ _ _ => trivial

section Parts

variable (table : SymbolTable)

theorem checkBase_finds (base : Ident) :
    (checkBase table base).Finds [] fun _ type =>
      table.sight.varType? base.name = some type ∧ type ≠ .unknown := by
  unfold checkBase Sight.varType?
  rw [table.sight_meaning?]
  cases table.lookup? base.name with
  | none => exact finds_complaint (finds_report _ _) (finds_anything _)
  | some symbol =>
    obtain ⟨_, _, _, type, _, _, kind⟩ := symbol
    cases kind with
    | var constant =>
      refine (finds_asDeclared type).mono ?_
      rintro facts _ ⟨rfl, known⟩
      exact ⟨rfl, known⟩
    | method | classType => exact finds_complaint (finds_mismatch _ _) (finds_anything _)

theorem checkField_finds (container : Tag) (field : Ident) :
    (checkField table container field).Finds [] fun _ type =>
      table.sight.FieldOf container field.name type := by
  unfold checkField Sight.FieldOf
  cases unknown : container.isUnknown with
  | true =>
    refine (finds_pure _).mono ?_
    rintro facts _ rfl
    exact .inl ⟨Tag.isUnknown_iff.mp unknown, Tag.isUnknown_iff.mp unknown⟩
  | false =>
    have known : container ≠ .unknown := fun h => by simp [h, Tag.isUnknown] at unknown
    cases found : table.lookupField? container field.name with
    | none => exact finds_complaint (finds_report _ _) (finds_anything _)
    | some symbol =>
      refine (finds_asDeclared symbol.type).mono ?_
      rintro facts _ ⟨rfl, declared⟩
      exact .inr ⟨known, by simp [SymbolTable.sight, found], declared⟩

theorem checkElement_finds (container : Tag) (span : Span) :
    (checkElement container span).Finds [] fun _ type => ElementOf container type := by
  unfold checkElement ElementOf
  cases unknown : container.isUnknown with
  | true =>
    refine (finds_pure _).mono ?_
    rintro facts _ rfl
    exact .inl ⟨Tag.isUnknown_iff.mp unknown, Tag.isUnknown_iff.mp unknown⟩
  | false =>
    cases isList : container.isList with
    | true => exact (finds_pure _).mono fun _ _ same => .inr ⟨rfl, same⟩
    | false => exact finds_complaint (finds_mismatch _ _) (finds_anything _)

theorem namedType_finds (type : TypeName) :
    (table.namedType type).Finds [] fun _ tag =>
      tag = table.sight.typeOf type.name ∧ tag ≠ .unknown := by
  unfold SymbolTable.namedType
  rw [table.sight_typeOf]
  cases unknown : (table.typeOf type.name).isUnknown with
  | true =>
    rw [if_pos unknown]
    exact finds_complaint (finds_report _ _) (finds_anything _)
  | false =>
    rw [if_neg (by simp [unknown])]
    refine (finds_pure (table.typeOf type.name)).mono ?_
    rintro facts _ rfl
    exact ⟨rfl, fun h => by simp [h, Tag.isUnknown] at unknown⟩

theorem namedValueType_finds (type : TypeName) :
    (table.namedValueType type).Finds [] fun _ tag => tag = table.sight.typeOf type.name ∧
      tag ≠ .unknown ∧ tag ≠ .void := by
  refine ((namedType_finds table type).bind (Q := fun tag _ found => found = tag ∧ tag ≠ .void)
    fun tag => ?_).mono ?_
  · by_cases void : tag = .void
    · subst void
      exact finds_complaint (finds_mismatch _ _) (finds_anything _)
    · rw [if_neg (by simpa using void)]
      exact (finds_pure tag).mono fun _ _ same => ⟨same, void⟩
  · rintro facts _ ⟨tag, ⟨rfl, known⟩, rfl, value⟩
    exact ⟨rfl, known, value⟩

theorem checkCast_finds (start : Nat) (type : Tag) (span : Span) (cast : Option TypeName) :
    (checkCast table start type span cast).Finds [] fun _ result =>
      table.sight.Casts type cast result := by
  cases cast with
  | none => exact finds_pure type
  | some target =>
    refine ((namedType_finds table target).bind (Q := fun tag _ found =>
      tag ≠ .unknown → found = tag ∧ tag.isNumeric = true ∧ type.isNumeric = true) fun tag => ?_).mono ?_
    · by_cases wrong : (!tag.isUnknown && !tag.isNumeric) = true
      · rw [if_pos wrong]
        exact finds_complaint (finds_mismatch _ _) (finds_anything _)
      · rw [if_neg wrong]
        refine ((finds_excused start [type]).bind fun silent =>
          finds_unless_pure (finds_mismatch _ _) tag).mono ?_
        rintro facts _ ⟨silent, rfl, fine, rfl⟩ known
        simp_all [Tag.isUnknown]
    · rintro facts _ ⟨tag, ⟨rfl, known⟩, found⟩
      obtain ⟨rfl, numeric⟩ := found known
      exact ⟨rfl, numeric⟩

theorem checkSign_finds (start : Nat) (neg : Bool) (type : Tag) (span : Span) :
    (checkSign start neg type span).Finds [] fun _ result =>
      result = type ∧ (neg = true → type.isNumeric = true) := by
  unfold checkSign
  by_cases wrong : (neg && !type.isNumeric) = true
  · rw [if_pos wrong]
    refine ((finds_excused start [type]).bind fun silent =>
      finds_unless_pure (finds_mismatch _ _) _).mono ?_
    rintro facts _ ⟨silent, rfl, fine, _⟩
    exact absurd rfl fine
  · rw [if_neg wrong]
    refine (finds_pure type).mono fun _ _ same => ⟨same, ?_⟩
    simpa using wrong

theorem Literal.check_finds (literal : Literal) (span : Span) :
    (literal.check span).Finds [] fun _ type => literal.Fits ∧ type = literal.tag := by
  unfold Literal.check Literal.Fits
  cases literal with
  | int n =>
    dsimp only
    refine (finds_unless_pure (finds_mismatch _ _) _).mono ?_
    rintro facts _ ⟨fine, rfl⟩
    exact ⟨by simpa using fine, rfl⟩
  | char c =>
    dsimp only
    refine (finds_unless_pure (finds_mismatch _ _) _).mono ?_
    rintro facts _ ⟨fine, rfl⟩
    exact ⟨not_lt.mp fine, rfl⟩
  | float x | double x | str s | bool b | null =>
    exact (finds_pure _).mono fun _ _ same => ⟨trivial, same⟩

theorem checkArith_finds (start : Nat) (symbol : String) (left right : Tag) (span : Span) :
    (checkArith start symbol left right span).Finds [] fun _ type =>
      Tag.promote left right = some type := by
  unfold checkArith
  cases promoted : Tag.promote left right with
  | some type => exact (finds_pure type).mono fun _ _ same => by rw [same]
  | none =>
    refine ((finds_excused start [left, right]).bind fun silent =>
      finds_unless_pure (finds_mismatch _ _) _).mono ?_
    rintro facts _ ⟨silent, rfl, fine, _⟩
    exact absurd rfl fine

theorem checkNew_finds (className : Ident) :
    (checkNew table className).Finds [] fun _ type =>
      type = table.sight.typeNamed className.name ∧ table.registry.isClass type = true := by
  unfold checkNew
  rw [table.sight_typeNamed]
  by_cases isClass : table.registry.isClass (table.typeNamed className.name) = true
  · rw [if_pos isClass]
    exact (finds_pure _).mono fun _ _ same => by rw [same]; exact ⟨rfl, isClass⟩
  · rw [if_neg isClass]
    exact finds_complaint (finds_report _ _) (finds_anything _)

theorem checkElements_finds (start : Nat) (first : Tag) (span : Span) (rest : List (Tag × Span)) :
    (checkElements start first span rest).Finds [] fun _ type =>
      type = first.listOf ∧ ∀ found ∈ rest, found.1 = first := by
  induction rest with
  | nil => exact (finds_pure _).mono fun _ _ same => ⟨same, by simp⟩
  | cons found rest ih =>
    obtain ⟨type, place⟩ := found
    rw [checkElements]
    refine ((finds_excused start [first, type]).bind (Q := fun silent _ result =>
      silent = false → result = first.listOf ∧ type = first ∧ ∀ found ∈ rest, found.1 = first)
      fun silent => ?_).mono ?_
    · by_cases wrong : (type != first && !silent) = true
      · rw [if_pos wrong]
        exact finds_complaint (finds_mismatch _ _) (finds_anything _)
      · rw [if_neg wrong]
        refine ih.mono ?_
        rintro facts _ ⟨rfl, same⟩ rfl
        exact ⟨rfl, by simpa using wrong, same⟩
    · rintro facts _ ⟨silent, rfl, found⟩
      obtain ⟨same, rfl, others⟩ := found rfl
      exact ⟨same, by simpa using others⟩

theorem checkValue_finds (callee : Designator) (result : Tag) (span : Span) :
    (checkValue callee result span).Finds [] fun _ type => type = result ∧ result ≠ .void := by
  unfold checkValue
  by_cases void : result = .void
  · subst void
    exact finds_complaint (finds_mismatch _ _) (finds_anything _)
  · rw [if_neg (by simpa using void)]
    exact (finds_pure _).mono fun _ _ same => ⟨same, void⟩

theorem Expr.adopt_finds (e : Expr) (expected : Tag) :
    (e.adopt expected).Finds [e.head.head.id, e.head.id, e.id] fun facts type =>
      e.Adopted facts type ∧ type = expected := by
  refine ((finds_record _ expected).bind fun _ => (finds_record _ expected).bind fun _ =>
    (finds_record _ expected).bind fun _ => finds_pure expected).mono ?_
  rintro facts _ ⟨_, factor, _, term, _, whole, rfl⟩
  exact ⟨⟨factor, term, whole⟩, rfl⟩

end Parts

section Calls

variable (table : SymbolTable)

def Callee.Known (callee : Callee) : Prop :=
  ∀ result params, callee = .method result params → result ≠ .unknown

theorem Callee.use_finds (callee : Callee) : callee.use.Finds [] fun _ _ => callee.Known := by
  cases callee with
  | method result params =>
    refine (finds_asDeclared result).discard.mono ?_
    rintro facts _ ⟨_, _, known⟩ _ _ same
    cases same
    exact known
  | intrinsic | undeclared | notCallable => exact (finds_pure ()).mono fun _ _ _ _ _ same => by cases same

theorem checkListArgument_finds {op : Intrinsic} {list : Argument} {span : Span} {more : Noting Unit}
    {P : Facts → Unit → Prop} (rest : more.Finds [] P) :
    (checkListArgument op list span more).Finds [] fun facts u =>
      list.excused = false → list.type.isList = true ∧ P facts u := by
  unfold checkListArgument
  by_cases fine : (list.type.isList || list.excused) = true
  · rw [if_pos fine]
    refine rest.mono fun facts _ found clear => ⟨?_, found⟩
    simpa [clear] using fine
  · rw [if_neg fine]
    exact (finds_mismatch _ _).mono fun _ _ impossible => impossible.elim

theorem Intrinsic.checkArguments_finds (span : Span) (op : Intrinsic) (arguments : List Argument)
    (arity : arguments.length = op.arity) :
    (op.checkArguments table span arguments).Finds [] fun _ _ =>
      (∀ argument ∈ arguments, argument.excused = false) →
        op.Takes table.registry (arguments.map (·.type)) := by
  cases op with
  | len =>
    obtain ⟨list, rfl⟩ := List.length_eq_one_iff.mp arity
    refine (checkListArgument_finds (finds_pure ())).mono fun _ _ found clear => ?_
    exact (found (clear list (by simp))).1
  | add =>
    obtain ⟨list, value, rfl⟩ := List.length_eq_two.mp arity
    refine (checkListArgument_finds (finds_guard (finds_mismatch _ _))).mono fun _ _ found clear => ?_
    rw [List.forall_mem_cons, List.forall_mem_singleton] at clear
    obtain ⟨isList, fits⟩ := found clear.1
    exact ⟨isList, by simpa [clear.1, clear.2] using fits⟩
  | del =>
    obtain ⟨list, index, rfl⟩ := List.length_eq_two.mp arity
    refine (checkListArgument_finds (finds_guard (finds_mismatch _ _))).mono fun _ _ found clear => ?_
    rw [List.forall_mem_cons, List.forall_mem_singleton] at clear
    obtain ⟨isList, fits⟩ := found clear.1
    exact ⟨isList, by simpa [clear.2] using fits⟩
  | ord | chr =>
    obtain ⟨value, rfl⟩ := List.length_eq_one_iff.mp arity
    refine (finds_guard (finds_mismatch _ _)).mono fun _ _ fits clear => ?_
    simpa [Intrinsic.Takes, clear value (by simp)] using fits

theorem checkParams_finds (name : String) (span : Span) (position : Nat) (params : List Tag)
    (arguments : List Argument) (arity : params.length = arguments.length) :
    (checkParams table name span position params arguments).Finds [] fun _ _ =>
      (∀ argument ∈ arguments, argument.excused = false) →
        List.Forall₂ (fun param found => param = .unknown ∨ table.registry.accepts param found = true)
          params (arguments.map (·.type)) := by
  induction params generalizing position arguments with
  | nil =>
    cases List.eq_nil_of_length_eq_zero arity.symm
    exact (finds_pure ()).mono fun _ _ _ _ => .nil
  | cons param params ih =>
    cases arguments with
    | nil => cases arity
    | cons argument arguments =>
      rw [checkParams]
      refine (finds_unless (finds_mismatch _ _)
        (ih (position + 1) arguments (Nat.succ.inj arity))).mono ?_
      rintro facts _ ⟨fine, rest⟩ clear
      rw [List.forall_mem_cons] at clear
      refine .cons ?_ (rest clear.2)
      rw [clear.1] at fine
      by_cases known : param = .unknown
      · exact .inl known
      · exact .inr (by simpa [Tag.isUnknown, known] using fine)

theorem Callee.check_finds (name : String) (span : Span) (arguments : List Argument)
    (callee : Callee) :
    (callee.check table name span arguments).Finds [] fun _ type =>
      (∀ argument ∈ arguments, argument.excused = false) → callee.Known →
        callee.Takes table.registry (arguments.map (·.type)) type := by
  cases callee with
  | intrinsic op =>
    unfold Callee.check
    dsimp only
    by_cases arity : arguments.length = op.arity
    · rw [if_neg (by simpa using arity)]
      refine ((op.checkArguments_finds table span arguments arity).bind fun _ => finds_pure _).mono ?_
      rintro facts _ ⟨_, takes, rfl⟩ clear _
      exact ⟨takes clear, rfl⟩
    · rw [if_pos (by simpa using arity)]
      exact finds_complaint (finds_report _ _) (finds_anything _)
  | method result params =>
    unfold Callee.check
    dsimp only
    by_cases arity : params.length = arguments.length
    · rw [if_neg (by simpa using arity)]
      refine ((checkParams_finds table name span 1 params arguments arity).bind fun _ =>
        finds_pure _).mono ?_
      rintro facts _ ⟨_, takes, rfl⟩ clear known
      exact ⟨takes clear, known _ _ rfl, rfl⟩
    · rw [if_pos (by simpa using arity)]
      exact finds_complaint (finds_report _ _) (finds_anything _)
  | undeclared | notCallable => exact finds_complaint (finds_report _ _) (finds_anything _)

end Calls

theorem Expr.annotated_of_isBareList {e : Expr} (bare : e.isBareList = true) :
    e.annotated = [e.head.head.id, e.head.id, e.id] := by
  obtain ⟨_, _, _, _, _, _, rfl⟩ := Expr.eq_of_isBareList bare
  rfl

theorem annotated_of_isLeastInt {neg : Bool} {cast : Option TypeName} {head : Term}
    (least : isLeastInt neg cast head = true) : head.annotated = [head.head.id, head.id] := by
  obtain ⟨_, _, _, _, _, rfl⟩ := eq_of_isLeastInt least
  rfl

theorem Expr.given_finds {table : SymbolTable} {e : Expr} (expected : Tag)
    (sound : (e.check table).Finds e.annotated fun facts type => e.Typed facts table.sight type) :
    (if e.adopts expected then e.adopt expected else e.check table).Finds e.annotated
      fun facts type => e.Given facts table.sight expected type := by
  cases adopts : e.adopts expected with
  | true =>
    have bare : e.isBareList = true := by
      unfold Expr.adopts at adopts
      simp_all
    rw [if_pos rfl, Expr.annotated_of_isBareList bare]
    exact (e.adopt_finds expected).mono fun _ _ found => .inl ⟨adopts, found⟩
  | false =>
    rw [if_neg (by simp)]
    exact sound.mono fun _ _ found => .inr ⟨adopts, found⟩

theorem ExprsTyped.length {facts : Facts} {sight : Sight} {exprs : List Expr} {types : List Tag}
    (typed : ExprsTyped facts sight exprs types) : types.length = exprs.length := by
  induction exprs generalizing types with
  | nil => rw [show types = [] from typed]; rfl
  | cons e rest ih =>
    obtain ⟨type, others, rfl, _, more⟩ := typed
    rw [List.length_cons, List.length_cons, ih more]

theorem ExprsTyped.uniform {facts : Facts} {sight : Sight} {exprs : List Expr} {types : List Tag}
    {type : Tag} (typed : ExprsTyped facts sight exprs types) (same : ∀ found ∈ types, found = type) :
    ExprsTyped facts sight exprs (exprs.map fun _ => type) := by
  have all : types = exprs.map fun _ => type := by
    rw [List.map_const', List.eq_replicate_iff]
    exact ⟨typed.length, same⟩
  exact all ▸ typed

theorem listLiteral_finds (start : Nat) (span : Span) (types : List (Tag × Span)) :
    (match types with
      | [] => do
        mismatch .emptyList span
        return .unknown
      | (first, _) :: rest => checkElements start first span rest : Noting Tag).Finds []
      fun _ result => types ≠ [] ∧ ∃ elem, (∀ found ∈ types.map Prod.fst, found = elem) ∧
        result = elem.listOf := by
  cases types with
  | nil => exact finds_complaint (finds_mismatch _ _) (finds_anything _)
  | cons found rest =>
    refine (checkElements_finds start found.1 span rest).mono ?_
    rintro facts _ ⟨rfl, same⟩
    exact ⟨by simp, found.1, by simpa using same, rfl⟩

section Sound

variable (table : SymbolTable)

mutual

theorem Expr.check_finds : ∀ e : Expr,
    (e.check table).Finds e.annotated fun facts type => e.Typed facts table.sight type
  | ⟨id, neg, cast, head, tail, span⟩ => by
    have rest : ∀ start type, (do
        let type ← checkCast table start type span cast
        let type ← checkSign start neg type span
        let type ← checkSum table start span type tail
        record id type
        return type).Finds (sumAnnotated tail ++ [id]) fun facts result => ∃ found,
          table.sight.Casts type cast found ∧ (neg = true → found.isNumeric = true) ∧
          SumTyped facts table.sight found tail result ∧ facts id result := by
      intro start type
      refine ((checkCast_finds table start type span cast).bind fun type =>
        (checkSign_finds start neg type span).bind fun type =>
        (checkSum_finds tail start span type).bind fun type =>
        (finds_record id type).bind fun _ => finds_pure type).mono ?_
      rintro facts _ ⟨found, casts, _, ⟨rfl, signed⟩, _, summed, _, known, rfl⟩
      exact ⟨_, casts, signed, summed, known⟩
    rw [Expr.check]
    cases least : isLeastInt neg cast head with
    | true =>
      refine (finds_tally.bind fun start => (finds_record _ _).bind fun _ =>
        (finds_record _ _).bind fun _ => (finds_pure Tag.int).bind fun type =>
        rest start type).of_eq (by rw [Expr.annotated, annotated_of_isLeastInt least]; rfl) |>.mono ?_
      rintro facts _ ⟨_, _, _, factor, _, term, _, rfl, type, casts, signed, summed, known⟩
      exact ⟨.int, type, .inl ⟨least, factor, term, rfl⟩, casts, signed, summed, known⟩
    | false =>
      refine (finds_tally.bind fun start => (Term.check_finds head).bind fun type =>
        rest start type).mono ?_
      rintro facts _ ⟨_, _, first, typed, type, casts, signed, summed, known⟩
      exact ⟨first, type, .inr ⟨least, typed⟩, casts, signed, summed, known⟩

theorem checkSum_finds : ∀ (tail : List (AddOp × Term)) (start : Nat) (span : Span) (type : Tag),
    (checkSum table start span type tail).Finds (sumAnnotated tail) fun facts result =>
      SumTyped facts table.sight type tail result
  | [], _, _, type => finds_pure type
  | (op, term) :: rest, start, span, type => by
    rw [checkSum]
    refine ((Term.check_finds term).bind fun right =>
      (checkArith_finds start op.symbol type right _).bind fun next =>
      checkSum_finds rest start span next).mono ?_
    rintro facts _ ⟨right, typed, next, promoted, summed⟩
    exact ⟨right, next, typed, promoted, summed⟩

theorem Term.check_finds : ∀ term : Term,
    (term.check table).Finds term.annotated fun facts type => term.Typed facts table.sight type
  | ⟨id, head, tail, span⟩ => by
    rw [Term.check]
    refine (finds_tally.bind fun start => (Factor.check_finds head).bind fun type =>
      (checkProduct_finds tail start span type).bind fun type =>
      (finds_record id type).bind fun _ => finds_pure type).mono ?_
    rintro facts _ ⟨_, _, type, typed, _, multiplied, _, known, rfl⟩
    exact ⟨type, typed, multiplied, known⟩

theorem checkProduct_finds : ∀ (tail : List (MulOp × Factor)) (start : Nat) (span : Span)
    (type : Tag), (checkProduct table start span type tail).Finds (productAnnotated tail)
      fun facts result => ProductTyped facts table.sight type tail result
  | [], _, _, type => finds_pure type
  | (op, factor) :: rest, start, span, type => by
    rw [checkProduct]
    refine ((Factor.check_finds factor).bind fun right =>
      (checkArith_finds start op.symbol type right _).bind fun next =>
      checkProduct_finds rest start span next).mono ?_
    rintro facts _ ⟨right, typed, next, promoted, multiplied⟩
    exact ⟨right, next, typed, promoted, multiplied⟩

theorem Factor.check_finds : ∀ factor : Factor,
    (factor.check table).Finds factor.annotated fun facts type => factor.Typed facts table.sight type
  | ⟨id, kind, span⟩ => by
    rw [Factor.check]
    refine ((FactorKind.check_finds kind span).bind fun type =>
      (finds_record id type).bind fun _ => finds_pure type).mono ?_
    rintro facts _ ⟨type, typed, _, known, rfl⟩
    exact ⟨typed, known⟩

theorem FactorKind.check_finds : ∀ (kind : FactorKind) (span : Span),
    (kind.check table span).Finds kind.annotated fun facts type => kind.Typed facts table.sight type
  | .literal value, span => value.check_finds span
  | .designator target, _ => Designator.check_finds target
  | .call callee args, span => by
    rw [FactorKind.check]
    refine (Finds.bind (table.callee callee).use_finds fun _ =>
      (checkArguments_finds args (table.callee callee).expectation).bind fun arguments =>
      (Callee.check_finds table callee.base.name _ arguments (table.callee callee)).bind fun result =>
      checkValue_finds callee result span).of_eq (List.append_nil _) |>.mono ?_
    rintro facts _ ⟨_, known, arguments, ⟨typed, clear⟩, result, takes, rfl, value⟩
    rw [FactorKind.Typed, table.sight_callee]
    exact ⟨⟨_, typed, takes clear known⟩, value⟩
  | .newObject className, _ => checkNew_finds table className
  | .newArray elem sizes, _ => by
    rw [FactorKind.check]
    refine ((namedValueType_finds table elem).bind fun type => (checkSizes_finds sizes).bind fun _ =>
      finds_pure _).of_eq (List.append_nil _) |>.mono ?_
    rintro facts _ ⟨type, ⟨rfl, known, value⟩, _, sized, rfl⟩
    exact ⟨known, value, sized, rfl⟩
  | .paren inner, _ => Expr.check_finds inner
  | .list elems, span => by
    rw [FactorKind.check]
    refine (finds_tally.bind fun start => (checkExprs_finds elems).bind fun types =>
      listLiteral_finds start span types).of_eq (List.append_nil _) |>.mono ?_
    rintro facts _ ⟨_, _, types, typed, some, elem, same, rfl⟩
    refine ⟨?_, elem, typed.uniform same, rfl⟩
    rintro rfl
    exact some (by simpa using typed.length)

theorem checkExprs_finds : ∀ exprs : List Expr,
    (checkExprs table exprs).Finds (exprsAnnotated exprs) fun facts types =>
      ExprsTyped facts table.sight exprs (types.map Prod.fst)
  | [] => (finds_pure []).mono fun _ _ same => by rw [same]; rfl
  | e :: rest => by
    rw [checkExprs]
    refine ((Expr.check_finds e).bind fun type => (checkExprs_finds rest).bind fun others =>
      finds_pure ((type, e.span) :: others)).of_eq (by simp [exprsAnnotated]) |>.mono ?_
    rintro facts _ ⟨type, typed, others, more, rfl⟩
    exact ⟨type, _, rfl, typed, more⟩

theorem checkSizes_finds : ∀ sizes : List Expr,
    (checkSizes table sizes).Finds (exprsAnnotated sizes) fun facts _ =>
      ExprsTyped facts table.sight sizes (sizes.map fun _ => .int)
  | [] => (finds_pure ()).mono fun _ _ _ => rfl
  | size :: rest => by
    rw [checkSizes]
    refine (((Expr.check_finds size).demand _ _ _).bind fun _ => checkSizes_finds rest).mono ?_
    rintro facts _ ⟨type, ⟨typed, fits⟩, more⟩
    obtain rfl := eq_of_beq fits
    exact ⟨.int, _, rfl, typed, more⟩

theorem checkArguments_finds : ∀ (args : List Expr) (expectation : Expectation),
    (checkArguments table expectation args).Finds (exprsAnnotated args) fun facts arguments =>
      ArgsTyped facts table.sight expectation args (arguments.map (·.type)) ∧
        ∀ argument ∈ arguments, argument.excused = false
  | [], _ => (finds_pure []).mono fun _ _ same => by rw [same]; exact ⟨rfl, by simp⟩
  | arg :: rest, expectation => by
    have behind : ∀ start type, (do
        let silent ← excused start [type]
        return ⟨type, silent, arg.span⟩ :: (← checkArguments table (expectation.next type) rest) :
          Noting (List Argument)).Finds (exprsAnnotated rest) fun facts arguments => ∃ others,
          arguments = ⟨type, false, arg.span⟩ :: others ∧
          ArgsTyped facts table.sight (expectation.next type) rest (others.map (·.type)) ∧
          ∀ argument ∈ others, argument.excused = false := by
      intro start type
      refine ((finds_excused start [type]).bind fun silent =>
        (checkArguments_finds rest (expectation.next type)).bind fun others =>
        finds_pure ((⟨type, silent, arg.span⟩ : Argument) :: others)).of_eq (by simp) |>.mono ?_
      rintro facts _ ⟨_, rfl, others, ⟨typed, clear⟩, rfl⟩
      exact ⟨others, rfl, typed, clear⟩
    have first := Expr.given_finds expectation.head (Expr.check_finds arg)
    have assembled : ∀ (facts : Facts) (arguments : List Argument), (∃ _ : Nat, True ∧ ∃ type,
        arg.Given facts table.sight expectation.head type ∧ ∃ others,
        arguments = ⟨type, false, arg.span⟩ :: others ∧
        ArgsTyped facts table.sight (expectation.next type) rest (others.map (·.type)) ∧
        ∀ argument ∈ others, argument.excused = false) →
        ArgsTyped facts table.sight expectation (arg :: rest) (arguments.map (·.type)) ∧
          ∀ argument ∈ arguments, argument.excused = false := by
      rintro facts _ ⟨_, _, type, given, others, rfl, typed, clear⟩
      exact ⟨⟨type, _, rfl, given, typed⟩, by simpa using clear⟩
    rw [checkArguments]
    cases adopts : arg.adopts expectation.head with
    | true =>
      rw [adopts, if_pos rfl] at first
      exact (finds_tally.bind fun start => first.bind fun type => behind start type).mono assembled
    | false =>
      rw [adopts, if_neg (by simp)] at first
      exact (finds_tally.bind fun start => first.bind fun type => behind start type).mono assembled

theorem Designator.check_finds : ∀ target : Designator,
    (target.check table).Finds target.annotated fun facts type => target.Typed facts table.sight type
  | ⟨id, base, selectors, span⟩ => by
    rw [Designator.check]
    refine ((checkBase_finds table base).bind fun type =>
      (checkSelectors_finds selectors span type).bind fun type =>
      (finds_record id type).bind fun _ => finds_pure type).mono ?_
    rintro facts _ ⟨type, ⟨found, known⟩, _, selected, _, recorded, rfl⟩
    exact ⟨type, found, known, selected, recorded⟩

theorem checkSelectors_finds : ∀ (selectors : List Selector) (span : Span) (type : Tag),
    (checkSelectors table span type selectors).Finds (selectorsAnnotated selectors)
      fun facts result => SelectorsTyped facts table.sight type selectors result
  | [], _, type => finds_pure type
  | .field name :: rest, span, type => by
    rw [checkSelectors]
    refine ((checkField_finds table type name).bind fun member =>
      checkSelectors_finds rest span member).mono ?_
    rintro facts _ ⟨member, field, selected⟩
    exact ⟨member, field, selected⟩
  | .index value :: rest, span, type => by
    rw [checkSelectors]
    refine (((Expr.check_finds value).demand _ _ _).bind fun _ => (checkElement_finds type _).bind
      fun elem => checkSelectors_finds rest span elem).mono ?_
    rintro facts _ ⟨index, ⟨typed, fits⟩, elem, element, selected⟩
    obtain rfl := eq_of_beq fits
    exact ⟨elem, typed, element, selected⟩

end

theorem checkExpected_finds (e : Expr) (expected : Tag) :
    (checkExpected table e expected).Finds e.annotated fun facts type =>
      e.Given facts table.sight expected type :=
  Expr.given_finds expected (Expr.check_finds table e)

theorem Designator.checkCall_finds (callee : Designator) (args : List Expr) (span : Span) :
    (callee.checkCall table args span).Finds (exprsAnnotated args) fun facts type =>
      callee.CallTyped facts table.sight args type := by
  refine (Finds.bind (table.callee callee).use_finds fun _ =>
    (checkArguments_finds table args (table.callee callee).expectation).bind fun arguments =>
    Callee.check_finds table callee.base.name _ arguments (table.callee callee)).of_eq
      (List.append_nil _) |>.mono ?_
  rintro facts type ⟨_, known, arguments, ⟨typed, clear⟩, takes⟩
  rw [Designator.CallTyped, table.sight_callee]
  exact ⟨_, typed, takes clear known⟩

theorem Designator.checkWritten_finds (target : Designator) :
    (target.checkWritten table).Finds target.annotated fun facts type =>
      target.Writable facts table.sight type := by
  refine ((Designator.check_finds table target).bind fun type =>
    finds_unless_pure (finds_report _ _) type).of_eq (List.append_nil _) |>.mono ?_
  rintro facts _ ⟨type, typed, fine, rfl⟩
  refine ⟨typed, fun bare => ?_⟩
  rw [table.sight_isConstant]
  simpa [bare] using fine

theorem CondFact.check_finds (fact : CondFact) :
    (fact.check table).Finds fact.annotated fun facts type =>
      fact.kind.Typed facts table.sight type ∧ facts fact.id type := by
  unfold CondFact.check
  rw [CondFact.annotated]
  cases fact.kind with
  | expr value =>
    refine ((Expr.check_finds table value).bind fun type =>
      (finds_record fact.id type).bind fun _ => finds_pure type).mono ?_
    rintro facts _ ⟨type, typed, _, known, rfl⟩
    exact ⟨typed, known⟩
  | relation left op right =>
    refine (finds_tally.bind fun start => (Expr.check_finds table left).bind fun l =>
      (Expr.check_finds table right).bind fun r => (finds_excused start [l, r]).bind fun silent =>
      finds_unless (finds_mismatch _ _) ((finds_pure Tag.bool).bind fun type =>
        (finds_record fact.id type).bind fun _ => finds_pure type)).of_eq
        (by simp [FactKind.annotated]) |>.mono ?_
    rintro facts _ ⟨_, _, l, left, r, right, _, rfl, fine, _, rfl, _, known, rfl⟩
    exact ⟨⟨l, r, left, right, by simpa using fine, rfl⟩, known⟩

theorem checkFacts_finds (span : Span) (tests : List CondFact) :
    (checkFacts table span tests).Finds (tests.flatMap CondFact.annotated) fun facts _ =>
      ∀ fact ∈ tests, fact.Typed facts table.sight := by
  induction tests with
  | nil => exact (finds_pure ()).mono fun _ _ _ => by simp
  | cons fact rest ih =>
    rw [checkFacts]
    refine (((fact.check_finds table).demand _ _ _).bind fun _ => ih).mono ?_
    rintro facts _ ⟨type, ⟨typed, fits⟩, more⟩
    obtain rfl := eq_of_beq fits
    exact List.forall_mem_cons.mpr ⟨typed, more⟩

theorem checkCondTerms_finds (span : Span) (terms : List CondTerm) :
    (checkCondTerms table span terms).Finds (terms.flatMap CondTerm.annotated) fun facts _ =>
      ∀ term ∈ terms, term.Typed facts table.sight := by
  induction terms with
  | nil => exact (finds_pure ()).mono fun _ _ _ => by simp
  | cons term rest ih =>
    rw [checkCondTerms]
    refine ((checkFacts_finds table span term.facts).bind fun _ =>
      (finds_record term.id .bool).bind fun _ => ih).of_eq
        (by simp [CondTerm.annotated, List.flatMap_cons]) |>.mono ?_
    rintro facts _ ⟨_, typed, _, known, more⟩
    exact List.forall_mem_cons.mpr ⟨⟨typed, known⟩, more⟩

theorem Condition.check_finds (cond : Condition) :
    (cond.check table).Finds cond.annotated fun facts _ => cond.Typed facts table.sight := by
  refine ((checkCondTerms_finds table cond.span cond.terms).bind fun _ =>
    finds_record cond.id .bool).mono ?_
  rintro facts _ ⟨_, typed, known⟩
  exact ⟨typed, known⟩

end Sound

end StackCode
