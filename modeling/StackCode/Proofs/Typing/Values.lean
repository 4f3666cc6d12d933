import StackCode.Proofs.Typing.ProgramSound

namespace StackCode

namespace Tag

variable {a b c : Tag}

theorem isPrimitive_of_isNumeric (numeric : a.isNumeric = true) : a.isPrimitive = true := by
  simp only [isNumeric, Bool.or_eq_true, beq_iff_eq] at numeric
  rcases numeric with (rfl | rfl) | rfl <;> decide

theorem isNumeric_of_promote (promoted : promote a b = some c) :
    a.isNumeric = true ∧ b.isNumeric = true ∧ c.isNumeric = true := by
  unfold promote at promoted
  split at promoted
  · cases promoted
  · rename_i numeric
    simp only [Bool.or_eq_true, Bool.not_eq_true', not_or, Bool.not_eq_false] at numeric
    refine ⟨numeric.1, numeric.2, ?_⟩
    split at promoted
    · cases promoted
      decide
    · split at promoted <;> cases promoted <;> decide

end Tag

namespace Registry

variable {registry : Registry} {tag : Tag}

def Held (registry : Registry) (tag : Tag) : Prop := tag = .unknown ∨ registry.Valued tag

theorem held_of_isNumeric (numeric : tag.isNumeric = true) : registry.Held tag :=
  .inr (valued_of_isPrimitive (Tag.isPrimitive_of_isNumeric numeric))

theorem Held.listOf (held : registry.Held tag) : registry.Held tag.listOf := by
  rcases held with rfl | valued
  · exact .inl listOf_unknown
  · exact valued.listOf

theorem Held.element (held : registry.Held tag) (isList : tag.isList = true) :
    registry.Valued tag.element := by
  rcases held with rfl | valued
  · exact absurd isList (by decide)
  · exact valued.element isList

theorem Held.foldl_listOf {α : Type} (held : registry.Held tag) (sizes : List α) :
    registry.Held (sizes.foldl (fun type _ => type.listOf) tag) := by
  induction sizes generalizing tag with
  | nil => exact held
  | cons size rest ih => exact ih held.listOf

theorem held_literal (literal : Literal) : registry.Held literal.tag := by
  cases literal with
  | null => exact .inl rfl
  | _ => exact .inr (valued_of_isPrimitive rfl)

end Registry

theorem Sight.typeOf_cases {sight : Sight}
    (classType : ∀ name tag, sight.meaning? name = some ⟨tag, .classType⟩ →
      tag = .unknown ∨ sight.registry.name? tag = some name) (text : String) :
    sight.typeOf text = .unknown ∨ sight.typeOf text = .void ∨
      sight.registry.Valued (sight.typeOf text) :=
  Tag.ofBracketed_cases fun name tag found =>
    (classType name tag (Sight.classTag?_eq_some.mp found)).imp_right fun named =>
      Option.isSome_iff_exists.mpr ⟨_, named⟩

structure Sight.Sane (sight : Sight) : Prop where
  classType : ∀ name tag, sight.meaning? name = some ⟨tag, .classType⟩ →
    tag = .unknown ∨ sight.registry.name? tag = some name
  var : ∀ name tag constant, sight.meaning? name = some ⟨tag, .var constant⟩ →
    sight.registry.Held tag
  method : ∀ name tag result params, sight.meaning? name = some ⟨tag, .method result params⟩ →
    (result = .void ∨ sight.registry.Valued result) ∧
      ∀ param ∈ params, sight.registry.Valued param
  member : ∀ container name tag, sight.member? container name = some tag → sight.registry.Valued tag

namespace Sight.Sane

variable {sight : Sight} (sane : sight.Sane)

include sane

theorem valued_of_stores {type : TypeName} (stores : sight.Stores type) :
    sight.registry.Valued (sight.typeOf type.name) :=
  ((Sight.typeOf_cases sane.classType type.name).resolve_left stores.1).resolve_left stores.2

theorem declare {tag : Tag} (held : sight.registry.Held tag) (name : String) :
    (sight.declare name ⟨tag, .var false⟩).Sane where
  classType other type meant := by
    rw [Sight.meaning?_declare] at meant
    split at meant
    · cases meant
    · exact sane.classType other type meant
  var other type constant meant := by
    rw [Sight.meaning?_declare] at meant
    split at meant
    · cases meant
      exact held
    · exact sane.var other type constant meant
  method other type result params meant := by
    rw [Sight.meaning?_declare] at meant
    split at meant
    · cases meant
    · exact sane.method other type result params meant
  member := sane.member

end Sight.Sane

section Types

variable {facts : Facts} {sight : Sight}

theorem SumTyped.held {tail : List (AddOp × Term)} {type result : Tag}
    (typed : SumTyped facts sight type tail result) (held : sight.registry.Held type) :
    sight.registry.Held result := by
  induction tail generalizing type with
  | nil => exact typed.symm ▸ held
  | cons entry rest ih =>
    obtain ⟨op, term⟩ := entry
    obtain ⟨right, next, _, promoted, others⟩ := typed
    exact ih others (Registry.held_of_isNumeric (Tag.isNumeric_of_promote promoted).2.2)

theorem ProductTyped.held {tail : List (MulOp × Factor)} {type result : Tag}
    (typed : ProductTyped facts sight type tail result) (held : sight.registry.Held type) :
    sight.registry.Held result := by
  induction tail generalizing type with
  | nil => exact typed.symm ▸ held
  | cons entry rest ih =>
    obtain ⟨op, factor⟩ := entry
    obtain ⟨right, next, _, promoted, others⟩ := typed
    exact ih others (Registry.held_of_isNumeric (Tag.isNumeric_of_promote promoted).2.2)

theorem SelectorsTyped.valued (sane : sight.Sane) {selectors : List Selector} {type result : Tag}
    (typed : SelectorsTyped facts sight type selectors result)
    (valued : sight.registry.Valued type) : sight.registry.Valued result := by
  induction selectors generalizing type with
  | nil => exact typed.symm ▸ valued
  | cons selector rest ih =>
    cases selector with
    | field name =>
      obtain ⟨member, field, others⟩ := typed
      refine ih others ?_
      rcases field with ⟨unknown, _⟩ | ⟨_, found, _⟩
      · exact absurd unknown valued.ne_unknown
      · exact sane.member _ _ _ found
    | index value =>
      obtain ⟨elem, _, element, others⟩ := typed
      refine ih others ?_
      rcases element with ⟨unknown, _⟩ | ⟨isList, rfl⟩
      · exact absurd unknown valued.ne_unknown
      · exact valued.element isList

theorem Sight.Sane.varType (sane : sight.Sane) {name : String} {type : Tag}
    (found : sight.varType? name = some type) (known : type ≠ .unknown) :
    sight.registry.Valued type := by
  obtain ⟨constant, meant⟩ := Sight.varType?_eq_some.mp found
  exact (sane.var _ _ constant meant).resolve_left known

theorem Designator.Typed.valued (sane : sight.Sane) : ∀ {target : Designator} {type : Tag},
    target.Typed facts sight type → sight.registry.Valued type
  | ⟨_, _, _, _⟩, _, ⟨_, found, known, selected, _⟩ =>
    SelectorsTyped.valued sane selected (sane.varType found known)

theorem Sight.callee_eq_intrinsic {callee : Designator} {op : Intrinsic}
    (called : sight.callee callee = .intrinsic op) :
    callee.selectors = [] ∧ Intrinsic.ofName? callee.base.name = some op := by
  unfold Sight.callee at called
  split at called
  · cases called
  · rename_i bare
    split at called
    · rename_i found
      cases called
      exact ⟨by simpa using bare, found⟩
    · split at called <;> cases called

theorem Sight.callee_eq_method {callee : Designator} {result : Tag} {params : List Tag}
    (called : sight.callee callee = .method result params) :
    callee.selectors = [] ∧ Intrinsic.ofName? callee.base.name = none ∧
      ∃ type, sight.meaning? callee.base.name = some ⟨type, .method result params⟩ := by
  unfold Sight.callee at called
  split at called
  · cases called
  · rename_i bare
    split at called
    · cases called
    · rename_i other
      split at called
      · cases called
      · rename_i meant
        cases called
        exact ⟨by simpa using bare, other, _, meant⟩
      · cases called

theorem Sight.Sane.callee (sane : sight.Sane) {callee : Designator} {types : List Tag} {result : Tag}
    (takes : (sight.callee callee).Takes sight.registry types result) :
    result = .void ∨ sight.registry.Valued result := by
  cases called : sight.callee callee with
  | intrinsic op =>
    rw [called] at takes
    obtain ⟨_, rfl⟩ := takes
    cases op <;> first
      | exact .inl rfl
      | exact .inr (Registry.valued_of_isPrimitive rfl)
  | method declared params =>
    rw [called] at takes
    obtain ⟨_, _, rfl⟩ := takes
    obtain ⟨_, _, _, meant⟩ := Sight.callee_eq_method called
    exact (sane.method _ _ _ _ meant).1
  | undeclared | notCallable =>
    rw [called] at takes
    exact takes.elim

mutual

theorem Expr.Typed.held (sane : sight.Sane) : ∀ {e : Expr} {type : Tag}, e.Typed facts sight type →
    sight.registry.Held type
  | ⟨_, _, cast, head, _, _⟩, _, ⟨first, type, start, casts, _, sum, _⟩ => by
    refine sum.held ?_
    cases cast with
    | some target => exact Registry.held_of_isNumeric casts.2.1
    | none =>
      rw [show type = first from casts]
      rcases start with ⟨_, _, _, rfl⟩ | ⟨_, typed⟩
      · exact .inr (Registry.valued_of_isPrimitive rfl)
      · exact Term.Typed.held sane typed

theorem Term.Typed.held (sane : sight.Sane) : ∀ {term : Term} {type : Tag}, term.Typed facts sight type →
    sight.registry.Held type
  | ⟨_, _, _, _⟩, _, ⟨_, head, product, _⟩ => product.held (Factor.Typed.held sane head)

theorem Factor.Typed.held (sane : sight.Sane) : ∀ {factor : Factor} {type : Tag},
    factor.Typed facts sight type → sight.registry.Held type
  | ⟨_, _, _⟩, _, ⟨kind, _⟩ => FactorKind.Typed.held sane kind

theorem FactorKind.Typed.held (sane : sight.Sane) : ∀ {kind : FactorKind} {type : Tag},
    kind.Typed facts sight type → sight.registry.Held type
  | .literal value, _, ⟨_, same⟩ => same ▸ Registry.held_literal value
  | .designator _, _, typed => .inr (Designator.Typed.valued sane typed)
  | .call _ _, _, ⟨⟨_, _, takes⟩, value⟩ => .inr ((sane.callee takes).resolve_left value)
  | .newObject _, _, ⟨_, isClass⟩ => .inr (Registry.valued_of_isClass isClass)
  | .newArray elem sizes, _, ⟨known, value, _, same⟩ => by
    rw [same]
    exact Registry.Held.foldl_listOf (.inr (sane.valued_of_stores ⟨known, value⟩)) sizes
  | .paren _, _, typed => Expr.Typed.held sane typed
  | .list elems, _, ⟨nonempty, elem, typed, same⟩ => by
    rw [same]
    refine Registry.Held.listOf ?_
    cases elems with
    | nil => exact absurd rfl nonempty
    | cons e rest =>
      obtain ⟨_, _, same, first, _⟩ := typed
      obtain ⟨rfl, _⟩ := List.cons.inj same
      exact Expr.Typed.held sane first

end

/-- An expression with the type that it has in the end: its own, or for a bare `[]` the one that it
was given. -/
def Expr.Settled (facts : Facts) (sight : Sight) (e : Expr) (type : Tag) : Prop :=
  (e.isBareList = true ∧ e.Adopted facts type ∧ type.isList = true ∧ sight.registry.Valued type) ∨
    e.Typed facts sight type

theorem Expr.Settled.held (sane : sight.Sane) {e : Expr} {type : Tag}
    (settled : e.Settled facts sight type) : sight.registry.Held type := by
  rcases settled with ⟨_, _, _, valued⟩ | typed
  · exact .inr valued
  · exact typed.held sane

theorem Expr.Given.settled {e : Expr} {expected type : Tag}
    (given : e.Given facts sight expected type) (valued : sight.registry.Valued expected) :
    e.Settled facts sight type := by
  rcases given with ⟨adopts, adopted, rfl⟩ | ⟨_, typed⟩
  · simp only [Expr.adopts, valued.isUnknown, Bool.or_false, Bool.and_eq_true] at adopts
    exact .inl ⟨adopts.2, adopted, adopts.1, valued⟩
  · exact .inr typed

theorem Expr.Given.settled_of_ne_unknown {e : Expr} {type : Tag}
    (given : e.Given facts sight .unknown type) (known : type ≠ .unknown) :
    e.Settled facts sight type := by
  rcases given with ⟨_, _, rfl⟩ | ⟨_, typed⟩
  · exact absurd rfl known
  · exact .inr typed

theorem ArgsTyped.settled_of_each {params types : List Tag} {args : List Expr}
    (typed : ArgsTyped facts sight (.each params) args types)
    (valued : ∀ param ∈ params, sight.registry.Valued param) (count : params.length = types.length) :
    List.Forall₂ (Expr.Settled facts sight) args types := by
  induction args generalizing params types with
  | nil =>
    cases typed
    exact .nil
  | cons arg rest ih =>
    obtain ⟨type, others, rfl, first, more⟩ := typed
    cases params with
    | nil => simp at count
    | cons param params =>
      have given : arg.Given facts sight param type := first
      exact .cons (given.settled (valued param (by simp)))
        (ih more (fun p member => valued p (List.mem_cons_of_mem _ member)) (by simpa using count))

theorem ArgsTyped.settled_of_none {types : List Tag} {args : List Expr}
    (typed : ArgsTyped facts sight (.each []) args types) (known : ∀ type ∈ types, type ≠ .unknown) :
    List.Forall₂ (Expr.Settled facts sight) args types := by
  induction args generalizing types with
  | nil =>
    cases typed
    exact .nil
  | cons arg rest ih =>
    obtain ⟨type, others, rfl, first, more⟩ := typed
    have given : arg.Given facts sight .unknown type := first
    exact .cons (given.settled_of_ne_unknown (known type (by simp)))
      (ih more fun t member => known t (List.mem_cons_of_mem _ member))

theorem ne_unknown_of_isList {tag : Tag} (isList : tag.isList = true) : tag ≠ .unknown := by
  rintro rfl
  exact absurd isList (by decide)

theorem Intrinsic.Takes.settled (sane : sight.Sane) {op : Intrinsic} {types : List Tag}
    {args : List Expr} (takes : op.Takes sight.registry types)
    (typed : ArgsTyped facts sight (Callee.intrinsic op).expectation args types) :
    List.Forall₂ (Expr.Settled facts sight) args types := by
  match op, types, takes with
  | .len, [list], isList =>
    exact ArgsTyped.settled_of_none typed (by simpa using ne_unknown_of_isList isList)
  | .del, [list, index], ⟨isList, same⟩ =>
    refine ArgsTyped.settled_of_none typed ?_
    subst same
    simpa using ⟨ne_unknown_of_isList isList, by decide⟩
  | .ord, [value], same =>
    cases same
    exact ArgsTyped.settled_of_none typed (by decide)
  | .chr, [value], same =>
    cases same
    exact ArgsTyped.settled_of_none typed (by decide)
  | .add, [list, value], ⟨isList, accepted⟩ =>
    match args, typed with
    | list' :: value' :: rest, ⟨_, _, same, first, _, _, same', second, more⟩ =>
      obtain ⟨rfl, rfl⟩ := List.cons.inj same
      obtain ⟨rfl, rfl⟩ := List.cons.inj same'
      have listGiven : list'.Given facts sight .unknown list := first
      have valueGiven : value'.Given facts sight list.element value := second
      have settled := listGiven.settled_of_ne_unknown (ne_unknown_of_isList isList)
      have element := (settled.held sane).element isList
      cases rest with
      | nil => exact .cons settled (.cons (valueGiven.settled element) .nil)
      | cons e rest =>
        obtain ⟨_, _, impossible, _⟩ := more
        cases impossible
    | [_], ⟨_, _, same, _, more⟩ =>
      obtain ⟨rfl, rfl⟩ := List.cons.inj same
      cases more
    | [], more => cases more

theorem Callee.Takes.settled (sane : sight.Sane) {callee : Designator} {types : List Tag}
    {args : List Expr} {result : Tag}
    (takes : (sight.callee callee).Takes sight.registry types result)
    (typed : ArgsTyped facts sight (sight.callee callee).expectation args types) :
    List.Forall₂ (Expr.Settled facts sight) args types := by
  cases called : sight.callee callee with
  | intrinsic op =>
    rw [called] at takes typed
    exact takes.1.settled sane typed
  | method declared params =>
    rw [called] at takes typed
    obtain ⟨_, _, _, meant⟩ := Sight.callee_eq_method called
    exact ArgsTyped.settled_of_each typed (sane.method _ _ _ _ meant).2 takes.1.length_eq
  | undeclared | notCallable =>
    rw [called] at takes
    exact takes.elim

end Types

end StackCode
