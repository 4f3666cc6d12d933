import StackCode.Proofs.Generation.Succeeds

namespace StackCode

open Code Emit

/-- Generation can cope with a node in sight of the local `names`. -/
def Env.Supports (env : Env) (names : List String) : Node → Prop
  | .designator target => target.selectors = [] ∨ target.base.name ∈ names ∨
    env.constants.lookup target.base.name = none
  | .factor ⟨id, .list _, _⟩ => env.annotations.type? id ≠ some .unknown
  | .factor ⟨_, .newArray elem sizes, _⟩ => sizes ≠ [] ∧ (sizes.length = 1 ∨
    sizes.tail.foldl (fun tag _ => tag.listOf) (env.table.typeOf elem.name) ≠ .unknown)
  | _ => True

variable {env : Env} {sight : Sight} {names : List String} {frame : Frame}

theorem literalInstr_of_fits {literal : Literal} (fits : literal.Fits) :
    ∃ instr, literalInstr literal = .ok instr := by
  cases literal with
  | int n => exact ⟨_, if_pos fits⟩
  | _ => exact ⟨_, rfl⟩

theorem conversion_of_isNumeric (source : Tag) {target : Tag} (numeric : target.isNumeric = true) :
    ∃ code, conversion source target = .ok code := by
  simp only [Tag.isNumeric, Bool.or_eq_true, beq_iff_eq] at numeric
  unfold conversion
  split_ifs <;> first
    | exact ⟨_, rfl⟩
    | simp_all

theorem joins_of_promote {left right result : Tag} (promoted : Tag.promote left right = some result) :
    ∃ l r, Joins left right result l r := by
  have numeric := (Tag.isNumeric_of_promote promoted).2.2
  obtain ⟨l, converts⟩ := conversion_of_isNumeric left numeric
  obtain ⟨r, converts'⟩ := conversion_of_isNumeric right numeric
  exact ⟨l, r, by rw [commonType, promoted], converts, converts'⟩

theorem Registry.name?_of_lt {registry : Registry} {tag : Tag} (low : tag.code < Tag.firstClass) :
    registry.name? tag = none := by
  refine Option.eq_none_iff_forall_ne_some.mpr fun name named => ?_
  exact absurd (name?_eq_some_iff.mp named).1 (not_le.mpr low)

theorem Env.type_unknown (type : Ty) : env.type .unknown ≠ .ok type := by
  intro typed
  rw [Env.type, if_neg (by decide), Env.baseType, if_neg (by decide), if_neg (by decide),
    if_neg (by decide), if_neg (by decide), if_neg (by decide), if_neg (by decide),
    if_neg (by decide), Registry.name?_of_lt (by decide)] at typed
  cases typed

variable {type : Tag} {e : Expr}

theorem Expr.Settled.noted (settled : e.Settled env.facts sight type) : env.facts e.id type := by
  rcases settled with ⟨_, ⟨_, _, noted⟩, _⟩ | typed
  · exact noted
  · obtain ⟨_, _, _, _, _, _⟩ := e
    obtain ⟨_, _, _, _, _, _, noted⟩ := typed
    exact noted

theorem Term.Typed.noted {term : Term} (typed : term.Typed env.facts sight type) :
    env.facts term.id type := by
  obtain ⟨_, _, _, _⟩ := term
  obtain ⟨_, _, _, noted⟩ := typed
  exact noted

theorem Factor.Typed.noted {factor : Factor} (typed : factor.Typed env.facts sight type) :
    env.facts factor.id type := by
  obtain ⟨_, _, _⟩ := factor
  exact typed.2

variable {name : String}

namespace Env.Sees

variable (sees : env.Sees frame sight)

include sees

theorem type_int : ∃ type, env.type .int = .ok type := by
  have valued : sight.registry.Valued .int := Registry.valued_of_isPrimitive rfl
  obtain ⟨type, typed, _⟩ := sees.type_of_valued valued
  exact ⟨type, typed⟩

theorem fieldOf {container member : Tag} (found : sight.member? container name = some member) :
    ∃ className, env.classNamed container = .ok className ∧ env.memberType container name = .ok member := by
  rw [← sees.member?] at found
  obtain ⟨symbol, looked, rfl⟩ := Option.map_eq_some_iff.mp found
  obtain ⟨className, named, _⟩ := Option.bind_eq_some_iff.mp looked
  exact ⟨className, by rw [Env.classNamed, named], by rw [Env.memberType, looked]⟩

theorem castCode {first type : Tag} {cast : Option TypeName} (casts : sight.Casts first cast type) :
    ∃ convert, env.castCode first cast = .ok (convert, type) := by
  cases cast with
  | none => exact ⟨[], by rw [Env.castCode, show type = first from casts]⟩
  | some target =>
    obtain ⟨same, numeric, _⟩ := casts
    obtain ⟨convert, converts⟩ := conversion_of_isNumeric first numeric
    have known : sight.typeOf target.name ≠ .unknown := by
      rw [same]
      rintro rfl
      exact absurd numeric (by decide)
    refine ⟨convert, ?_⟩
    rw [Env.castCode, sees.writtenType known, same]
    simp [converts, bind, Except.bind, pure, Except.pure]

theorem target {callee : Designator} {types : List Tag} {result : Tag}
    (takes : (sight.callee callee).Takes sight.registry types result) :
    callee.selectors = [] ∧ ∃ target, env.target callee.base.name types.length = .ok target ∧
      target.result = result ∧ ∀ op, target = .intrinsic op → op.Takes sight.registry types := by
  cases called : sight.callee callee with
  | intrinsic op =>
    rw [called] at takes
    obtain ⟨bare, found⟩ := Sight.callee_eq_intrinsic called
    obtain ⟨takes, rfl⟩ := takes
    have count : types.length = op.arity := by
      match op, types, takes with
      | .len, [_], _ | .ord, [_], _ | .chr, [_], _ | .add, [_, _], _ | .del, [_, _], _ => rfl
    refine ⟨bare, .intrinsic op, ?_, rfl, ?_⟩
    · rw [Env.target, found]
      exact if_pos count
    · rintro _ ⟨⟩
      exact takes
  | method declared params =>
    rw [called] at takes
    obtain ⟨bare, other, type, meant⟩ := Sight.callee_eq_method called
    obtain ⟨_, _, rfl⟩ := takes
    obtain ⟨symbol, looked, meaning⟩ :=
      Option.map_eq_some_iff.mp (sees.global _ _ meant (by simp))
    have kind : symbol.kind = .method result params := congrArg Meaning.kind meaning
    refine ⟨bare, .method callee.base.name result, ?_, rfl, by simp⟩
    rw [Env.target, other]
    simp only [looked, kind]
  | undeclared | notCallable =>
    rw [called] at takes
    exact takes.elim

end Env.Sees

variable {types : List Tag}

theorem Target.emit_succeeds (sees : env.Sees frame sight) {target : Target} {args : List Expr}
    (settled : List.Forall₂ (Expr.Settled env.facts sight) args types)
    (takes : ∀ op, target = .intrinsic op → op.Takes sight.registry types) :
    (target.emit env args).Succeeds frame := by
  cases target with
  | method name result => exact succeeds_pure _
  | intrinsic op =>
    have onList {op : Intrinsic} {method : ListMethod} {list : Tag} {others : List Tag}
        (member : op.listMethod = some method)
        (settled : List.Forall₂ (Expr.Settled env.facts sight) args (list :: others))
        (isList : list.isList = true) : ((Target.intrinsic op).emit env args).Succeeds frame := by
      obtain ⟨e, rest, first, _, rfl⟩ := List.forall₂_cons_right_iff.mp settled
      obtain ⟨elem, typed, _⟩ := sees.type_of_valued ((first.held sees.sane).element isList)
      exact ⟨_, frame, Target.emit_yields.mpr (Intrinsic.emit_yields.mpr ⟨rfl, .inl ⟨method, e.id,
        list, elem, member, rfl, Env.nodeType_of_facts first.noted, typed, rfl⟩⟩)⟩
    match op, types, takes op rfl, settled with
    | .ord, [_], _, _ | .chr, [_], _, _ => exact succeeds_pure _
    | .len, [_], isList, settled => exact onList rfl settled isList
    | .add, [_, _], takes, settled | .del, [_, _], takes, settled =>
      exact onList rfl settled takes.1

theorem Env.home_cases {home : Home} (found : env.home frame name = .ok home) :
    match home with
    | .slot i tag => frame.scopes.findSome? (·.lookup name) = some (i, tag)
    | .static field tag => frame.scopes.findSome? (·.lookup name) = none ∧
        env.constants.lookup name = none ∧ field = name ∧
        ∃ constant, env.table.sight.meaning? name = some ⟨tag, .var constant⟩
    | .constant value => frame.scopes.findSome? (·.lookup name) = none ∧
        env.constants.lookup name = some value := by
  unfold Env.home at found
  cases placed : frame.scopes.findSome? (·.lookup name) with
  | some place =>
    rw [placed] at found
    cases found
    rfl
  | none =>
    rw [placed] at found
    cases listed : env.constants.lookup name with
    | some value =>
      rw [listed] at found
      cases found
      exact ⟨rfl, rfl⟩
    | none =>
      rw [listed] at found
      cases looked : env.table.lookup? name with
      | none =>
        rw [looked] at found
        cases found
      | some symbol =>
        simp only [looked] at found
        split at found
        · rename_i isVar
          cases found
          refine ⟨rfl, rfl, rfl, ?_⟩
          rw [SymbolTable.sight_meaning?, looked]
          obtain ⟨_, _, _, _, _, _, kind⟩ := symbol
          cases kind <;> first
            | exact ⟨_, rfl⟩
            | cases isVar
        · cases found

theorem Env.Ready.base (ready : env.Ready frame sight names) (found : sight.varType? name = some type)
    (known : type ≠ .unknown) :
    (∃ code, (emitBase env name).Yields frame (code, type) frame ∧
      (name ∈ names ∨ env.constants.lookup name = none)) ∨
    ∃ code value, (emitBase env name).Yields frame (code, value.tag) frame ∧ name ∉ names ∧
      env.constants.lookup name = some value := by
  obtain ⟨constant, meant⟩ := Sight.varType?_eq_some.mp found
  obtain ⟨home, looked, holds⟩ := ready.home name type constant meant known
  have place := Env.home_cases looked
  cases home with
  | slot i tag =>
    obtain ⟨rfl, _⟩ := holds
    refine .inl ⟨_, emitBase_yields.mpr ⟨_, looked, rfl, rfl⟩, .inl ?_⟩
    exact (ready.knows name).mp (Option.isSome_iff_exists.mpr ⟨_, place⟩)
  | static field tag =>
    obtain ⟨rfl, _⟩ := holds
    exact .inl ⟨_, emitBase_yields.mpr ⟨_, looked, rfl, rfl⟩, .inr place.2.1⟩
  | constant value =>
    obtain ⟨_, fits, _⟩ := holds
    obtain ⟨instr, written⟩ := literalInstr_of_fits fits
    refine .inr ⟨[instr], value, emitBase_yields.mpr ⟨_, looked, ?_, rfl⟩, fun local' => ?_, place.2⟩
    · simp [Home.load, written, bind, Except.bind, pure, Except.pure]
    · have present := (ready.knows name).mpr local'
      rw [place.1] at present
      cases present

theorem Literal.tag_lt (literal : Literal) : literal.tag.code < Tag.firstClass := by
  cases literal <;> simp [Literal.tag, Tag.int, Tag.float, Tag.double, Tag.char, Tag.string,
    Tag.bool, Tag.unknown, Tag.firstClass]

theorem Literal.element_tag (literal : Literal) : literal.tag.element = .unknown := by
  have low := literal.tag_lt
  rw [Tag.firstClass] at low
  rw [Tag.element, if_neg]
  rw [Registry.isList_iff]
  omega

theorem literal_classNamed (literal : Literal) (className : String) :
    env.classNamed literal.tag ≠ .ok className := by
  rw [Env.classNamed, Registry.name?_of_lt literal.tag_lt]
  simp

theorem literal_element (literal : Literal) (type : Ty) : env.type literal.tag.element ≠ .ok type := by
  rw [literal.element_tag]
  exact Env.type_unknown type

theorem emitSelectors_literal_fails (literal : Literal) {selector : Selector} {rest : List Selector} :
    ¬ (emitSelectors env literal.tag (selector :: rest)).Succeeds frame := by
  rintro ⟨⟨code, last⟩, after, emitted⟩
  cases selector with
  | field name =>
    obtain ⟨className, _, _, named, _⟩ := emitSelectors_field_yields.mp emitted
    exact literal_classNamed literal className named
  | index value =>
    obtain ⟨_, _, elem, _, _, typed, _⟩ := emitSelectors_index_yields.mp emitted
    exact literal_element literal elem typed

theorem Tag.foldl_listOf_cons {α : Type} (size : α) (sizes : List α) (base : Tag) :
    (size :: sizes).foldl (fun tag _ => tag.listOf) base =
      (sizes.foldl (fun tag _ => tag.listOf) base).listOf := by
  induction sizes generalizing base with
  | nil => rfl
  | cons second rest ih => exact ih base.listOf

theorem Tag.foldl_listOf_congr {α β : Type} {xs : List α} {ys : List β} (base : Tag)
    (length : xs.length = ys.length) : xs.foldl (fun tag _ => tag.listOf) base =
      ys.foldl (fun tag _ => tag.listOf) base := by
  induction xs generalizing base ys with
  | nil =>
    cases ys with
    | nil => rfl
    | cons y ys => cases length
  | cons x xs ih =>
    cases ys with
    | nil => cases length
    | cons y ys => exact ih base.listOf (by simpa using length)

theorem foldl_listOf_known {α : Type} {size : α} {sizes : List α} {base : Tag}
    (known : (size :: sizes).foldl (fun tag _ => tag.listOf) base ≠ .unknown) :
    sizes.foldl (fun tag _ => tag.listOf) base ≠ .unknown := by
  intro unknown
  rw [Tag.foldl_listOf_cons, unknown] at known
  exact known rfl

theorem emitGrid_succeeds (ready : env.Ready frame sight names) {base : Tag} {count : Nat}
    {inner : List Nat} (valued : sight.registry.Valued base)
    (room : frame.locals.length + inner.length ≤ slotLimit) :
    (emitGrid env base (count :: inner)).Succeeds frame ↔
      inner = [] ∨ inner.foldl (fun tag _ => tag.listOf) base ≠ .unknown := by
  induction inner generalizing frame count with
  | nil =>
    obtain ⟨type, typed, _⟩ := ready.type_of_valued valued
    simpa using ⟨_, _, emitGrid_one_yields.mpr ⟨type, typed, rfl, rfl⟩⟩
  | cons second inner ih =>
    simp only [List.length_cons] at room
    obtain ⟨int, typedInt⟩ := ready.type_int
    have more : ((frame.withTemp int).withLabels 2).locals.length + inner.length ≤ slotLimit := by
      simp only [Frame.withLabels, Frame.withTemp, List.length_append, List.length_singleton]
      omega
    have rows : (emitGrid env base (second :: inner)).Succeeds _ ↔ _ :=
      ih ((ready.withTemp int).withLabels 2) more
    constructor
    · rintro ⟨code, after, emitted⟩
      obtain ⟨elem, _, _, typed, _⟩ := emitGrid_cons_yields.mp emitted
      refine .inr fun unknown => ?_
      rw [unknown] at typed
      exact Env.type_unknown elem typed
    · rintro (impossible | known)
      · cases impossible
      · have held := Registry.Held.foldl_listOf (.inr valued) (second :: inner)
        obtain ⟨elem, typed, _⟩ := ready.type_of_valued (held.resolve_left known)
        obtain ⟨row, after, emitted⟩ := rows.mpr (.inr (foldl_listOf_known known))
        exact ⟨_, after, emitGrid_cons_yields.mpr ⟨elem, int, row, typed, typedInt, by omega, emitted,
          rfl⟩⟩

/-- Generation of what is typed succeeds if and only if each of its nodes is supported. -/
def Env.SupportsAll (env : Env) (names : List String) (nodes : List Node) : Prop :=
  ∀ node ∈ nodes, env.Supports names node

theorem Env.supportsAll_append {xs ys : List Node} : env.SupportsAll names (xs ++ ys) ↔
    env.SupportsAll names xs ∧ env.SupportsAll names ys :=
  List.forall_mem_append

variable {nodes : List Node}

theorem Env.supportsAll_cons {node : Node} :
    env.SupportsAll names (node :: nodes) ↔ env.Supports names node ∧ env.SupportsAll names nodes :=
  List.forall_mem_cons

theorem Env.supportsAll_expr : env.SupportsAll names (.expr e :: nodes) ↔ env.SupportsAll names nodes := by
  simp [Env.supportsAll_cons, Env.Supports]

theorem Env.supportsAll_term {term : Term} :
    env.SupportsAll names (.term term :: nodes) ↔ env.SupportsAll names nodes := by
  simp [Env.supportsAll_cons, Env.Supports]

theorem Env.supportsAll_nil : env.SupportsAll names [] := by simp [Env.SupportsAll]

/-- In a frame ready for them with room for so many slots, code is generated for the nodes if and only
if all of them are supported. -/
def Env.Needs {α : Type} (env : Env) (sight : Sight) (names : List String) (action : Emit α)
    (slots : Nat) (nodes : List Node) : Prop :=
  ∀ ⦃frame⦄, env.Ready frame sight names → frame.locals.length + slots ≤ slotLimit →
    (action.Succeeds frame ↔ env.SupportsAll names nodes)

namespace Env.Needs

variable {α β : Type} {x : Emit Piece} {slots more : Nat} {others : List Node}

theorem pure {a : α} : env.Needs sight names (pure a) slots [] :=
  fun _ _ _ => iff_of_true (succeeds_pure _) Env.supportsAll_nil

theorem lift {looked : Except Unsupported α} {a : α} {f : α → Emit β} (found : looked = .ok a)
    (rest : env.Needs sight names (f a) slots nodes) :
    env.Needs sight names (liftM looked >>= f) slots nodes :=
  fun _ ready room => (succeeds_lift found).trans (rest ready room)

theorem map {action : Emit α} {g : α → β} (needs : env.Needs sight names action slots nodes) :
    env.Needs sight names (action >>= fun a => Pure.pure (g a)) slots nodes :=
  fun _ ready room => succeeds_bind_pure.trans (needs ready room)

theorem bind {told : Telling} {f : Piece → Emit β} (first : env.Needs sight names x slots nodes)
    (emits : ∀ {before after : Frame} {code : Piece}, x.Yields before code after →
      before.Emits [] [] code after slots true told)
    (second : ∀ code, env.Needs sight names (f code) more others) :
    env.Needs sight names (x >>= f) (slots + more) (nodes ++ others) := by
  intro frame ready room
  rw [Env.supportsAll_append]
  refine succeeds_bind_iff (first ready (by omega)) fun code mid emitted => ?_
  have grown := emits emitted
  exact second code (ready.emits grown) (by rw [grown.count]; omega)

end Env.Needs

theorem Expr.emit_bare_yields {before after : Frame} {code : Piece} (bare : e.isBareList = true)
    (adopted : e.Adopted env.facts type) :
    (e.emit env).Yields before code after ↔
      ∃ elem, env.type type.element = .ok elem ∧ code = [.newlist elem false] ∧ after = before := by
  obtain ⟨id, tid, fid, _, _, _, rfl⟩ := Expr.eq_of_isBareList bare
  have factorNoted : env.nodeType fid = .ok type := Env.nodeType_of_facts adopted.1
  have termNoted : env.nodeType tid = .ok type := Env.nodeType_of_facts adopted.2.1
  constructor
  · intro emitted
    obtain ⟨_, _, ⟨impossible, _⟩ | ⟨_, _, _, _, _, _, head, casts, sum, rfl⟩⟩ :=
      Expr.emit_yields.mp emitted
    · cases impossible
    obtain ⟨_, _, _, _, factor, _, product, rfl⟩ := Term.emit_yields.mp head
    obtain ⟨tag, elem, rest, noted, typed, elems, rfl⟩ :=
      FactorKind.emit_list_yields.mp (Factor.emit_yields.mp factor)
    obtain ⟨rfl, rfl⟩ := emitElems_nil_yields.mp elems
    obtain ⟨rfl, rfl⟩ := emitProduct_nil_yields.mp product
    obtain ⟨rfl, rfl⟩ := emitSum_nil_yields.mp sum
    cases casts
    rw [factorNoted] at noted
    cases noted
    exact ⟨elem, typed, rfl, rfl⟩
  · rintro ⟨elem, typed, rfl, rfl⟩
    refine Expr.emit_yields.mpr ⟨type, termNoted, .inr ⟨rfl, [.newlist elem false], after, [], type, [],
      ?_, rfl, emitSum_nil_yields.mpr ⟨rfl, rfl⟩, rfl⟩⟩
    refine Term.emit_yields.mpr ⟨[.newlist elem false], after, type, [], ?_, factorNoted,
      emitProduct_nil_yields.mpr ⟨rfl, rfl⟩, rfl⟩
    exact Factor.emit_yields.mpr (FactorKind.emit_list_yields.mpr ⟨type, elem, [], factorNoted, typed,
      emitElems_nil_yields.mpr ⟨rfl, rfl⟩, rfl⟩)

theorem Expr.supports_bare (bare : e.isBareList = true) (adopted : e.Adopted env.facts type)
    (known : type ≠ .unknown) : env.SupportsAll names e.nodes := by
  obtain ⟨id, tid, fid, _, _, _, rfl⟩ := Expr.eq_of_isBareList bare
  have noted : env.annotations.type? fid = some type := adopted.1
  simp only [Expr.nodes, Term.nodes, Factor.nodes, FactorKind.nodes, exprsNodes, sumNodes,
    productNodes, List.append_nil, Env.supportsAll_cons, Env.Supports, noted, true_and]
  exact ⟨by simpa using known, Env.supportsAll_nil⟩

theorem settled_of_mem {args : List Expr} (settled : List.Forall₂ (Expr.Settled env.facts sight) args types)
    (member : e ∈ args) : ∃ type, e.Settled env.facts sight type := by
  induction settled with
  | nil => cases member
  | cons first _ ih =>
    rcases List.mem_cons.mp member with rfl | member
    · exact ⟨_, first⟩
    · exact ih member

theorem settled_of_typed {exprs : List Expr} (typed : ExprsTyped env.facts sight exprs types) :
    ∀ e ∈ exprs, ∃ type, e.Settled env.facts sight type := by
  induction exprs generalizing types with
  | nil => simp
  | cons e rest ih =>
    obtain ⟨type, others, _, first, more⟩ := typed
    exact List.forall_mem_cons.mpr ⟨⟨type, .inr first⟩, ih more⟩

theorem Designator.supports_bare {target : Designator} (bare : target.selectors = []) :
    env.SupportsAll names target.nodes := by
  obtain ⟨id, base, selectors, span⟩ := target
  cases bare
  rw [Designator.nodes, Env.supportsAll_cons]
  exact ⟨.inl rfl, Env.supportsAll_nil⟩

theorem Designator.call_succeeds {callee : Designator} {args : List Expr} {type : Tag} {α : Type}
    {g : Target → Piece → Piece → α} (typed : callee.CallTyped env.facts sight args type)
    (given : (∀ e ∈ args, ∃ type, e.Settled env.facts sight type) →
      env.Needs sight names (emitExprs env args) (exprsSlots args) (exprsNodes args)) :
    env.Needs sight names (do
      let target ← liftM (env.target callee.base.name args.length)
      let values ← emitExprs env args
      let call ← target.emit env args
      return g target values call) (exprsSlots args) (callee.nodes ++ exprsNodes args) := by
  intro frame ready room
  obtain ⟨types, typed, takes⟩ := typed
  have settled := takes.settled ready.sane typed
  obtain ⟨bare, target, found, _, onTypes⟩ := ready.target takes
  rw [← settled.length_eq] at found
  rw [Env.supportsAll_append, and_iff_right (Designator.supports_bare bare), succeeds_lift found,
    ← given (fun e member => settled_of_mem settled member) ready room]
  refine succeeds_bind_always fun values mid emitted => ?_
  have grown : frame.Emits [] [] values mid (exprsSlots args) true _ := emitExprs_emits args emitted
  rw [succeeds_bind_pure]
  exact Target.emit_succeeds (ready.emits grown).toSees settled onTypes

theorem supports_isLeastInt {neg : Bool} {cast : Option TypeName} {head : Term}
    (least : isLeastInt neg cast head = true) :
    cast = none ∧ env.SupportsAll names head.nodes := by
  obtain ⟨uncast, _, _, _, _, rfl⟩ := eq_of_isLeastInt least
  exact ⟨uncast, by
    simp [Term.nodes, Factor.nodes, FactorKind.nodes, productNodes, Env.SupportsAll, Env.Supports]⟩

mutual

theorem Expr.emit_succeeds : ∀ (e : Expr) {type : Tag}, e.Settled env.facts sight type →
    env.Needs sight names (e.emit env) e.slots e.nodes
  | ⟨id, neg, cast, head, tail, span⟩, type, .inl ⟨bare, adopted, isList, valued⟩ => by
    intro frame ready room
    obtain ⟨elem, typed, _⟩ := ready.type_of_valued (valued.element isList)
    exact iff_of_true ⟨_, _, (Expr.emit_bare_yields bare adopted).mpr ⟨elem, typed, rfl, rfl⟩⟩
      (Expr.supports_bare bare adopted valued.ne_unknown)
  | ⟨id, neg, cast, head, tail, span⟩, type,
      .inr ⟨first, start, .inl ⟨least, _, noted, same⟩, casts, _, sum, _⟩ => by
    intro frame ready room
    have supported : cast = none ∧ env.SupportsAll names head.nodes := supports_isLeastInt least
    obtain ⟨rfl, supported⟩ := supported
    cases casts
    subst same
    rw [Expr.slots] at room
    have rest := emitSum_succeeds tail sum ready (by omega)
    rw [Expr.nodes, Env.supportsAll_expr, Env.supportsAll_append, and_iff_right supported, ← rest,
      Expr.emit, succeeds_lift (Env.nodeType_of_facts noted), if_pos least, succeeds_bind_pure]
  | ⟨id, neg, cast, head, tail, span⟩, type,
      .inr ⟨first, start, .inr ⟨other, typed⟩, casts, _, sum, _⟩ => by
    intro frame ready room
    obtain ⟨convert, casting⟩ := ready.castCode casts
    rw [Expr.nodes, Env.supportsAll_expr, Expr.emit, succeeds_lift (Env.nodeType_of_facts typed.noted),
      if_neg (by simp [other])]
    refine (Term.emit_succeeds head typed).bind (Term.emit_emits head) (fun value => ?_) ready room
    refine .lift casting ?_
    exact (emitSum_succeeds tail sum).map

theorem emitSum_succeeds : ∀ (tail : List (AddOp × Term)) {type result : Tag},
    SumTyped env.facts sight type tail result →
    env.Needs sight names (emitSum env type tail) (sumSlots tail) (sumNodes tail)
  | [], _, _, _ => .pure
  | (op, term) :: rest, _, _, ⟨right, next, typed, promoted, others⟩ => by
    obtain ⟨l, r, joins⟩ := joins_of_promote promoted
    refine .lift (Env.nodeType_of_facts typed.noted) (.lift joins.common (.lift joins.left ?_))
    refine (Term.emit_succeeds term typed).bind (Term.emit_emits term) fun value => ?_
    exact .lift joins.right (emitSum_succeeds rest others).map

theorem Term.emit_succeeds : ∀ (term : Term) {type : Tag}, term.Typed env.facts sight type →
    env.Needs sight names (term.emit env) term.slots term.nodes
  | ⟨id, head, tail, span⟩, _, ⟨type, typed, product, _⟩ => by
    intro frame ready room
    rw [Term.nodes, Env.supportsAll_term]
    refine (Factor.emit_succeeds head typed).bind (Factor.emit_emits head) (fun first => ?_) ready room
    exact .lift (Env.nodeType_of_facts typed.noted) (emitProduct_succeeds tail product).map

theorem emitProduct_succeeds : ∀ (tail : List (MulOp × Factor)) {type result : Tag},
    ProductTyped env.facts sight type tail result →
    env.Needs sight names (emitProduct env type tail) (productSlots tail) (productNodes tail)
  | [], _, _, _ => .pure
  | (op, factor) :: rest, _, _, ⟨right, next, typed, promoted, others⟩ => by
    obtain ⟨l, r, joins⟩ := joins_of_promote promoted
    refine .lift (Env.nodeType_of_facts typed.noted) (.lift joins.common (.lift joins.left ?_))
    refine (Factor.emit_succeeds factor typed).bind (Factor.emit_emits factor) fun value => ?_
    exact .lift joins.right (emitProduct_succeeds rest others).map

theorem Factor.emit_succeeds : ∀ (factor : Factor) {type : Tag}, factor.Typed env.facts sight type →
    env.Needs sight names (factor.emit env) factor.slots factor.nodes
  | ⟨_, kind, span⟩, _, ⟨typed, noted⟩ => by
    intro frame ready room
    rw [Factor.emit, Factor.nodes, Env.supportsAll_cons]
    exact FactorKind.emit_succeeds kind span ready typed noted room

theorem FactorKind.emit_succeeds : ∀ (kind : FactorKind) {id : NodeId} (span : Span) {type : Tag}
    {frame : Frame}, env.Ready frame sight names → kind.Typed env.facts sight type →
    env.facts id type → frame.locals.length + kind.slots ≤ slotLimit →
    ((kind.emit env id).Succeeds frame ↔
      env.Supports names (.factor ⟨id, kind, span⟩) ∧ env.SupportsAll names kind.nodes)
  | .literal value, _, _, _, _, _, ⟨fits, _⟩, _, _ => by
    obtain ⟨instr, written⟩ := literalInstr_of_fits fits
    exact iff_of_true ⟨_, _, FactorKind.emit_literal_yields.mpr ⟨instr, written, rfl, rfl⟩⟩
      ⟨trivial, Env.supportsAll_nil⟩
  | .designator target, _, _, _, _, ready, typed, _, room => by
    rw [FactorKind.emit]
    exact (Designator.emitLoad_succeeds target typed ready room).trans
      (by simp [Env.Supports, FactorKind.nodes])
  | .call callee args, _, _, _, _, ready, ⟨typed, _⟩, _, room => by
    rw [FactorKind.emit]
    exact (Designator.call_succeeds typed (emitExprs_succeeds args) ready room).trans
      (by simp [Env.Supports, FactorKind.nodes])
  | .newObject _, _, _, _, _, _, _, _, _ =>
    iff_of_true (succeeds_pure _) ⟨trivial, Env.supportsAll_nil⟩
  | .newArray elem [], _, _, _, _, _, _, _, _ => by
    refine iff_of_false ?_ fun ⟨supported, _⟩ => supported.1 rfl
    rintro ⟨code, after, emitted⟩
    obtain ⟨_, _, _, _, _, _, sizes, grid, _⟩ :=
      (FactorKind.emit_newArray_yields (by simp)).mp emitted
    obtain ⟨_, rfl, _⟩ := emitSizes_nil_yields.mp sizes
    rw [emitGrid] at grid
    exact not_yields_throw grid
  | .newArray elem [size], _, _, _, frame, ready, ⟨known, value, ⟨_, _, same, typed, _⟩, _⟩, _, room => by
    obtain ⟨type, typedBase, _⟩ := ready.type_of_valued (ready.sane.valued_of_stores ⟨known, value⟩)
    rw [FactorKind.emit, succeeds_lift (ready.writtenType known), succeeds_bind_always]
    · rw [Expr.emit_succeeds size (.inr typed) ready room]
      simp [Env.Supports, FactorKind.nodes, exprsNodes]
    · intro _ _ _
      rw [succeeds_lift typedBase]
      exact succeeds_pure _
  | .newArray elem (size :: second :: sizes), _, _, _, frame, ready, ⟨known, value, typed, _⟩, _, room => by
    have base := ready.sane.valued_of_stores ⟨known, value⟩
    have settled := settled_of_typed typed
    rw [FactorKind.slots] at room
    · rw [FactorKind.emit, succeeds_lift (ready.writtenType known)]
      · have written : env.table.typeOf elem.name = sight.typeOf elem.name := ready.typeOf known
        simp only [Env.Supports, FactorKind.nodes, List.tail_cons, List.length_cons, written]
        refine (succeeds_bind_iff (emitSizes_succeeds (size :: second :: sizes) settled ready
          (by simp only [List.length_cons] at room ⊢; omega)) fun ⟨values, counts⟩ mid emitted => ?_).trans
          and_comm
        have grown : frame.Emits [] [] values mid _ true _ := emitSizes_emits (size :: second :: sizes) emitted
        have length := emitSizes_length emitted
        rw [succeeds_bind_pure]
        cases counts with
        | nil => cases length
        | cons count inner =>
          have inside : inner.length = (second :: sizes).length := by simpa using length
          have more : mid.locals.length + inner.length ≤ slotLimit := by
            rw [grown.count, inside]
            simp only [List.length_cons] at room ⊢
            omega
          have some : inner ≠ [] := by
            rintro rfl
            cases inside
          rw [emitGrid_succeeds (ready.emits grown) base more, Tag.foldl_listOf_congr _ inside]
          simp [some]
      · rintro _ ⟨⟩
    · rintro _ ⟨⟩
  | .paren inner, _, _, _, _, ready, typed, _, room => by
    rw [FactorKind.emit]
    exact (Expr.emit_succeeds inner (.inr typed) ready room).trans
      (by simp [Env.Supports, FactorKind.nodes])
  | .list elems, id, _, type, _, ready, whole@⟨_, elem, typed, same⟩, noted, room => by
    have annotated : env.annotations.type? id = some type := noted
    rw [FactorKind.emit, succeeds_lift (Env.nodeType_of_facts noted)]
    by_cases unknown : type = .unknown
    · subst unknown
      refine iff_of_false (not_succeeds_lift Env.type_unknown) fun ⟨supported, _⟩ => ?_
      exact supported annotated
    · have held : sight.registry.Held type :=
        FactorKind.Typed.held ready.sane whole
      have isList : type.isList = true := same ▸ Registry.isList_listOf (same ▸ unknown)
      obtain ⟨ty, typedElem, _⟩ := ready.type_of_valued (held.element isList)
      rw [succeeds_lift typedElem, succeeds_bind_pure]
      refine (emitElems_succeeds elems (settled_of_typed typed) ready room).trans ?_
      simp [Env.Supports, FactorKind.nodes, annotated, unknown]

theorem emitExprs_succeeds : ∀ (exprs : List Expr),
    (∀ e ∈ exprs, ∃ type, e.Settled env.facts sight type) →
    env.Needs sight names (emitExprs env exprs) (exprsSlots exprs) (exprsNodes exprs)
  | [], _ => .pure
  | e :: rest, settled => by
    obtain ⟨⟨type, first⟩, others⟩ := List.forall_mem_cons.mp settled
    exact (Expr.emit_succeeds e first).bind (Expr.emit_emits e) fun _ => (emitExprs_succeeds rest others).map

theorem emitSizes_succeeds : ∀ (sizes : List Expr),
    (∀ e ∈ sizes, ∃ type, e.Settled env.facts sight type) →
    env.Needs sight names (emitSizes env sizes) (exprsSlots sizes + sizes.length) (exprsNodes sizes)
  | [], _ => .pure
  | size :: rest, settled => by
    intro frame ready room
    obtain ⟨⟨type, first⟩, others⟩ := List.forall_mem_cons.mp settled
    obtain ⟨int, typed⟩ := ready.type_int
    rw [exprsSlots, List.length_cons] at room
    rw [emitSizes, exprsNodes, Env.supportsAll_append]
    refine succeeds_bind_iff (Expr.emit_succeeds size first ready (by omega))
      fun value mid emitted => ?_
    have grown : frame.Emits [] [] value mid size.slots true _ := Expr.emit_emits size emitted
    have count := grown.count
    rw [succeeds_temp typed (by omega), succeeds_bind_always fun _ _ _ => succeeds_pure _]
    refine emitSizes_succeeds rest others ((ready.emits grown).withTemp int) ?_
    simp only [Frame.withTemp, List.length_append, List.length_singleton]
    omega

theorem emitElems_succeeds : ∀ (elems : List Expr) {elem : Ty},
    (∀ e ∈ elems, ∃ type, e.Settled env.facts sight type) →
    env.Needs sight names (emitElems env elem elems) (exprsSlots elems) (exprsNodes elems)
  | [], _, _ => .pure
  | e :: rest, _, settled => by
    obtain ⟨⟨type, first⟩, others⟩ := List.forall_mem_cons.mp settled
    exact (Expr.emit_succeeds e first).bind (Expr.emit_emits e) fun _ => (emitElems_succeeds rest others).map

theorem Designator.emitLoad_succeeds : ∀ (target : Designator) {type : Tag},
    target.Typed env.facts sight type →
    env.Needs sight names (target.emitLoad env) target.slots target.nodes
  | ⟨id, base, selectors, span⟩, _, ⟨type, found, known, selected, _⟩ => by
    intro frame ready room
    rw [Designator.nodes, Env.supportsAll_cons]
    have valued := ready.sane.varType found known
    have rest := emitSelectors_succeeds selectors selected valued ready room
    rw [Designator.emitLoad]
    rcases ready.base found known with ⟨code, loaded, reached⟩ | ⟨code, value, loaded, outside, constant⟩
    · rw [succeeds_yields loaded, succeeds_bind_always fun _ _ _ => succeeds_pure _, rest]
      exact (and_iff_right (.inr reached)).symm
    · rw [succeeds_yields loaded, succeeds_bind_always fun _ _ _ => succeeds_pure _]
      cases selectors with
      | nil => exact iff_of_true (succeeds_pure _) ⟨.inl rfl, Env.supportsAll_nil⟩
      | cons selector others =>
        refine iff_of_false (emitSelectors_literal_fails value) fun ⟨supported, _⟩ => ?_
        rcases supported with bare | inside | free
        · cases bare
        · exact outside inside
        · rw [constant] at free
          cases free

theorem emitSelectors_succeeds : ∀ (selectors : List Selector) {type result : Tag},
    SelectorsTyped env.facts sight type selectors result → sight.registry.Valued type →
    env.Needs sight names (emitSelectors env type selectors) (selectorsSlots selectors)
      (selectorsNodes selectors)
  | [], _, _, _, _ => .pure
  | .field name :: rest, type, _, ⟨member, field, others⟩, valued => by
    intro frame ready room
    rcases field with ⟨unknown, _⟩ | ⟨_, found, _⟩
    · exact absurd unknown valued.ne_unknown
    · obtain ⟨className, named, typed⟩ := ready.fieldOf found
      have more := emitSelectors_succeeds rest others (ready.sane.member _ _ _ found) ready room
      rw [selectorsNodes, ← more]
      constructor
      · rintro ⟨⟨code, last⟩, after, emitted⟩
        obtain ⟨_, found', values, _, typed', emitted, _⟩ := emitSelectors_field_yields.mp emitted
        rw [typed] at typed'
        cases typed'
        exact ⟨(values, last), after, emitted⟩
      · rintro ⟨⟨values, last⟩, after, emitted⟩
        exact ⟨(_, last), after, emitSelectors_field_yields.mpr
          ⟨className, member, values, named, typed, emitted, rfl⟩⟩
  | .index value :: rest, type, _, ⟨elem, typed, element, others⟩, valued => by
    intro frame ready room
    rcases element with ⟨unknown, _⟩ | ⟨isList, rfl⟩
    · exact absurd unknown valued.ne_unknown
    · have valuedElem := valued.element isList
      obtain ⟨ty, typedElem, _⟩ := ready.type_of_valued valuedElem
      refine (Expr.emit_succeeds value (.inr typed)).bind (Expr.emit_emits value) (fun _ => ?_) ready room
      exact .lift typedElem (emitSelectors_succeeds rest others valuedElem).map

end

end StackCode
