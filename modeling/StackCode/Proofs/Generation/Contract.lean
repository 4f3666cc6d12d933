import StackCode.Proofs.Emission.Failures
import StackCode.Proofs.Generation.Statements

namespace StackCode

open Code Emit

def Program.env (program : Program) (table : SymbolTable) (annotations : Annotations) : Env :=
  { table, annotations, constants := constantsOf program.items }

variable {name : String}

namespace Program.Declared

variable {program : Program} {table : SymbolTable} (declared : program.Declared table)

include declared

theorem valued_of_stores {type : TypeName} (stores : table.sight.Stores type) :
    table.registry.Valued (table.sight.typeOf type.name) :=
  ((Sight.typeOf_cases declared.classType type.name).resolve_left
    stores.1).resolve_left stores.2

theorem valued_resultType {result : Option TypeName}
    (known : table.sight.resultType result ≠ .unknown) :
    table.sight.resultType result = .void ∨
      table.registry.Valued (table.sight.resultType result) := by
  cases result with
  | none => exact .inl rfl
  | some type =>
    exact (Sight.typeOf_cases declared.classType type.name).resolve_left known

theorem var_cases {tag : Tag} {constant : Bool}
    (meant : table.sight.meaning? name = some ⟨tag, .var constant⟩) :
    (∃ decl, Item.const decl ∈ program.items ∧ constant = true ∧ decl.name.name = name) ∨
      ∃ decl, Item.vars decl ∈ program.items ∧ constant = false ∧
        name ∈ decl.names.map (·.name) := by
  rcases declared.only name _ meant with impossible | ⟨item, member, inside⟩
  · cases impossible
  · cases item with
    | const decl =>
      simp only [Sight.meanings, List.mem_singleton, Prod.mk.injEq, Meaning.mk.injEq,
        SymbolKind.var.injEq] at inside
      exact .inl ⟨decl, member, inside.2.2, inside.1.symm⟩
    | vars decl =>
      simp only [Sight.meanings, List.mem_map, Prod.mk.injEq, Meaning.mk.injEq,
        SymbolKind.var.injEq] at inside
      obtain ⟨ident, among, rfl, _, rfl⟩ := inside
      exact .inr ⟨decl, member, rfl, List.mem_map.mpr ⟨ident, among, rfl⟩⟩
    | method | classDecl => simp [Sight.meanings] at inside

theorem valued_var {tag : Tag} {constant : Bool}
    (meant : table.sight.meaning? name = some ⟨tag, .var constant⟩) : table.registry.Valued tag := by
  rcases declared.var_cases meant with ⟨decl, member, _, rfl⟩ | ⟨decl, member, _, inside⟩
  · have gained := declared.gained _ member _ (List.mem_singleton_self _)
    obtain ⟨stores, _⟩ := declared.heads _ member
    cases meant.symm.trans gained
    exact declared.valued_of_stores stores
  · obtain ⟨ident, among, rfl⟩ := List.mem_map.mp inside
    have gained := declared.gained _ member _ (List.mem_map.mpr ⟨ident, among, rfl⟩)
    cases meant.symm.trans gained
    exact declared.valued_of_stores (declared.heads _ member)

theorem sane : table.sight.Sane where
  classType := declared.classType
  var _ _ _ meant := .inr (declared.valued_var meant)
  method name tag result params meant := by
    rcases declared.only name _ meant with impossible | ⟨item, member, inside⟩
    · cases impossible
    · have head := declared.heads item member
      cases item with
      | method decl =>
        simp only [Sight.meanings, List.mem_singleton, Prod.mk.injEq, Meaning.mk.injEq,
          SymbolKind.method.injEq] at inside
        obtain ⟨_, _, rfl, rfl⟩ := inside
        refine ⟨declared.valued_resultType head.1, fun param listed => ?_⟩
        obtain ⟨param, among, rfl⟩ := List.mem_map.mp listed
        exact declared.valued_of_stores (head.2 param among)
      | const | vars | classDecl => simp [Sight.meanings] at inside
  member container name tag found := by
    obtain ⟨symbol, looked, rfl⟩ := Option.map_eq_some_iff.mp found
    obtain ⟨className, _, listed⟩ := Option.bind_eq_some_iff.mp looked
    exact declared.fields className symbol (List.mem_of_find?_eq_some listed)

end Program.Declared

variable {items : List Item}

theorem mem_constantsOf {value : Literal} :
    (name, value) ∈ constantsOf items ↔
      ∃ decl, Item.const decl ∈ items ∧ decl.name.name = name ∧ decl.value = value := by
  simp only [constantsOf, List.mem_reverse, List.mem_filterMap]
  constructor
  · rintro ⟨item, member, listed⟩
    cases item with
    | const decl =>
      cases listed
      exact ⟨decl, member, rfl, rfl⟩
    | _ => cases listed
  · rintro ⟨decl, member, rfl, rfl⟩
    exact ⟨.const decl, member, rfl⟩

theorem lookup_constantsOf {value : Literal} (found : (constantsOf items).lookup name = some value) :
    ∃ decl, Item.const decl ∈ items ∧ decl.name.name = name ∧ decl.value = value := by
  obtain ⟨before, after, listed, _⟩ := List.lookup_eq_some_iff.mp found
  exact mem_constantsOf.mp (by simp [listed])

theorem lookup_constantsOf_ne_none {decl : ConstDecl} (member : Item.const decl ∈ items) :
    (constantsOf items).lookup decl.name.name ≠ none := by
  intro absent
  have listed := mem_constantsOf.mpr ⟨decl, member, rfl, rfl⟩
  simpa using List.lookup_eq_none_iff.mp absent _ listed

theorem Program.Declared.ready {program : Program} {table : SymbolTable}
    (declared : program.Declared table) (annotations : Annotations) :
    (program.env table annotations).Ready { scopes := [[]] } table.sight [] where
  sane := declared.sane
  registry := rfl
  member? := rfl
  global _ _ meant _ := meant
  home name tag constant meant known := by
    obtain ⟨symbol, looked, meaning⟩ := Option.map_eq_some_iff.mp meant
    unfold Env.home
    cases listed : (program.env table annotations).constants.lookup name with
    | some value =>
      obtain ⟨decl, member, rfl, rfl⟩ := lookup_constantsOf listed
      have gained := declared.gained _ member _ (List.mem_singleton_self _)
      obtain ⟨_, fits, accepted⟩ := declared.heads _ member
      cases meant.symm.trans gained
      exact ⟨.constant decl.value, rfl, rfl, fits, accepted⟩
    | none =>
      have variable' : symbol.isVariable = true := by
        rw [Symbol.isVariable, show symbol.kind = .var constant from congrArg Meaning.kind meaning]
      refine ⟨.static name symbol.type, ?_, congrArg Meaning.type meaning, ?_⟩
      · have looked : (program.env table annotations).table.lookup? name = some symbol := looked
        simp only [looked, variable', if_true]
        rfl
      · rcases declared.var_cases meant with ⟨decl, member, _, rfl⟩ | ⟨_, _, fixed, _⟩
        · exact absurd listed (lookup_constantsOf_ne_none member)
        · exact fixed
  knows name := by simp

section Methods

variable {program : Program} {table : SymbolTable} {annotations : Annotations}

theorem Env.params_of_valued {env : Env} {params : List Param}
    (valued : ∀ param ∈ params, env.table.registry.Valued (env.table.typeOf param.type.name)) :
    ∃ slots, env.params params =
      .ok (params.map fun param => (param.name.name, env.table.typeOf param.type.name), slots) := by
  induction params with
  | nil => exact ⟨[], rfl⟩
  | cons param params ih =>
    obtain ⟨first, others⟩ := List.forall_mem_cons.mp valued
    obtain ⟨slots, found⟩ := ih others
    obtain ⟨type, typed, _⟩ := Env.type_of_valued first
    refine ⟨⟨param.name.name, type⟩ :: slots, ?_⟩
    rw [Env.params, Env.writtenType_of_known first.ne_unknown]
    simp only [bind, Except.bind, typed, found, pure, Except.pure, List.map_cons]

/-- The type of a parameter can be unknown to the check where an earlier parameter hides a class;
generation still has it. -/
theorem Env.Sees.paramType {env : Env} {sight : Sight} {frame : Frame} (sees : env.Sees frame sight)
    {type : TypeName} (valued : env.table.registry.Valued (env.table.typeOf type.name)) :
    sight.paramType type = .unknown ∨ sight.paramType type = env.table.typeOf type.name := by
  by_cases known : sight.typeOf type.name = .unknown
  · left
    rw [Sight.paramType, known]
    rfl
  · right
    rw [sees.typeOf known] at valued ⊢
    rw [Sight.paramType, if_neg]
    simpa using valued.ne_void

theorem emitParams_stands {env : Env} {sight : Sight} {names : List String} {frame : Frame}
    {result : Tag} {params : List Param} {i : Nat}
    (stands : env.Stands result frame sight names false)
    (valued : ∀ param ∈ params, env.table.registry.Valued (env.table.typeOf param.type.name))
    (room : frame.locals.length + params.length ≤ slotLimit) :
    ∃ code after, (emitParams env i (params.map fun param =>
        (param.name.name, env.table.typeOf param.type.name))).Yields frame code after ∧
      env.Stands result after (sight.declareParams params) (paramNames params ++ names) false := by
  induction params generalizing frame sight names i with
  | nil => exact ⟨[], frame, emitParams_nil_yields.mpr ⟨rfl, rfl⟩, stands⟩
  | cons param params ih =>
    obtain ⟨first, others⟩ := List.forall_mem_cons.mp valued
    rw [List.length_cons] at room
    have declared := stands.toSees.paramType first
    obtain ⟨type, typed, _⟩ := Env.type_of_valued first
    have held : sight.registry.Held (sight.paramType param.type) :=
      declared.imp_right fun same => by
        rw [same, ← stands.registry]
        exact first
    have behind : env.Stands result
        (frame.withLocal param.name.name type (env.table.typeOf param.type.name))
        (sight.declare param.name.name ⟨sight.paramType param.type, .var false⟩)
        (param.name.name :: names) false :=
      ⟨stands.toReady.withLocal typed held declared, stands.returns, stands.breaks⟩
    obtain ⟨code, after, moved, stands⟩ := ih behind others (by
      simp only [Frame.withLocal, List.length_append, List.length_singleton]
      omega)
    refine ⟨_, after, emitParams_cons_yields.mpr ⟨type, code, typed, by omega, moved, rfl⟩,
      stands.toReady.of_names fun name => ?_, stands.returns, stands.breaks⟩
    simp only [paramNames, List.map_cons, List.mem_append, List.mem_cons, List.cons_append]
    tauto

variable {program : Program} {table : SymbolTable} {annotations : Annotations}

theorem Env.resultTag_of_known {env : Env} {result : Option TypeName}
    (known : env.table.sight.resultType result ≠ .unknown) :
    env.resultTag result = .ok (env.table.sight.resultType result) := by
  cases result with
  | none => rfl
  | some type =>
    rw [Sight.resultType, env.table.sight_typeOf] at known ⊢
    exact Env.writtenType_of_known known

theorem Env.type_of_result (env : Env) {tag : Tag}
    (returns : tag = .void ∨ env.table.registry.Valued tag) : ∃ type, env.type tag = .ok type := by
  rcases returns with rfl | valued
  · exact ⟨.void, rfl⟩
  · obtain ⟨type, typed, _⟩ := Env.type_of_valued valued
    exact ⟨type, typed⟩

theorem Program.Accepted.method_succeeds
    (accepted : program.Accepted table (program.env table annotations).facts) {decl : MethodDecl}
    (member : Item.method decl ∈ program.items) (room : decl.slots ≤ slotLimit) :
    (∃ method, (program.env table annotations).method decl = .ok method) ↔
      (program.env table annotations).SupportsEach decl.occurrences := by
  have ready := accepted.toDeclared.ready annotations
  obtain ⟨known, stores⟩ := accepted.heads _ member
  obtain ⟨_, typed⟩ := accepted.methods decl member
  have valued : ∀ param ∈ decl.params, (program.env table annotations).table.registry.Valued
      ((program.env table annotations).table.typeOf param.type.name) :=
    fun param among => table.sight_typeOf _ ▸ ready.sane.valued_of_stores (stores param among)
  have returns := accepted.toDeclared.valued_resultType known
  have stands : (program.env table annotations).Stands (table.sight.resultType decl.result)
      { scopes := [[]] } table.sight [] false :=
    ⟨ready, returns.resolve_left, nofun⟩
  rw [MethodDecl.slots] at room
  obtain ⟨slots, listed⟩ := Env.params_of_valued valued
  obtain ⟨entry, mid, moved, stands⟩ := emitParams_stands (i := 0) stands valued
    (by simp only [List.length_nil]; omega)
  have entered : Frame.Grows [] [] { scopes := [[]] } entry mid _ := (emitParams_grows moved).1
  have count := entered.count
  simp only [List.length_nil, List.length_map, Nat.zero_add] at count
  have body := emitItems_succeeds decl.body.items stands typed (by omega)
  rw [List.append_nil] at body
  obtain ⟨result, typedResult⟩ := (program.env table annotations).type_of_result returns
  rw [show decl.occurrences = itemsOccurrences (paramNames decl.params) decl.body.items from rfl,
    ← body]
  constructor
  · rintro ⟨method, generated⟩
    obtain ⟨_, _, _, _, _, after, _, listed', _, emitted, _⟩ := Env.method_eq_ok.mp generated
    cases listed.symm.trans listed'
    obtain ⟨_, _, items, moved', emitted, _⟩ := emitBody_yields.mp emitted
    obtain ⟨_, rfl⟩ := moved.unique moved'
    exact ⟨items, after, emitted⟩
  · rintro ⟨items, after, emitted⟩
    have whole : (emitBody _ _ result _).Yields _ _ after :=
      emitBody_yields.mpr ⟨entry, mid, items, moved, emitted, rfl⟩
    exact ⟨_, Env.method_eq_ok.mpr ⟨_, _, _, result, _, after, Env.resultTag_of_known known, listed,
      typedResult, whole, rfl, isResolved_of_grows (emitBody_grows rfl whole) rfl rfl⟩⟩

theorem Program.Accepted.methods_succeed
    (accepted : program.Accepted table (program.env table annotations).facts)
    (room : ∀ decl, Item.method decl ∈ program.items → decl.slots ≤ slotLimit)
    (within : items ⊆ program.items) :
    (∃ methods, (program.env table annotations).methods items = .ok methods) ↔
      (program.env table annotations).SupportsEach (items.flatMap Item.occurrences) := by
  induction items with
  | nil => exact iff_of_true ⟨[], rfl⟩ Env.supportsEach_nil
  | cons item rest ih =>
    obtain ⟨member, within⟩ := List.cons_subset.mp within
    rw [List.flatMap_cons, Env.supportsEach_append, ← ih within]
    cases item with
    | method decl =>
      rw [Item.occurrences, ← accepted.method_succeeds member (room decl member), Env.methods]
      simp only [bind_eq_ok, pure_eq_ok]
      constructor
      · rintro ⟨_, method, generated, others, more, _⟩
        exact ⟨⟨method, generated⟩, others, more⟩
      · rintro ⟨⟨method, generated⟩, others, more⟩
        exact ⟨_, method, generated, others, more, rfl⟩
    | _ => exact (and_iff_right Env.supportsEach_nil).symm

theorem Env.fields_of_valued (env : Env) {symbols : List Symbol}
    (valued : ∀ symbol ∈ symbols, env.table.registry.Valued symbol.type) :
    ∃ slots, env.fields symbols = .ok slots := by
  induction symbols with
  | nil => exact ⟨[], rfl⟩
  | cons symbol rest ih =>
    obtain ⟨first, others⟩ := List.forall_mem_cons.mp valued
    obtain ⟨type, typed, _⟩ := Env.type_of_valued first
    obtain ⟨slots, found⟩ := ih others
    refine ⟨⟨symbol.name, type⟩ :: slots, ?_⟩
    rw [Env.fields]
    simp only [bind_eq_ok, pure_eq_ok]
    exact ⟨type, typed, slots, found, rfl⟩

theorem Program.Declared.data_succeeds (declared : program.Declared table)
    (within : items ⊆ program.items) : ∃ data, (program.env table annotations).data items = .ok data := by
  induction items with
  | nil => exact ⟨_, rfl⟩
  | cons item rest ih =>
    obtain ⟨member, within⟩ := List.cons_subset.mp within
    obtain ⟨⟨classes, statics⟩, found⟩ := ih within
    cases item with
    | classDecl decl =>
      obtain ⟨slots, fields⟩ :=
        (program.env table annotations).fields_of_valued (declared.fields decl.name.name)
      refine ⟨(.plain decl.name.name slots :: classes, statics), ?_⟩
      rw [Env.data]
      simp only [bind_eq_ok, pure_eq_ok]
      exact ⟨slots, fields, (classes, statics), found, rfl⟩
    | vars decl =>
      have stores : table.sight.Stores decl.type := declared.heads _ member
      have written : (program.env table annotations).writtenType decl.type = _ :=
        (declared.ready annotations).writtenType stores.1
      obtain ⟨type, typed, _⟩ :=
        (declared.ready annotations).type_of_valued (declared.valued_of_stores stores)
      refine ⟨(classes, decl.names.map (⟨·.name, type⟩) ++ statics), ?_⟩
      rw [Env.data]
      simp only [bind_eq_ok, pure_eq_ok]
      exact ⟨_, written, type, typed, (classes, statics), found, rfl⟩
    | const decl => exact ⟨_, found⟩
    | method decl => exact ⟨_, found⟩

end Methods

theorem Program.Accepted.generate_succeeds {program : Program} {table : SymbolTable}
    {annotations : Annotations} (entry : String)
    (accepted : program.Accepted table (program.env table annotations).facts)
    (room : ∀ decl, Item.method decl ∈ program.items → decl.slots ≤ slotLimit) :
    (∃ generated, program.generate table annotations entry = .ok generated) ↔
      (program.env table annotations).SupportsEach program.occurrences := by
  obtain ⟨⟨classes, statics⟩, found⟩ : ∃ data, (program.env table annotations).data program.items = .ok data :=
    accepted.toDeclared.data_succeeds (List.Subset.refl _)
  have methods := accepted.methods_succeed room (List.Subset.refl _)
  rw [Program.occurrences, ← methods, Program.generate_eq]
  simp only [bind_eq_ok, pure_eq_ok]
  constructor
  · rintro ⟨_, _, _, others, more, _⟩
    exact ⟨others, more⟩
  · rintro ⟨others, more⟩
    exact ⟨_, _, found, others, more, rfl⟩

def Program.fitsSlots (program : Program) : Bool :=
  program.items.all fun
    | .method decl => decl.slots ≤ slotLimit
    | _ => true

theorem Program.fitsSlots_iff {program : Program} : program.fitsSlots = true ↔
    ∀ decl, Item.method decl ∈ program.items → decl.slots ≤ slotLimit := by
  rw [Program.fitsSlots, List.all_eq_true]
  constructor
  · intro fits decl member
    simpa using fits _ member
  · intro fits item member
    cases item with
    | method decl => simpa using fits decl member
    | _ => rfl

/-- What the check lets pass is generated if and only if generation copes with every node. -/
theorem Program.build_succeeds_iff {program : Program} {entry : String}
    (numbered : program.IsNumbered) (accepted : (program.check entry).errors = #[])
    (known : (program.check entry).unknownUses = 0) (room : program.fitsSlots = true) :
    (∃ generated, program.build (program.check entry) entry = .ok generated) ↔
      (program.env (program.check entry).table (program.check entry).annotations).SupportsEach
        program.occurrences := by
  have quiet : (program.check entry).tally = 0 := by
    rw [Notes.tally, accepted, known]
    rfl
  rw [← (Program.accepted_of_quiet numbered quiet).generate_succeeds entry
      (Program.fitsSlots_iff.mp room), Program.build, accepted]
  cases program.generate (program.check entry).table (program.check entry).annotations entry with
  | ok generated => simp [Except.mapError]
  | error cause => simp [Except.mapError]

namespace Sample

/-- `const int[] xs = null; void Main() { int y; y = xs[0]; }` -/
def elementOfNull : Program :=
  program [
    .const ⟨⟨"int[]", {}⟩, ⟨"xs", {}⟩, .null, {}⟩,
    method none "Main" [] [
      .var (vars "int" ["y"]),
      .stmt (.assign (place "y" []) (value (load "xs" [.index (value (int 0))])) {})]]

end Sample

theorem Sample.exists_ok {ε α : Type} {result : Except ε α} (given : result.toOption.isSome = true) :
    ∃ value, result = .ok value := by
  cases result with
  | ok value => exact ⟨value, rfl⟩
  | error cause => cases given

deriving instance DecidableEq for Frame

theorem Sample.emits {α : Type} {action : Emit α} {before : Frame} (a : α) (after : Frame)
    (given : (action.outcome before).1.toOption = some a ∧ (action.outcome before).2 = after) :
    action.Yields before a after := by
  unfold Yields
  cases ran : action.outcome before with
  | mk result frame =>
    rw [ran] at given
    obtain ⟨value, rfl⟩ := given
    cases result with
    | error cause => cases value
    | ok b =>
      cases value
      rfl

theorem Sample.totals_generated : Sample.totals.fitsSlots = true ∧
    ∃ built, Sample.totals.generate (Sample.totals.check "Main").table
      (Sample.totals.check "Main").annotations "Main" = .ok built :=
  ⟨by decide +kernel, Sample.exists_ok (by decide +kernel)⟩

theorem totals_build_iff : Sample.totals.IsNumbered ∧ (Sample.totals.check "Main").errors = #[] ∧
    (Sample.totals.check "Main").unknownUses = 0 ∧ Sample.totals.fitsSlots = true ∧
    ((∃ generated, Sample.totals.build (Sample.totals.check "Main") "Main" = .ok generated) ↔
      (Sample.totals.env (Sample.totals.check "Main").table
        (Sample.totals.check "Main").annotations).SupportsEach Sample.totals.occurrences) := by
  obtain ⟨numbered, accepted, known⟩ := Sample.totals_accepted
  have room : Sample.totals.fitsSlots = true := Sample.totals_generated.1
  exact ⟨numbered, accepted, known, room, Program.build_succeeds_iff numbered accepted known room⟩

/-- The check takes a constant for a value of its declared type, generation for the literal itself,
which has no elements. -/
theorem elementOfNull_not_built : Sample.elementOfNull.IsNumbered ∧
    Sample.elementOfNull.isFormed = true ∧ Sample.elementOfNull.fitsSlots = true ∧
    (Sample.elementOfNull.check "Main").errors = #[] ∧
    Sample.elementOfNull.build (Sample.elementOfNull.check "Main") "Main" =
      .error (.unsupported (.noTargetType .unknown)) :=
  ⟨Sample.isNumbered (by decide +kernel), by decide +kernel, by decide +kernel, by decide +kernel, rfl⟩

end StackCode
