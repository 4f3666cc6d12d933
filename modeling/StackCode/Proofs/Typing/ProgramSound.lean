import StackCode.Proofs.Tree.Numbers
import StackCode.Proofs.Typing.Globals

namespace StackCode

open Checking

namespace Sight

def paramType (sight : Sight) (type : TypeName) : Tag :=
  if sight.typeOf type.name == .void then .unknown else sight.typeOf type.name

/-- What can be seen behind parameters; one that has the name of a class hides it from those
behind it. -/
def declareParams : Sight → List Param → Sight
  | sight, [] => sight
  | sight, param :: params =>
    (sight.declare param.name.name ⟨sight.paramType param.type, .var false⟩).declareParams params

end Sight

def paramNames (params : List Param) : List String := params.map (·.name.name)

def MethodDecl.Typed (facts : Facts) (sight : Sight) (decl : MethodDecl) : Prop :=
  Fresh [] (paramNames decl.params) ∧
    ItemsTyped facts (sight.resultType decl.result) (sight.declareParams decl.params) false
      (paramNames decl.params).reverse decl.body.items

section Methods

variable {sight : Sight} {taken : List String} {leavable : Bool} {result : Tag}

theorem declareParams_checks (params : List Param) {sight : Sight} {taken : List String} :
    (declareParams params).Checks [] CheckState.Grown (·.At sight taken leavable result)
      fun _ _ after => Fresh taken (paramNames params) ∧ after.At (sight.declareParams params)
        ((paramNames params).reverse ++ taken) leavable result := by
  induction params generalizing sight taken with
  | nil =>
    exact ((checks_pure ()).of_rel CheckState.Kept.grown).mono fun _ _ _ _ _ _ same =>
      ⟨trivial, same.2⟩
  | cons param params ih =>
    rw [declareParams]
    refine checks_get fun start => ?_
    have declared : (discard (introduce param.name (·.declareVar? param.name
        (start.table.paramType param.type) false .param
        (param.type.span.orElse param.name.span)))).Checks [] CheckState.Grown
        (·.At sight taken leavable result) _ := checks_introduce _ _ _ _ fun _ => rfl
    refine ((declared.bind (fun _ => ih) CheckState.Grown.trans fun _ _ _ _ _ found =>
      found.2).of_pre fun _ here => here.2).mono ?_
    rintro before _ _ after ⟨rfl, here⟩ _ ⟨_, _, ⟨new, _⟩, fresh, there⟩
    have type : before.table.paramType param.type = sight.paramType param.type := by
      unfold Sight.paramType SymbolTable.paramType
      rw [← here.shows.sight, SymbolTable.sight_typeOf]
    rw [type] at there
    have names : (paramNames (param :: params)).reverse ++ taken =
        (paramNames params).reverse ++ param.name.name :: taken := by simp [paramNames]
    rw [names]
    exact ⟨⟨new, fresh⟩, there⟩

structure CheckState.Passed (before after : CheckState) : Prop where
  table : before.table.Extends after.table
  loopDepth : after.loopDepth = before.loopDepth
  switchDepth : after.switchDepth = before.switchDepth

theorem CheckState.Passed.trans {a b c : CheckState} (first : a.Passed b) (second : b.Passed c) :
    a.Passed c :=
  ⟨first.table.trans second.table, second.loopDepth.trans first.loopDepth,
    second.switchDepth.trans first.switchDepth⟩

structure CheckState.Outside (state : CheckState) (sight : Sight) (taken : List String) : Prop where
  shows : state.table.Shows sight taken
  loopDepth : state.loopDepth = 0
  switchDepth : state.switchDepth = 0

theorem CheckState.Outside.passed {a b : CheckState} (outside : a.Outside sight taken)
    (passed : a.Passed b) : b.Outside sight taken :=
  ⟨outside.shows.extends passed.table, passed.loopDepth.trans outside.loopDepth,
    passed.switchDepth.trans outside.switchDepth⟩

theorem MethodDecl.check_checks (decl : MethodDecl) :
    decl.check.Checks (itemsAnnotated decl.body.items) CheckState.Passed
      (fun state => state.Outside sight taken ∧ (Item.method decl).HeadTyped sight)
      fun facts _ _ => decl.Typed facts sight := by
  have body : (do declareParams decl.params; checkItems decl.body.items).Checks
      (itemsAnnotated decl.body.items) CheckState.Grown
      (·.At sight [] false (sight.resultType decl.result)) fun facts _ _ =>
        decl.Typed facts sight := by
    refine ((declareParams_checks decl.params).bind (fun _ => checkItems_checks decl.body.items)
      CheckState.Grown.trans fun _ _ _ _ _ found => found.2).mono ?_
    rintro _ facts _ _ _ _ ⟨_, _, ⟨fresh, _⟩, typed⟩
    rw [List.append_nil] at typed
    exact ⟨fresh, typed⟩
  intro state
  obtain ⟨grows, kept, log, makes, keys, holds⟩ :=
    body.inScope { state with expectedResult := state.table.resultType decl.result }
  have whole : (do
      modify fun state : CheckState =>
        { state with expectedResult := state.table.resultType decl.result }
      (do openScope; (do declareParams decl.params; checkItems decl.body.items); closeScope)
      modify fun state : CheckState => { state with expectedResult := .void }).Makes state log :=
    .within makes (fun _ => rfl) fun _ => rfl
  refine ⟨grows, ⟨kept.table, kept.loopDepth, kept.switchDepth⟩, log, whole, keys,
    fun quiet ⟨outside, head⟩ => holds quiet ?_⟩
  refine ⟨outside.shows, ?_, ?_, head.1⟩
  · simp [outside.loopDepth, outside.switchDepth]
  · change state.table.resultType decl.result = sight.resultType decl.result
    rw [← outside.shows.sight]
    cases decl.result with
    | none => rfl
    | some type => exact (state.table.sight_typeOf type.name).symm

theorem checkMethods_checks : ∀ items : List Item,
    (checkMethods items).Checks (items.flatMap Item.annotated) CheckState.Passed
      (fun state => state.Outside sight taken ∧ ∀ item ∈ items, item.HeadTyped sight)
      fun facts _ _ => ∀ decl, Item.method decl ∈ items → decl.Typed facts sight
  | [] => ((checks_pure ()).of_rel fun kept => ⟨kept.table, kept.loopDepth, kept.switchDepth⟩).mono
      fun _ _ _ _ _ _ _ _ member => nomatch member
  | .method decl :: rest => by
    have first : decl.check.Checks (itemsAnnotated decl.body.items) CheckState.Passed
        (fun state => state.Outside sight taken ∧
          ∀ item ∈ Item.method decl :: rest, item.HeadTyped sight)
        fun facts _ after => decl.Typed facts sight ∧ after.Outside sight taken ∧
          ∀ item ∈ rest, item.HeadTyped sight := by
      refine (decl.check_checks.of_pre fun _ here => ⟨here.1, here.2 _ (by simp)⟩).mono ?_
      rintro _ _ _ _ ⟨outside, heads⟩ passed typed
      exact ⟨typed, outside.passed passed, fun item member => heads item (by simp [member])⟩
    refine (first.bind (fun _ => checkMethods_checks rest) CheckState.Passed.trans
      fun _ _ _ _ _ found => found.2).mono ?_
    rintro _ facts _ _ _ _ ⟨_, _, ⟨typed, _⟩, others⟩ other member
    rcases List.mem_cons.mp member with same | member
    · cases same
      exact typed
    · exact others other member
  | .const _ :: rest | .vars _ :: rest | .classDecl _ :: rest =>
    ((checkMethods_checks rest).of_pre fun _ here =>
      ⟨here.1, fun item member => here.2 item (by simp [member])⟩).mono
      fun _ _ _ _ _ _ typed decl member => typed decl (by simpa using member)

theorem checkEntry_checks (entry : String) (span : Span) {pre : CheckState → Prop} :
    (checkEntry entry span).Checks [] CheckState.Kept pre fun _ _ _ => True := by
  refine checks_get fun start => ?_
  split
  · exact (checks_report _ _).mono fun _ _ _ _ _ _ _ => trivial
  · exact (checks_pure ()).mono fun _ _ _ _ _ _ _ => trivial

end Methods

/-- A table that shows what a program declares, and this is well typed. -/
structure Program.Declared (program : Program) (table : SymbolTable) : Prop where
  classType : ∀ name tag, table.sight.meaning? name = some ⟨tag, .classType⟩ →
    tag = .unknown ∨ table.registry.name? tag = some name
  named : ∀ name ∈ table.registry.names,
    ∃ decl, Item.classDecl decl ∈ program.items ∧ decl.name.name = name
  fields : ∀ className, ∀ symbol ∈ table.fieldsOf className, table.registry.Valued symbol.type
  heads : ∀ item ∈ program.items, item.HeadTyped table.sight
  gained : ∀ item ∈ program.items, ∀ entry ∈ table.sight.meanings item,
    table.sight.meaning? entry.1 = some entry.2
  only : ∀ name meaning, table.sight.meaning? name = some meaning →
    meaning.kind = .classType ∨ ∃ item ∈ program.items, (name, meaning) ∈ table.sight.meanings item

/-- A program that is well typed, with the types `facts` of its nodes, in sight of its own
declarations. -/
structure Program.Accepted (program : Program) (table : SymbolTable) (facts : Facts) : Prop extends
    program.Declared table where
  methods : ∀ decl, Item.method decl ∈ program.items → decl.Typed facts table.sight

theorem Program.Declared.extends {program : Program} {table later : SymbolTable}
    (declared : program.Declared table) (recorded : table.Recorded) (longer : table.Extends later) :
    program.Declared later := by
  obtain ⟨classType, named, fields, heads, gained, only⟩ := declared
  have same := longer.sight recorded
  have registry := longer.registry
  refine ⟨?_, registry ▸ named, ?_, same ▸ heads, same ▸ gained, same ▸ only⟩
  · rw [same, registry]
    exact classType
  · intro className
    rw [SymbolTable.fieldsOf_of_longer recorded longer.history longer.fields, registry]
    exact fields className

theorem SymbolTable.Outline.meaning? {items : List Item} {table : SymbolTable}
    (outline : table.Outline items) {name : String} {meaning : Meaning}
    (meant : table.sight.meaning? name = some meaning) : meaning.kind = .classType ∧
      (meaning.type = .unknown ∨ table.registry.name? meaning.type = some name) ∧
      name ∈ table.current.map Symbol.name := by
  obtain ⟨symbol, seen, rfl⟩ := Option.map_eq_some_iff.mp meant
  have member := List.mem_of_find?_eq_some seen
  have same : symbol.name = name := by simpa using List.find?_some seen
  obtain ⟨kind, known⟩ := outline.symbols symbol member
  have whole : table.current = table.visible := by simp [current, visible, outline.boundaries]
  rw [whole]
  exact ⟨kind, same ▸ known, List.mem_map.mpr ⟨symbol, member, same⟩⟩

theorem Program.declared_of_heads {program : Program} {before after : SymbolTable}
    (outline : before.Outline program.items) (registry : after.registry = before.registry)
    (history : before.history.toList <+: after.history.toList) (fields : after.fields = before.fields)
    (typed : HeadsTyped before.sight (before.current.map (·.name)) program.items after.sight) :
    program.Declared after := by
  obtain ⟨adds, heads⟩ := typed.adds fun name meaning meant => (outline.meaning? meant).2.2
  have only : ∀ name meaning, after.sight.meaning? name = some meaning →
      before.sight.meaning? name = some meaning ∨
        ∃ item ∈ program.items, (name, meaning) ∈ after.sight.meanings item := by
    intro name meaning meant
    exact (adds.only name meaning meant).imp_right List.mem_flatMap.mp
  refine ⟨?_, registry ▸ outline.named, ?_, heads, ?_, ?_⟩
  · intro name tag meant
    rcases only name _ meant with old | ⟨item, _, new⟩
    · rw [registry]
      exact (outline.meaning? old).2.1
    · cases item <;> simp [Sight.meanings] at new
  · intro className
    rw [SymbolTable.fieldsOf_of_longer outline.recorded history fields, registry]
    exact outline.fields className
  · intro item member entry inside
    exact adds.gained entry (List.mem_flatMap.mpr ⟨item, member, inside⟩)
  · intro name meaning meant
    exact (only name meaning meant).imp_left fun old => (outline.meaning? old).1

def Program.declaring (program : Program) : Checking Unit := do
  let classes ← declareClasses program.items
  classes.forM ClassDecl.declareFields
  program.items.forM Item.declare

structure CheckState.Begun (items : List Item) (state : CheckState) : Prop where
  outline : state.table.Outline items
  loopDepth : state.loopDepth = 0
  switchDepth : state.switchDepth = 0
  expectedResult : state.expectedResult = .void

theorem CheckState.Begun.steady {items : List Item} {a b : CheckState} (begun : a.Begun items)
    (steady : a.Steady b) (outline : b.table.Outline items) : b.Begun items :=
  ⟨outline, steady.loopDepth.trans begun.loopDepth, steady.switchDepth.trans begun.switchDepth,
    steady.expectedResult.trans begun.expectedResult⟩

theorem CheckState.Begun.at {items : List Item} {state : CheckState} (begun : state.Begun items) :
    state.At state.table.sight (state.table.current.map Symbol.name) false .void where
  shows := ⟨begun.outline.recorded, rfl, rfl, 0, [], begun.outline.boundaries, Nat.zero_le _⟩
  leavable := by simp [begun.loopDepth, begun.switchDepth]
  expected := begun.expectedResult
  known := by decide

theorem Program.declareItems_declared (program : Program) :
    (program.items.forM Item.declare).Checks [] CheckState.Steady (·.Begun program.items)
      fun _ _ after => program.Declared after.table ∧
        after.Outside after.table.sight (after.table.current.map Symbol.name) := by
  have items (start : CheckState) : (program.items.forM Item.declare).Checks [] CheckState.Grown
      (fun state => state = start ∧ state.Begun program.items) fun _ _ after =>
        ∃ final taken, HeadsTyped start.table.sight (start.table.current.map Symbol.name)
          program.items final ∧ after.At final taken false .void :=
    (declareItems_checks program.items).of_pre fun _ ⟨same, begun⟩ => same ▸ begun.at
  refine ((checks_from items).mono ?_).of_rel fun grown =>
    ⟨grown.loopDepth, grown.switchDepth, grown.expectedResult⟩
  rintro _ _ _ after _ _ ⟨start, begun, grown, final, taken, typed, here⟩
  have same : after.table.sight = final := here.shows.sight
  subst same
  have names : after.table.current.map Symbol.name = taken := here.shows.taken
  subst names
  refine ⟨Program.declared_of_heads begun.outline grown.registry grown.history grown.fields typed,
    here.shows, ?_, ?_⟩
  · exact grown.loopDepth.trans begun.loopDepth
  · exact grown.switchDepth.trans begun.switchDepth

theorem Program.declaring_checks (program : Program) :
    program.declaring.Checks [] CheckState.Steady (·.Begun program.items)
      fun _ _ after => program.Declared after.table ∧
        after.Outside after.table.sight (after.table.current.map Symbol.name) := by
  have classes : (declareClasses program.items).Checks [] CheckState.Steady
      (·.Begun program.items) fun _ _ after => after.Begun program.items :=
    ((declareClasses_checks program.items fun _ member => member).of_pre fun _ begun =>
      begun.outline).mono fun _ _ _ _ begun steady outline => begun.steady steady outline
  have fields (classes : List ClassDecl) : (classes.forM ClassDecl.declareFields).Checks []
      CheckState.Steady (·.Begun program.items) fun _ _ after => after.Begun program.items :=
    ((declareFields_checks classes).of_pre fun _ begun => begun.outline).mono
      fun _ _ _ _ begun steady outline => begun.steady steady outline
  refine (classes.bind (fun found => (fields found).bind (fun _ => program.declareItems_declared)
    CheckState.Steady.trans fun _ _ _ _ _ begun => begun) CheckState.Steady.trans
    fun _ _ _ _ _ begun => begun).mono ?_
  rintro _ _ _ _ _ _ ⟨_, _, _, _, _, _, declared⟩
  exact declared

theorem CheckState.begun_openScope (items : List Item) :
    CheckState.Begun items { table := SymbolTable.openScope {} } where
  outline := ⟨SymbolTable.stocked_empty.openScope, rfl, fun _ member => absurd member List.not_mem_nil⟩
  loopDepth := rfl
  switchDepth := rfl
  expectedResult := rfl

theorem Program.checkBodies_checks (program : Program) (entry : String) :
    (do checkMethods program.items; checkEntry entry program.span).Checks program.annotated
      CheckState.Passed
      (fun state : CheckState => program.Declared state.table ∧
        state.Outside state.table.sight (state.table.current.map Symbol.name))
      fun facts _ after => program.Accepted after.table facts := by
  have bodies (start : CheckState) : (do
      checkMethods program.items
      checkEntry entry program.span).Checks program.annotated CheckState.Passed
      (fun state : CheckState => state = start ∧ program.Declared state.table ∧
        state.Outside state.table.sight (state.table.current.map Symbol.name))
      fun facts _ _ => ∀ decl, Item.method decl ∈ program.items →
        decl.Typed facts start.table.sight := by
    have entered : (checkEntry entry program.span).Checks [] CheckState.Passed
        (fun _ => True) fun _ _ _ => True := (checkEntry_checks entry program.span).of_rel
      fun kept => ⟨kept.table, kept.loopDepth, kept.switchDepth⟩
    have typed : (checkMethods program.items).Checks program.annotated CheckState.Passed
        (fun state => state.Outside start.table.sight (start.table.current.map Symbol.name) ∧
          ∀ item ∈ program.items, item.HeadTyped start.table.sight) _ :=
      checkMethods_checks program.items
    refine (((typed.bind (fun _ => entered) CheckState.Passed.trans fun _ _ _ _ _ _ =>
      trivial).of_eq (List.append_nil _)).of_pre ?_).mono ?_
    · rintro state ⟨rfl, declared, outside⟩
      exact ⟨outside, declared.heads⟩
    · rintro _ facts _ _ _ _ ⟨_, _, typed, _⟩
      exact typed
  refine (checks_from bodies).mono ?_
  rintro _ facts _ after _ _ ⟨start, ⟨declared, outside⟩, passed, typed⟩
  have recorded := outside.shows.recorded
  refine ⟨declared.extends recorded passed.table, ?_⟩
  rw [passed.table.sight recorded]
  exact typed

theorem Program.check_records (program : Program) (entry : String) :
    ∃ log, (program.checking entry).Makes {} log ∧ log.map Prod.fst = program.annotated ∧
      ((program.check entry).tally = 0 → ∀ facts : Facts, (∀ entry ∈ log, facts entry.1 entry.2) →
        program.Accepted (program.check entry).table facts) := by
  have checks : (do
      program.declaring
      (do checkMethods program.items; checkEntry entry program.span)).Checks program.annotated
      (fun _ _ => True) (·.Begun program.items) fun facts _ after =>
        program.Accepted after.table facts := by
    refine ((program.declaring_checks.of_rel fun _ => trivial).bind (fun _ =>
      (program.checkBodies_checks entry).of_rel fun _ => trivial) (fun _ _ => trivial)
      fun _ _ _ _ _ declared => declared).mono ?_
    rintro _ _ _ _ _ _ ⟨_, _, _, accepted⟩
    exact accepted
  obtain ⟨_, _, log, makes, keys, holds⟩ := checks { table := SymbolTable.openScope {} }
  have whole : (program.checking entry).Makes {} ([] ++ log) :=
    .bind (.quiet (f := openScope) (fun _ => rfl) {}) makes
  exact ⟨log, whole, keys, fun quiet => holds quiet (CheckState.begun_openScope program.items)⟩

/-- A check without notes accepts a program whose nodes are numbered, with the types that it has
recorded. -/
theorem Program.accepted_of_quiet {program : Program} {entry : String} (numbered : program.IsNumbered)
    (quiet : (program.check entry).tally = 0) :
    program.Accepted (program.check entry).table fun id tag =>
      (program.check entry).annotations.type? id = some tag := by
  obtain ⟨log, makes, keys, holds⟩ := program.check_records entry
  refine holds quiet _ fun entry member => ?_
  have once : (log.map Prod.fst).Nodup := keys ▸ Program.annotated_nodup numbered.nodup
  exact makes.annotations_eq ▸ Annotations.type?_recordAll once member

end StackCode
