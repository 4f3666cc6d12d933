import StackCode.Proofs.Typing.StmtSound

namespace StackCode

open Checking

namespace Registry

variable {registry larger : Registry} {tag : Tag} {name : String}

theorem name?_of_longer (longer : registry.names <+: larger.names)
    (named : registry.name? tag = some name) : larger.name? tag = some name := by
  rw [name?_eq_some_iff] at named ⊢
  obtain ⟨low, found⟩ := named
  obtain ⟨inside, _⟩ := List.getElem?_eq_some_iff.mp found
  rw [← found, List.prefix_iff_getElem?.mp longer _ inside, List.getElem?_eq_getElem inside]
  exact ⟨low, rfl⟩

theorem Valued.of_longer (longer : registry.names <+: larger.names)
    (valued : registry.Valued tag) : larger.Valued tag := by
  refine ⟨valued.1, valued.2.imp_right fun isClass => ?_⟩
  obtain ⟨name, named⟩ := Registry.isClass_iff_named.mp isClass
  exact Option.isSome_iff_exists.mpr ⟨name, name?_of_longer longer named⟩

theorem register_names (registry : Registry) (name : String) :
    (registry.register name).2.names = registry.names ∨
      (registry.register name).2.names = registry.names ++ [name] := by
  change (registry.classes.register name).2.order = registry.classes.order ∨
    (registry.classes.register name).2.order = registry.classes.order ++ [name]
  rcases registry.classes.register_cases name with ⟨_, _, same⟩ | ⟨_, _, same⟩ | ⟨_, _, same⟩
  · exact .inl (by rw [same])
  · exact .inl (by rw [same])
  · exact .inr (by rw [same, ClassTags.order, List.map_cons, List.reverse_cons]; rfl)

theorem names_register (registry : Registry) (name : String) :
    registry.names <+: (registry.register name).2.names := by
  rcases registry.register_names name with same | more
  · rw [same]
  · rw [more]
    exact List.prefix_append _ _

theorem tag?_eq_some_iff : registry.tag? name = some tag ↔ registry.name? tag = some name :=
  (registry.lists.tag? name tag).trans (registry.lists.name? name tag).symm

theorem name?_register (registry : Registry) (name : String) :
    (registry.register name).1 = .unknown ∨
      (registry.register name).2.name? (registry.register name).1 = some name := by
  change (registry.classes.register name).1 = .unknown ∨
    (registry.classes.register name).2.name? (registry.classes.register name).1 = some name
  rcases registry.classes.register_cases name with ⟨tag, known, same⟩ | ⟨_, _, same⟩ | ⟨_, _, same⟩
  · rw [same]
    exact .inr (tag?_eq_some_iff.mp known)
  · exact .inl (by rw [same])
  · rw [same]
    exact .inr List.lookup_cons_self

end Registry

/-- The symbol of a class, with its own tag or none. -/
def Symbol.Outlined (registry : Registry) (symbol : Symbol) : Prop :=
  symbol.kind = .classType ∧ (symbol.type = .unknown ∨ registry.name? symbol.type = some symbol.name)

namespace SymbolTable

variable {table : SymbolTable}

/-- What is in sight is as `Good` says, and the fields of the classes as `Member` does. -/
structure Stocked (Good Member : Registry → Symbol → Prop) (table : SymbolTable) : Prop where
  recorded : table.Recorded
  symbols : ∀ symbol ∈ table.visible, Good table.registry symbol
  fields : ∀ className, ∀ symbol ∈ table.fieldsOf className, Member table.registry symbol

theorem mem_withClass {fields : List (String × List Nat)} {className : String}
    {entry : String × List Nat} (member : entry ∈ withClass fields className) :
    entry ∈ fields ∨ entry = (className, []) := by
  unfold withClass at member
  split at member
  · exact .inl member
  · simpa using member

theorem lookup_withClass (fields : List (String × List Nat)) (className other : String) :
    ((withClass fields className).lookup other).getD [] = (fields.lookup other).getD [] := by
  unfold withClass
  split
  · rfl
  · rename_i absent
    rw [List.lookup_append]
    cases found : fields.lookup other with
    | some ids => rfl
    | none =>
      simp only [Option.none_or, List.lookup_cons, List.lookup_nil]
      cases other == className <;> rfl

theorem lookup_map_append (entries : List (String × List Nat)) (className other : String) (id : Nat) :
    (entries.map fun (name, ids) => if name == className then (name, ids ++ [id]) else (name, ids)).lookup
      other = (entries.lookup other).map fun ids => if other = className then ids ++ [id] else ids := by
  induction entries with
  | nil => rfl
  | cons entry rest ih =>
    obtain ⟨name, ids⟩ := entry
    by_cases same : other = name
    · subst same
      by_cases here : other = className <;> simp [here]
    · have different : (other == name) = false := beq_eq_false_iff_ne.mpr same
      rw [List.map_cons, List.lookup_cons (b := ids), different, ← ih]
      dsimp only
      by_cases here : (name == className) = true
      · rw [if_pos here, List.lookup_cons, different]
      · rw [if_neg here, List.lookup_cons, different]

theorem lookup_withField (fields : List (String × List Nat)) (className other : String) (id : Nat) :
    ((withField fields className id).lookup other).getD [] =
      if other = className then (fields.lookup className).getD [] ++ [id]
      else (fields.lookup other).getD [] := by
  rw [← lookup_withClass fields className className, ← lookup_withClass fields className other,
    withField, lookup_map_append]
  by_cases same : other = className
  · subst same
    obtain ⟨ids, listed⟩ : ∃ ids, (withClass fields other).lookup other = some ids := by
      unfold withClass
      split
      · exact Option.isSome_iff_exists.mp ‹_›
      · rename_i absent
        rw [List.lookup_append, Option.not_isSome_iff_eq_none.mp absent]
        exact ⟨[], by simp⟩
    simp [listed]
  · simp [same]

theorem mem_lookup_withField {fields : List (String × List Nat)} {className other : String}
    {id position : Nat}
    (member : id ∈ ((withField fields className position).lookup other).getD []) :
    id ∈ (fields.lookup other).getD [] ∨ id = position := by
  rw [lookup_withField] at member
  split at member
  · rename_i same
    rw [same]
    simpa using member
  · exact .inl member

theorem mem_withField {fields : List (String × List Nat)} {className : String} {position id : Nat}
    {entry : String × List Nat} (member : entry ∈ withField fields className position)
    (inside : id ∈ entry.2) : id = position ∨ ∃ other ∈ fields, id ∈ other.2 := by
  rw [withField, List.mem_map] at member
  obtain ⟨⟨name, ids⟩, old, rfl⟩ := member
  have known : id ∈ ids → ∃ other ∈ fields, id ∈ other.2 := by
    intro listed
    rcases mem_withClass old with old | new
    · exact ⟨_, old, listed⟩
    · obtain ⟨rfl, rfl⟩ := Prod.mk.inj new
      cases listed
  dsimp only at inside
  split at inside
  · rcases List.mem_append.mp inside with listed | new
    · exact .inr (known listed)
    · exact .inl (List.mem_singleton.mp new)
  · exact .inr (known inside)

theorem declareClass?_eq (table : SymbolTable) (name : Ident) (decl : Span) :
    table.declareClass? name decl = if (table.lookupCurrent? name.name).isSome then none
      else some { table.push name (table.registry.register name.name).1 .classDecl .classType decl with
        registry := (table.registry.register name.name).2
        fields := withClass table.fields name.name } := rfl

section Field

variable {className : String} {name : Ident} {type : Tag} {decl : Span} {later : SymbolTable}

theorem declareField?_eq_some (declared : table.declareField? className name type decl = some later) :
    later = { table with
      history := table.history.push (table.symbol name type .field (.var false) decl)
      fields := withField table.fields className table.history.size } := by
  rw [declareField?] at declared
  split at declared
  · cases declared
  · exact (Option.some.inj declared).symm

variable (recorded : table.Recorded)
  (declared : table.declareField? className name type decl = some later)

include recorded declared

theorem recorded_declareField : later.Recorded := by
  rw [declareField?_eq_some declared]
  constructor
  · intro id member
    have := recorded.active id member
    simp only [Array.size_push]
    omega
  · intro entry member id inside
    simp only [Array.size_push]
    rcases mem_withField member inside with rfl | ⟨other, old, inside⟩
    · omega
    · have := recorded.fields other old id inside
      omega

theorem visible_declareField : later.visible = table.visible := by
  rw [declareField?_eq_some declared]
  exact symbolsAt_of_longer (by simp) recorded.active

theorem mem_fieldsOf_declareField {other : String} {symbol : Symbol} (member : symbol ∈ later.fieldsOf other) :
    symbol ∈ table.fieldsOf other ∨ symbol = table.symbol name type .field (.var false) decl := by
  rw [declareField?_eq_some declared, fieldsOf, symbolsAt, List.mem_filterMap] at member
  obtain ⟨id, listed, found⟩ := member
  rcases mem_lookup_withField listed with old | rfl
  · have same : fieldsOf { table with
        history := table.history.push (table.symbol name type .field (.var false) decl) } other =
        table.fieldsOf other := by
      apply fieldsOf_of_longer recorded
      · simp
      · rfl
    rw [← same]
    exact .inl (List.mem_filterMap.mpr ⟨id, old, found⟩)
  · rw [Array.getElem?_push_size, Option.some.injEq] at found
    exact .inr found.symm

end Field

theorem Stocked.extends {Good Member : Registry → Symbol → Prop} (stocked : table.Stocked Good Member)
    {later : SymbolTable} (longer : table.Extends later) : later.Stocked Good Member where
  recorded := stocked.recorded.extends longer
  symbols := by
    rw [longer.visible stocked.recorded, longer.registry]
    exact stocked.symbols
  fields := by
    intro className
    rw [fieldsOf_of_longer stocked.recorded longer.history longer.fields, longer.registry]
    exact stocked.fields className

namespace Stocked

variable {Good Member : Registry → Symbol → Prop} (stocked : table.Stocked Good Member)
  {later : SymbolTable} {name : Ident} {type : Tag} {decl : Span}

include stocked

theorem openScope : table.openScope.Stocked Good Member :=
  ⟨⟨stocked.recorded.active, stocked.recorded.fields⟩, stocked.symbols, stocked.fields⟩

theorem closeScope : (table.closeScope?.getD table).Stocked Good Member := by
  unfold closeScope?
  split
  · exact stocked
  · refine ⟨⟨fun id member => ?_, stocked.recorded.fields⟩, fun symbol member => ?_, stocked.fields⟩
    · exact stocked.recorded.active id (List.mem_of_mem_drop member)
    · obtain ⟨id, listed, found⟩ := List.mem_filterMap.mp member
      exact stocked.symbols symbol (List.mem_filterMap.mpr ⟨id, List.mem_of_mem_drop listed, found⟩)

theorem declare {site : Site} {kind : SymbolKind}
    (declared : (if (table.lookupCurrent? name.name).isSome then none
      else some (table.push name type site kind decl)) = some later)
    (good : Good table.registry (table.symbol name type site kind decl)) :
    later.Stocked Good Member ∧ later.registry = table.registry := by
  split at declared
  · cases declared
  · cases declared
    refine ⟨⟨recorded_push stocked.recorded name type site kind decl, ?_, fun className => ?_⟩, rfl⟩
    · rw [visible_push name type site kind decl stocked.recorded]
      exact List.forall_mem_cons.mpr ⟨good, stocked.symbols⟩
    · rw [fieldsOf_of_longer stocked.recorded (history_push name type site kind decl) rfl]
      exact stocked.fields className

theorem declareVar {constant : Bool} {site : Site}
    (good : Good table.registry (table.symbol name type site (.var constant) decl))
    (declared : table.declareVar? name type constant site decl = some later) :
    later.Stocked Good Member ∧ later.registry = table.registry :=
  stocked.declare declared good

theorem declareMethod {params : List Tag}
    (good : Good table.registry (table.symbol name type .method (.method type params) decl))
    (declared : table.declareMethod? name type params decl = some later) :
    later.Stocked Good Member ∧ later.registry = table.registry :=
  stocked.declare declared good

theorem declareClass
    (symbols : ∀ symbol, Good table.registry symbol → Good (table.registry.register name.name).2 symbol)
    (members : ∀ symbol, Member table.registry symbol → Member (table.registry.register name.name).2 symbol)
    (good : Good (table.registry.register name.name).2
      (table.symbol name (table.registry.register name.name).1 .classDecl .classType decl))
    (declared : table.declareClass? name decl = some later) : later.Stocked Good Member := by
  rw [declareClass?_eq] at declared
  split at declared
  · cases declared
  · cases declared
    have pushed := recorded_push stocked.recorded name (table.registry.register name.name).1 .classDecl
      .classType decl
    have visible := visible_push name (table.registry.register name.name).1 .classDecl .classType decl
      stocked.recorded
    refine ⟨⟨pushed.active, fun entry member => ?_⟩, fun symbol member => ?_, fun className symbol member => ?_⟩
    · rcases mem_withClass member with old | rfl
      · exact pushed.fields entry old
      · exact fun id inside => absurd inside List.not_mem_nil
    · rcases List.mem_cons.mp (visible ▸ member) with rfl | old
      · exact good
      · exact symbols symbol (stocked.symbols symbol old)
    · refine members symbol (stocked.fields className symbol ?_)
      rw [← fieldsOf_of_longer stocked.recorded (history_push name _ .classDecl .classType decl) rfl className,
        fieldsOf, ← lookup_withClass _ name.name]
      exact member

theorem declareField {className : String}
    (good : Member table.registry (table.symbol name type .field (.var false) decl))
    (declared : table.declareField? className name type decl = some later) :
    later.Stocked Good Member ∧ later.registry = table.registry := by
  have registry : later.registry = table.registry := by rw [declareField?_eq_some declared]
  refine ⟨⟨recorded_declareField stocked.recorded declared, ?_, fun other symbol member => ?_⟩, registry⟩
  · rw [visible_declareField stocked.recorded declared, registry]
    exact stocked.symbols
  · rw [registry]
    rcases mem_fieldsOf_declareField stocked.recorded declared member with old | rfl
    · exact stocked.fields other symbol old
    · exact good

end Stocked

theorem stocked_empty {Good Member : Registry → Symbol → Prop} : SymbolTable.Stocked Good Member {} where
  recorded := ⟨fun _ member => absurd member List.not_mem_nil, fun _ member => absurd member List.not_mem_nil⟩
  symbols := fun _ member => absurd member List.not_mem_nil
  fields := fun _ _ member => absurd member List.not_mem_nil

/-- A table that has classes only, and fields of types that have values. -/
structure Outline (items : List Item) (table : SymbolTable) : Prop extends
    table.Stocked Symbol.Outlined fun registry symbol => registry.Valued symbol.type where
  boundaries : table.boundaries = [0]
  named : ∀ name ∈ table.registry.names, ∃ decl, Item.classDecl decl ∈ items ∧ decl.name.name = name

theorem Outline.extends {items : List Item} (outline : table.Outline items) {later : SymbolTable}
    (longer : table.Extends later) : later.Outline items :=
  ⟨outline.toStocked.extends longer, longer.boundaries.trans outline.boundaries,
    longer.registry ▸ outline.named⟩

namespace Outline

variable {items : List Item} (outline : table.Outline items) {later : SymbolTable}

include outline

theorem declareClass {decl : ClassDecl} (listed : Item.classDecl decl ∈ items)
    (declared : table.declareClass? decl.name decl.span = some later) : later.Outline items := by
  have longer := table.registry.names_register decl.name.name
  have stocked := outline.toStocked.declareClass
    (fun symbol outlined => outlined.imp_right fun known => known.imp_right (Registry.name?_of_longer longer))
    (fun symbol valued => valued.of_longer longer) ⟨rfl, table.registry.name?_register decl.name.name⟩
    declared
  rw [declareClass?_eq] at declared
  split at declared
  · cases declared
  · cases declared
    refine ⟨stocked, outline.boundaries, fun other member => ?_⟩
    rcases table.registry.register_names decl.name.name with same | more
    · exact outline.named other (same ▸ member)
    · have member : other ∈ table.registry.names ++ [decl.name.name] := more ▸ member
      rcases List.mem_append.mp member with old | new
      · exact outline.named other old
      · exact ⟨_, listed, (List.mem_singleton.mp new).symm⟩

theorem declareField {className : String} {name : Ident} {type : Tag} {decl : Span}
    (valued : table.registry.Valued type)
    (declared : table.declareField? className name type decl = some later) : later.Outline items := by
  obtain ⟨stocked, registry⟩ := outline.toStocked.declareField valued declared
  refine ⟨stocked, ?_, registry ▸ outline.named⟩
  rw [declareField?_eq_some declared]
  exact outline.boundaries

end Outline

end SymbolTable

structure CheckState.Steady (before after : CheckState) : Prop where
  loopDepth : after.loopDepth = before.loopDepth
  switchDepth : after.switchDepth = before.switchDepth
  expectedResult : after.expectedResult = before.expectedResult

namespace CheckState

variable {a b c : CheckState}

theorem Steady.trans (first : a.Steady b) (second : b.Steady c) : a.Steady c :=
  ⟨second.loopDepth.trans first.loopDepth, second.switchDepth.trans first.switchDepth,
    second.expectedResult.trans first.expectedResult⟩

theorem Kept.steady (kept : a.Kept b) : a.Steady b :=
  ⟨kept.loopDepth, kept.switchDepth, kept.expectedResult⟩

end CheckState

variable {items : List Item}

theorem checks_declaration {name : Ident} {declaration : SymbolTable → Option SymbolTable}
    {P Q : SymbolTable → Prop}
    (declares : ∀ table later, P table → declaration table = some later → Q later) :
    (introduce name declaration).Checks [] CheckState.Steady (fun state => P state.table)
      fun _ _ after => Q after.table := by
  intro state
  have made : (introduce name declaration).Makes state [] :=
    .quiet (annotations_introduce name declaration) state
  rw [outcome_introduce]
  cases declared : declaration state.table with
  | some later =>
    exact ⟨le_refl _, ⟨rfl, rfl, rfl⟩, [], made, rfl, fun _ holds _ _ =>
      declares _ _ holds declared⟩
  | none =>
    have noted : (report (.redeclaration name.name) name.span).Checks [] CheckState.Kept
        (fun state => P state.table) fun _ _ _ => False := checks_report _ _
    obtain ⟨grows, kept, _, _, _, holds⟩ := noted state
    exact ⟨grows, kept.steady, [], made, rfl, fun quiet here _ _ =>
      (holds quiet here (fun _ _ => True) fun _ _ => trivial).elim⟩

theorem declareClasses_checks : ∀ rest : List Item, (∀ item ∈ rest, item ∈ items) →
    (declareClasses rest).Checks [] CheckState.Steady (·.table.Outline items)
      fun _ _ after => after.table.Outline items
  | [], _ => ((checks_pure []).of_rel CheckState.Kept.steady).mono fun _ _ _ _ _ _ same => same.2
  | .classDecl decl :: rest, listed => by
    rw [declareClasses]
    have declared : (introduce decl.name (·.declareClass? decl.name decl.span)).Checks []
        CheckState.Steady (·.table.Outline items) fun _ _ after => after.table.Outline items :=
      checks_declaration fun table later outline found =>
        outline.declareClass (listed _ (by simp)) found
    have others := declareClasses_checks rest fun item member => listed item (by simp [member])
    refine (declared.bind (fun fresh => others.bind (fun classes => (checks_pure _).of_rel
      CheckState.Kept.steady) CheckState.Steady.trans fun _ _ _ _ _ outline => outline)
      CheckState.Steady.trans fun _ _ _ _ _ outline => outline).mono ?_
    rintro _ _ _ _ _ _ ⟨_, _, _, _, _, _, _, outline⟩
    exact outline
  | .const _ :: rest, listed | .vars _ :: rest, listed | .method _ :: rest, listed =>
    declareClasses_checks rest fun item member => listed item (by simp [member])

theorem SymbolTable.Outline.typeOf_cases {table : SymbolTable} (outline : table.Outline items)
    (text : String) : table.sight.typeOf text = .unknown ∨ table.sight.typeOf text = .void ∨
      table.registry.Valued (table.sight.typeOf text) := by
  refine Tag.ofBracketed_cases fun name tag found => ?_
  unfold Sight.classTag? at found
  split at found
  · rename_i type meant
    cases found
    obtain ⟨symbol, seen, same⟩ := Option.map_eq_some_iff.mp meant
    obtain ⟨_, known⟩ := outline.symbols symbol (List.mem_of_find?_eq_some seen)
    have type : symbol.type = tag := congrArg Meaning.type same
    rw [type] at known
    exact known.imp_right fun named => Option.isSome_iff_exists.mpr ⟨_, named⟩
  · cases found

theorem declareFieldNames_checks (className : String) (type : Tag) (decl : Span) :
    ∀ names : List Ident, (declareFieldNames className type decl names).Checks [] CheckState.Steady
      (fun state => state.table.Outline items ∧ state.table.registry.Valued type)
      fun _ _ after => after.table.Outline items
  | [] => ((checks_pure ()).of_rel CheckState.Kept.steady).mono fun _ _ _ _ _ _ same => same.2.1
  | name :: names => by
    rw [declareFieldNames]
    have declared : (introduce name (·.declareField? className name type decl)).Checks []
        CheckState.Steady (fun state => state.table.Outline items ∧ state.table.registry.Valued type)
        fun _ _ after => after.table.Outline items ∧ after.table.registry.Valued type := by
      refine checks_declaration (P := fun table => table.Outline items ∧ table.registry.Valued type)
        (Q := fun table => table.Outline items ∧ table.registry.Valued type) ?_
      rintro table later ⟨outline, valued⟩ found
      refine ⟨outline.declareField valued found, ?_⟩
      rw [SymbolTable.declareField?] at found
      split at found
      · cases found
      · cases found
        exact valued
    refine (declared.discard.bind (fun _ => declareFieldNames_checks className type decl names)
      CheckState.Steady.trans fun _ _ _ _ _ ⟨_, found⟩ => found).mono ?_
    rintro _ _ _ _ _ _ ⟨_, _, _, outline⟩
    exact outline

theorem declareMembers_checks (className : String) :
    ∀ decls : List VarDecl, (declareMembers className decls).Checks [] CheckState.Steady
      (·.table.Outline items) fun _ _ after => after.table.Outline items
  | [] => ((checks_pure ()).of_rel CheckState.Kept.steady).mono fun _ _ _ _ _ _ same => same.2
  | decl :: rest => by
    rw [declareMembers]
    have typed : (note (·.namedValueType decl.type)).Checks [] CheckState.Kept
        (·.table.Outline items) fun _ tag after =>
          after.table.Outline items ∧ after.table.registry.Valued tag := by
      refine (checks_note fun table => namedValueType_finds table decl.type).mono ?_
      rintro before _ _ after outline kept ⟨rfl, known, value⟩
      have outline := outline.extends kept.table
      refine ⟨outline, ?_⟩
      exact ((outline.typeOf_cases decl.type.name).resolve_left known).resolve_left value
    refine ((typed.of_rel CheckState.Kept.steady).bind (fun type =>
      (declareFieldNames_checks className type decl.span decl.names).bind
        (fun _ => declareMembers_checks className rest) CheckState.Steady.trans
        fun _ _ _ _ _ outline => outline) CheckState.Steady.trans
      fun _ _ _ _ _ found => found).mono ?_
    rintro _ _ _ _ _ _ ⟨_, _, _, _, _, _, outline⟩
    exact outline

theorem declareFields_checks : ∀ classes : List ClassDecl,
    (classes.forM ClassDecl.declareFields).Checks [] CheckState.Steady (·.table.Outline items)
      fun _ _ after => after.table.Outline items
  | [] => ((checks_pure PUnit.unit).of_rel CheckState.Kept.steady).mono
      fun _ _ _ _ _ _ same => same.2
  | decl :: rest => by
    refine ((declareMembers_checks decl.name.name decl.fields).bind
      (fun _ => declareFields_checks rest) CheckState.Steady.trans
      fun _ _ _ _ _ outline => outline).mono ?_
    rintro _ _ _ _ _ _ ⟨_, _, _, outline⟩
    exact outline

end StackCode
