import StackCode.Proofs.Typing.Outline

namespace StackCode

/-- A stack of scopes. Symbols can also be declared below the first scope that is opened. -/
structure Scoping where
  registry : Registry := {}
  /-- The open scopes, the innermost first; the newest symbol of a scope is its first. -/
  opened : List (List Symbol) := []
  base : List Symbol := []
  fields : String → List Symbol := fun _ => []
  history : List Symbol := []

namespace Scoping

variable (scoping : Scoping)

def top : List Symbol := scoping.opened.headD scoping.base

def scopes : List (List Symbol) := scoping.opened ++ [scoping.base]

def level : Int := scoping.opened.length - 1

def lookup? (name : String) : Option Symbol := scoping.scopes.findSome? (·.find? (·.name == name))

def lookupCurrent? (name : String) : Option Symbol := scoping.top.find? (·.name == name)

def lookupField? (tag : Tag) (name : String) : Option Symbol := do
  let className ← scoping.registry.name? tag
  (scoping.fields className).find? (·.name == name)

def classType (name : String) : Tag :=
  match scoping.lookup? name with
  | some symbol => if symbol.isClass then symbol.type else .unknown
  | none => .unknown

def symbol (name : Ident) (type : Tag) (site : Site) (kind : SymbolKind) (decl : Span) : Symbol :=
  ⟨name.name, name.span, decl, type, scoping.level, site, kind⟩

def add (symbol : Symbol) : Scoping :=
  { scoping with
    opened := scoping.opened.modifyHead (symbol :: ·)
    base := if scoping.opened.isEmpty then symbol :: scoping.base else scoping.base
    history := scoping.history ++ [symbol] }

end Scoping

inductive TableStep where
  | openScope
  | closeScope
  | declareVar (name : Ident) (type : Tag) (constant : Bool) (site : Site) (decl : Span)
  | declareMethod (name : Ident) (result : Tag) (params : List Tag) (decl : Span)
  | declareClass (name : Ident) (decl : Span)
  | declareField (className : String) (name : Ident) (type : Tag) (decl : Span)

def SymbolTable.attempt (table : SymbolTable) : TableStep → Option SymbolTable
  | .openScope => some table.openScope
  | .closeScope => table.closeScope?
  | .declareVar name type constant site decl => table.declareVar? name type constant site decl
  | .declareMethod name result params decl => table.declareMethod? name result params decl
  | .declareClass name decl => table.declareClass? name decl
  | .declareField className name type decl => table.declareField? className name type decl

namespace Scoping

variable (scoping : Scoping)

def refuses : TableStep → Bool
  | .openScope => false
  | .closeScope => scoping.opened.isEmpty
  | .declareVar name _ _ _ _ | .declareMethod name _ _ _ | .declareClass name _ =>
    scoping.top.any (·.name == name.name)
  | .declareField className name _ _ => (scoping.fields className).any (·.name == name.name)

def apply : TableStep → Scoping
  | .openScope => { scoping with opened := [] :: scoping.opened }
  | .closeScope => { scoping with opened := scoping.opened.tail }
  | .declareVar name type constant site decl =>
    scoping.add (scoping.symbol name type site (.var constant) decl)
  | .declareMethod name result params decl =>
    scoping.add (scoping.symbol name result .method (.method result params) decl)
  | .declareClass name decl =>
    { scoping.add (scoping.symbol name (scoping.registry.register name.name).1 .classDecl .classType decl)
      with registry := (scoping.registry.register name.name).2 }
  | .declareField className name type decl =>
    let field := scoping.symbol name type .field (.var false) decl
    { scoping with
      fields := fun other =>
        if other = className then scoping.fields className ++ [field] else scoping.fields other
      history := scoping.history ++ [field] }

end Scoping

def SymbolTable.after (steps : List TableStep) : SymbolTable :=
  steps.foldl (fun table step => (table.attempt step).getD table) {}

def Scoping.after (steps : List TableStep) : Scoping :=
  steps.foldl (fun scoping step => if scoping.refuses step then scoping else scoping.apply step) {}

/-- The positions `ids` fall into the scopes `opened`, each of which ends where the stack had the
height noted for it, and the scope `base`. -/
def Segments (base : List Nat) : (ids boundaries : List Nat) → (opened : List (List Nat)) → Prop
  | ids, [], opened => opened = [] ∧ ids = base
  | ids, start :: rest, opened => ∃ scope below scopes, opened = scope :: scopes ∧
    ids = scope ++ below ∧ below.length = start ∧ Segments base below rest scopes

namespace Segments

variable {base ids boundaries : List Nat} {opened : List (List Nat)}

theorem length_eq (segments : Segments base ids boundaries opened) :
    boundaries.length = opened.length := by
  induction boundaries generalizing ids opened with
  | nil => rw [segments.1]; rfl
  | cons start rest ih =>
    obtain ⟨scope, below, scopes, rfl, _, _, inner⟩ := segments
    rw [List.length_cons, List.length_cons, ih inner]

theorem flatten_eq (segments : Segments base ids boundaries opened) :
    ids = opened.flatten ++ base := by
  induction boundaries generalizing ids opened with
  | nil => rw [segments.1, segments.2]; rfl
  | cons start rest ih =>
    obtain ⟨scope, below, scopes, rfl, rfl, _, inner⟩ := segments
    rw [List.flatten_cons, List.append_assoc, ← ih inner]

theorem top_eq (segments : Segments base ids boundaries opened) :
    ids.take (ids.length - boundaries.headD 0) = opened.headD base := by
  cases boundaries with
  | nil =>
    obtain ⟨rfl, rfl⟩ := segments
    simp
  | cons start rest =>
    obtain ⟨scope, below, scopes, rfl, rfl, rfl, _⟩ := segments
    simp

theorem opens (segments : Segments base ids boundaries opened) :
    Segments base ids (ids.length :: boundaries) ([] :: opened) :=
  ⟨[], ids, opened, rfl, rfl, rfl, segments⟩

theorem adds (segments : Segments base ids boundaries opened) (id : Nat) :
    (opened = [] ∧ Segments (id :: base) (id :: ids) boundaries []) ∨
      ∃ scope scopes, opened = scope :: scopes ∧
        Segments base (id :: ids) boundaries ((id :: scope) :: scopes) := by
  cases boundaries with
  | nil =>
    obtain ⟨rfl, rfl⟩ := segments
    exact .inl ⟨rfl, rfl, rfl⟩
  | cons start rest =>
    obtain ⟨scope, below, scopes, rfl, rfl, height, inner⟩ := segments
    exact .inr ⟨scope, scopes, rfl, id :: scope, below, scopes, rfl, rfl, height, inner⟩

end Segments

namespace SymbolTable

variable {table later : SymbolTable} {scoping : Scoping}

structure Represents (table : SymbolTable) (scoping : Scoping) : Prop where
  recorded : table.Recorded
  registry : table.registry = scoping.registry
  history : table.history.toList = scoping.history
  fields : ∀ className, table.fieldsOf className = scoping.fields className
  segments : ∃ base opened, Segments base table.active table.boundaries opened ∧
    scoping.base = table.symbolsAt base ∧ scoping.opened = opened.map table.symbolsAt

namespace Represents

variable (represents : table.Represents scoping)

include represents

theorem level_eq : table.level = scoping.level := by
  obtain ⟨base, opened, segments, _, scopes⟩ := represents.segments
  rw [SymbolTable.level, Scoping.level, scopes, List.length_map, segments.length_eq]

theorem visible_eq : table.visible = scoping.scopes.flatten := by
  obtain ⟨base, opened, segments, below, scopes⟩ := represents.segments
  rw [SymbolTable.visible, segments.flatten_eq, Scoping.scopes, scopes, below, symbolsAt,
    List.filterMap_append, List.flatten_append, List.filterMap_flatten]
  simp only [List.flatten_cons, List.flatten_nil, List.append_nil]
  rfl

theorem current_eq : table.current = scoping.top := by
  obtain ⟨base, opened, segments, below, scopes⟩ := represents.segments
  rw [SymbolTable.current, segments.top_eq, Scoping.top, scopes, below]
  cases opened <;> rfl

theorem lookup?_eq (name : String) : table.lookup? name = scoping.lookup? name := by
  rw [SymbolTable.lookup?, represents.visible_eq, Scoping.lookup?, List.find?_flatten]

theorem lookupCurrent?_eq (name : String) :
    table.lookupCurrent? name = scoping.lookupCurrent? name := by
  rw [SymbolTable.lookupCurrent?, represents.current_eq, Scoping.lookupCurrent?]

theorem lookupField?_eq (tag : Tag) (name : String) :
    table.lookupField? tag name = scoping.lookupField? tag name := by
  rw [SymbolTable.lookupField?, Scoping.lookupField?, represents.registry]
  simp only [represents.fields]

theorem typeNamed_eq {name : String} (free : Tag.keyword? name = none) :
    table.typeNamed name = scoping.classType name := by
  rw [typeNamed, Tag.ofName, free, Option.none_or, classTag?, Scoping.classType,
    represents.lookup?_eq]
  cases scoping.lookup? name with
  | none => rfl
  | some symbol =>
    cases isClass : symbol.isClass
    · simp only [isClass, Bool.false_eq_true, if_false, Option.getD_none]
    · simp only [isClass, if_true, Option.getD_some]

theorem isTaken_eq (name : String) :
    (table.lookupCurrent? name).isSome = scoping.top.any (·.name == name) := by
  rw [SymbolTable.lookupCurrent?, represents.current_eq, List.isSome_find?]

theorem symbolsAt_map (longer : table.history.toList <+: later.history.toList) {base : List Nat}
    {opened : List (List Nat)} (segments : Segments base table.active table.boundaries opened) :
    later.symbolsAt base = table.symbolsAt base ∧
      opened.map later.symbolsAt = opened.map table.symbolsAt := by
  have recorded := represents.recorded.active
  rw [segments.flatten_eq] at recorded
  refine ⟨symbolsAt_of_longer longer fun id member => recorded id (List.mem_append_right _ member),
    List.map_congr_left fun scope listed => symbolsAt_of_longer longer fun id member => ?_⟩
  exact recorded id (List.mem_append_left _ (List.mem_flatten_of_mem listed member))

theorem openScope : table.openScope.Represents (scoping.apply .openScope) where
  recorded := ⟨represents.recorded.active, represents.recorded.fields⟩
  registry := represents.registry
  history := represents.history
  fields := represents.fields
  segments := by
    obtain ⟨base, opened, segments, below, scopes⟩ := represents.segments
    refine ⟨base, [] :: opened, segments.opens, below, ?_⟩
    rw [Scoping.apply, scopes]
    rfl

theorem closeScope {closed : SymbolTable} (closes : table.closeScope? = some closed) :
    closed.Represents (scoping.apply .closeScope) := by
  obtain ⟨base, opened, segments, below, scopes⟩ := represents.segments
  unfold closeScope? at closes
  cases bounded : table.boundaries with
  | nil => rw [bounded] at closes; cases closes
  | cons start rest =>
    rw [bounded] at closes segments
    obtain ⟨scope, ids, others, rfl, active, rfl, inner⟩ := segments
    cases closes
    have kept : table.active.drop (table.active.length - ids.length) = ids := by
      rw [active, List.length_append, Nat.add_sub_cancel, List.drop_left]
    refine ⟨⟨fun id member => represents.recorded.active id (List.mem_of_mem_drop member),
      represents.recorded.fields⟩, represents.registry, represents.history, represents.fields,
      base, others, ?_, below, ?_⟩
    · rw [kept]
      exact inner
    · rw [Scoping.apply, scopes]
      rfl

section Push

variable (name : Ident) (type : Tag) (site : Site) (kind : SymbolKind) (decl : Span)

theorem symbol_eq : table.symbol name type site kind decl = scoping.symbol name type site kind decl := by
  rw [SymbolTable.symbol, Scoping.symbol, represents.level_eq]

theorem push : (table.push name type site kind decl).Represents
    (scoping.add (scoping.symbol name type site kind decl)) := by
  have longer : table.history.toList <+: (table.push name type site kind decl).history.toList :=
    history_push name type site kind decl
  have recorded := represents.recorded
  have added := represents.symbol_eq name type site kind decl
  obtain ⟨base, opened, segments, below, scopes⟩ := represents.segments
  obtain ⟨sameBase, sameOpened⟩ := represents.symbolsAt_map longer segments
  have first : ∀ ids, (∀ id ∈ ids, id ∈ table.active) →
      (table.push name type site kind decl).symbolsAt (table.history.size :: ids) =
        scoping.symbol name type site kind decl :: table.symbolsAt ids := fun ids member => by
    rw [symbolsAt_push name type site kind decl recorded member, added]
  have active := segments.flatten_eq
  have history : (table.push name type site kind decl).history.toList =
      scoping.history ++ [scoping.symbol name type site kind decl] := by
    rw [← represents.history, ← added]
    simp [SymbolTable.push, SymbolTable.symbol]
  have fields : ∀ className, (table.push name type site kind decl).fieldsOf className =
      scoping.fields className := fun className => by
    rw [fieldsOf_of_longer recorded longer rfl, represents.fields]
  have recordedLater := recorded_push recorded name type site kind decl
  rcases segments.adds table.history.size with ⟨rfl, added⟩ | ⟨scope, others, rfl, added⟩
  · refine ⟨recordedLater, represents.registry, history, fields, _, _, added, ?_, ?_⟩
    · rw [first base fun id member => active ▸ member, Scoping.add, scopes, below]
      rfl
    · rw [Scoping.add, scopes]
      rfl
  · refine ⟨recordedLater, represents.registry, history, fields, _, _, added, ?_, ?_⟩
    · rw [sameBase, ← below, Scoping.add, scopes]
      rfl
    · rw [List.map_cons] at sameOpened
      rw [List.map_cons, (List.cons.inj sameOpened).2, first scope fun id member => ?_, Scoping.add, scopes]
      · rfl
      · rw [active, List.flatten_cons]
        exact List.mem_append_left _ (List.mem_append_left _ member)

end Push

theorem declareClass {name : Ident} {decl : Span}
    (declared : table.declareClass? name decl = some later) :
    later.Represents (scoping.apply (.declareClass name decl)) := by
  rw [declareClass?_eq, represents.registry] at declared
  split at declared
  · cases declared
  · cases declared
    have pushed := represents.push name (scoping.registry.register name.name).1 .classDecl .classType decl
    refine ⟨⟨pushed.recorded.active, fun entry member id inside => ?_⟩, rfl, pushed.history,
      fun className => ?_, pushed.segments⟩
    · rcases mem_withClass member with member | rfl
      · exact pushed.recorded.fields entry member id inside
      · cases inside
    · have same := pushed.fields className
      unfold fieldsOf at same ⊢
      rw [← lookup_withClass _ name.name] at same
      exact same

theorem declareField {className : String} {name : Ident} {type : Tag} {decl : Span}
    (declared : table.declareField? className name type decl = some later) :
    later.Represents (scoping.apply (.declareField className name type decl)) := by
  unfold declareField? at declared
  split at declared
  · cases declared
  · cases declared
    have recorded := represents.recorded
    have added := represents.symbol_eq name type .field (.var false) decl
    have longer : table.history.toList <+:
        (table.history.push (table.symbol name type .field (.var false) decl)).toList := by simp
    obtain ⟨base, opened, segments, below, scopes⟩ := represents.segments
    refine ⟨⟨?_, ?_⟩, represents.registry, ?_, fun other => ?_, base, opened, segments, ?_, ?_⟩
    · intro id member
      have := recorded.active id member
      simp only [Array.size_push]
      omega
    · intro entry member id inside
      simp only [Array.size_push]
      rcases mem_withField member inside with rfl | ⟨other, old, inside⟩
      · omega
      · have := recorded.fields other old id inside
        omega
    · simp only [Array.toList_push, represents.history]
      rw [Scoping.apply, ← added]
      rfl
    · have old : ∀ other, fieldsOf { table with
          history := table.history.push (table.symbol name type .field (.var false) decl) } other =
            table.fieldsOf other := fieldsOf_of_longer recorded longer rfl
      simp only [fieldsOf, lookup_withField, Scoping.apply] at old ⊢
      by_cases same : other = className
      · subst same
        rw [if_pos rfl, if_pos rfl, ← represents.fields, fieldsOf, ← old, ← added]
        simp [symbolsAt, SymbolTable.symbol]
      · rw [if_neg same, if_neg same, ← represents.fields]
        exact old other
    · exact below.trans (represents.symbolsAt_map longer segments).1.symm
    · exact scopes.trans (represents.symbolsAt_map longer segments).2.symm

theorem declare {name : Ident} {next : SymbolTable} {plain : Scoping} {result : Option SymbolTable}
    (declares : result = if (table.lookupCurrent? name.name).isSome then none else some next)
    (alike : result = some next → next.Represents plain) :
    (scoping.top.any (·.name == name.name) = true ∧ result = none) ∨
      (scoping.top.any (·.name == name.name) = false ∧ ∃ next, result = some next ∧
        next.Represents plain) := by
  rw [represents.isTaken_eq] at declares
  cases taken : scoping.top.any (·.name == name.name) with
  | true => exact .inl ⟨rfl, by rw [declares, taken]; rfl⟩
  | false =>
    have made : result = some next := by rw [declares, taken]; rfl
    exact .inr ⟨rfl, next, made, alike made⟩

/-- A step on the table is refused where it is on the scopes, and else both stay alike. -/
theorem attempt (step : TableStep) :
    (scoping.refuses step = true ∧ table.attempt step = none) ∨
      (scoping.refuses step = false ∧ ∃ next, table.attempt step = some next ∧
        next.Represents (scoping.apply step)) := by
  cases step with
  | openScope => exact .inr ⟨rfl, _, rfl, represents.openScope⟩
  | closeScope =>
    obtain ⟨base, opened, segments, _, scopes⟩ := represents.segments
    have count := segments.length_eq
    rw [Scoping.refuses, scopes, SymbolTable.attempt]
    cases bounded : table.boundaries with
    | nil =>
      rw [bounded] at count
      rw [List.length_eq_zero_iff.mp count.symm, closeScope?, bounded]
      exact .inl ⟨rfl, rfl⟩
    | cons start rest =>
      rw [bounded] at count
      obtain ⟨scope, others, rfl⟩ := List.exists_cons_of_length_eq_add_one count.symm
      have closes : table.closeScope? = some { table with
          active := table.active.drop (table.active.length - start), boundaries := rest } := by
        rw [closeScope?, bounded]
      exact .inr ⟨rfl, _, closes, represents.closeScope closes⟩
  | declareVar name type constant site decl =>
    exact represents.declare rfl fun _ => represents.push name type site (.var constant) decl
  | declareMethod name result params decl =>
    exact represents.declare rfl fun _ =>
      represents.push name result .method (.method result params) decl
  | declareClass name decl =>
    exact represents.declare (table.declareClass?_eq name decl) represents.declareClass
  | declareField className name type decl =>
    rw [Scoping.refuses, ← represents.fields, SymbolTable.attempt]
    cases taken : (table.fieldsOf className).any (·.name == name.name) with
    | true => exact .inl ⟨rfl, by rw [declareField?, taken]; rfl⟩
    | false =>
      obtain ⟨next, made⟩ : ∃ next, table.declareField? className name type decl = some next := by
        rw [declareField?, taken]
        exact ⟨_, rfl⟩
      exact .inr ⟨rfl, next, made, represents.declareField made⟩

end Represents

theorem represents_foldl {table : SymbolTable} {scoping : Scoping}
    (represents : table.Represents scoping) (steps : List TableStep) :
    (steps.foldl (fun table step => (table.attempt step).getD table) table).Represents
      (steps.foldl (fun scoping step => if scoping.refuses step then scoping else scoping.apply step)
        scoping) := by
  induction steps generalizing table scoping with
  | nil => exact represents
  | cons step steps ih =>
    rw [List.foldl_cons, List.foldl_cons]
    apply ih
    rcases represents.attempt step with ⟨refused, none⟩ | ⟨granted, next, some, alike⟩
    · rw [none, if_pos refused]
      exact represents
    · rw [some, granted]
      exact alike

theorem represents_empty : SymbolTable.Represents {} {} where
  recorded := ⟨nofun, nofun⟩
  registry := rfl
  history := rfl
  fields _ := rfl
  segments := ⟨[], [], ⟨rfl, rfl⟩, rfl, rfl⟩

theorem after_represents (steps : List TableStep) :
    (SymbolTable.after steps).Represents (Scoping.after steps) :=
  represents_foldl represents_empty steps

end SymbolTable

def TableStep.declared? : TableStep → Option String
  | .openScope | .closeScope => none
  | .declareVar name _ _ _ _ | .declareMethod name _ _ _ | .declareClass name _
  | .declareField _ name _ _ => some name.name

theorem SymbolTable.history_of_attempt {table next : SymbolTable} {step : TableStep} {name : String}
    (declares : step.declared? = some name) (made : table.attempt step = some next) :
    ∃ symbol, symbol.name = name ∧ symbol.level = table.level ∧
      next.history = table.history.push symbol := by
  cases step with
  | openScope => cases declares
  | closeScope => cases declares
  | declareVar ident type constant site decl =>
    cases declares
    simp only [attempt, declareVar?] at made
    split at made
    · cases made
    · cases made
      exact ⟨_, rfl, rfl, rfl⟩
  | declareMethod ident result params decl =>
    cases declares
    simp only [attempt, declareMethod?] at made
    split at made
    · cases made
    · cases made
      exact ⟨_, rfl, rfl, rfl⟩
  | declareClass ident decl =>
    cases declares
    rw [attempt, declareClass?_eq] at made
    split at made
    · cases made
    · cases made
      exact ⟨_, rfl, rfl, rfl⟩
  | declareField className ident type decl =>
    cases declares
    simp only [attempt, declareField?] at made
    split at made
    · cases made
    · cases made
      exact ⟨_, rfl, rfl, rfl⟩

theorem SymbolTable.Represents.visible_closeScope {table closed : SymbolTable} {scoping : Scoping}
    (represents : table.Represents scoping) (closes : table.closeScope? = some closed) :
    closed.visible = scoping.scopes.tail.flatten ∧ closed.history = table.history ∧
      closed.fields = table.fields ∧ closed.registry = table.registry := by
  have behind := (represents.closeScope closes).visible_eq
  obtain ⟨base, opened, segments, _, scopes⟩ := represents.segments
  unfold closeScope? at closes
  split at closes
  · cases closes
  · rename_i bounded
    rw [bounded] at segments
    obtain ⟨scope, _, others, rfl, _⟩ := segments
    cases closes
    refine ⟨?_, rfl, rfl, rfl⟩
    rw [behind, Scoping.scopes, Scoping.scopes, Scoping.apply, scopes]
    rfl

/-- Whatever has been done to a symbol table, it shows lexical scoping. -/
theorem SymbolTable.lexical_scoping (steps : List TableStep) :
    let table := SymbolTable.after steps
    let plain := Scoping.after steps
    (∀ name, table.lookup? name = plain.lookup? name) ∧
    (∀ name, table.lookupCurrent? name = plain.lookupCurrent? name) ∧
    table.level = plain.level ∧
    (∀ name, Tag.keyword? name = none → table.typeNamed name = plain.classType name) ∧
    (∀ tag name, table.lookupField? tag name = plain.lookupField? tag name) ∧
    (∀ className, table.fieldsOf className = plain.fields className) ∧
    table.history.toList = plain.history ∧ table.registry = plain.registry ∧
    (∀ step, (table.attempt step = none ↔ plain.refuses step = true) ∧
      (table.attempt step = none → SymbolTable.after (steps ++ [step]) = table) ∧
      ∀ name next, step.declared? = some name → table.attempt step = some next →
        ∃ symbol, symbol.name = name ∧ symbol.level = plain.level ∧
          next.history = table.history.push symbol) ∧
    ∀ closed, table.closeScope? = some closed → closed.visible = plain.scopes.tail.flatten ∧
      closed.history = table.history ∧ closed.fields = table.fields ∧
      closed.registry = table.registry := by
  intro table plain
  have represents : table.Represents plain := SymbolTable.after_represents steps
  refine ⟨represents.lookup?_eq, represents.lookupCurrent?_eq, represents.level_eq,
    fun _ => represents.typeNamed_eq, represents.lookupField?_eq, represents.fields,
    represents.history, represents.registry, fun step => ⟨?_, ?_, ?_⟩,
    fun _ => represents.visible_closeScope⟩
  · rcases represents.attempt step with ⟨refused, none⟩ | ⟨granted, next, some, _⟩
    · simp [refused, none]
    · simp [granted, some]
  · intro refused
    rw [SymbolTable.after, List.foldl_append]
    exact congrArg (Option.getD · table) refused
  · intro name next declares made
    rw [← represents.level_eq]
    exact SymbolTable.history_of_attempt declares made

end StackCode
