import StackCode.Proofs.Typing.ExprSound

namespace StackCode

namespace SymbolTable

variable {table later : SymbolTable}

/-- The same table with more history: nothing that can be seen is different. -/
structure Extends (table later : SymbolTable) : Prop where
  registry : later.registry = table.registry
  fields : later.fields = table.fields
  active : later.active = table.active
  boundaries : later.boundaries = table.boundaries
  history : table.history.toList <+: later.history.toList

theorem Extends.refl (table : SymbolTable) : table.Extends table :=
  ⟨rfl, rfl, rfl, rfl, List.prefix_refl _⟩

theorem Extends.trans {first second third : SymbolTable} (one : first.Extends second)
    (two : second.Extends third) : first.Extends third :=
  ⟨two.registry.trans one.registry, two.fields.trans one.fields, two.active.trans one.active,
    two.boundaries.trans one.boundaries, one.history.trans two.history⟩

structure Recorded (table : SymbolTable) : Prop where
  active : ∀ id ∈ table.active, id < table.history.size
  fields : ∀ entry ∈ table.fields, ∀ id ∈ entry.2, id < table.history.size

theorem symbolsAt_of_longer {ids : List Nat} (longer : table.history.toList <+: later.history.toList)
    (recorded : ∀ id ∈ ids, id < table.history.size) :
    later.symbolsAt ids = table.symbolsAt ids := by
  unfold symbolsAt
  refine List.filterMap_congr fun id member => ?_
  rw [← Array.getElem?_toList, ← Array.getElem?_toList]
  exact (List.prefix_iff_getElem?.mp longer id (by simpa using recorded id member)).trans
    (List.getElem?_eq_getElem (by simpa using recorded id member)).symm

theorem Recorded.extends (recorded : table.Recorded) (longer : table.Extends later) :
    later.Recorded := by
  have size : table.history.size ≤ later.history.size := by simpa using longer.history.length_le
  constructor
  · intro id member
    rw [longer.active] at member
    exact (recorded.active id member).trans_le size
  · intro entry member id inside
    rw [longer.fields] at member
    exact (recorded.fields entry member id inside).trans_le size

theorem fieldsOf_of_longer (recorded : table.Recorded)
    (longer : table.history.toList <+: later.history.toList) (fields : later.fields = table.fields)
    (className : String) : later.fieldsOf className = table.fieldsOf className := by
  unfold fieldsOf
  rw [fields]
  refine symbolsAt_of_longer longer fun id member => ?_
  cases found : table.fields.lookup className with
  | none => simp [found] at member
  | some ids =>
    rw [found] at member
    obtain ⟨before, behind, split, _⟩ := List.lookup_eq_some_iff.mp found
    exact recorded.fields (className, ids) (by rw [split]; simp) id member

theorem Extends.visible (longer : table.Extends later) (recorded : table.Recorded) :
    later.visible = table.visible := by
  rw [SymbolTable.visible, longer.active, symbolsAt_of_longer longer.history recorded.active]
  rfl

theorem Extends.current (longer : table.Extends later) (recorded : table.Recorded) :
    later.current = table.current := by
  rw [SymbolTable.current, longer.active, longer.boundaries, symbolsAt_of_longer longer.history
    fun id member => recorded.active id (List.mem_of_mem_take member)]
  rfl

theorem Extends.sight (longer : table.Extends later) (recorded : table.Recorded) :
    later.sight = table.sight := by
  unfold SymbolTable.sight lookup? lookupField?
  rw [longer.visible recorded, longer.registry]
  simp only [fieldsOf_of_longer recorded longer.history longer.fields]

theorem recorded_push (recorded : table.Recorded) (name : Ident) (type : Tag) (site : Site)
    (kind : SymbolKind) (decl : Span) : (table.push name type site kind decl).Recorded := by
  constructor
  · intro id member
    simp only [push, Array.size_push]
    rcases List.mem_cons.mp member with rfl | member
    · omega
    · have := recorded.active id member
      omega
  · intro entry member id inside
    have := recorded.fields entry member id inside
    simp only [push, Array.size_push]
    omega

def symbol (table : SymbolTable) (name : Ident) (type : Tag) (site : Site) (kind : SymbolKind)
    (decl : Span) : Symbol :=
  ⟨name.name, name.span, decl, type, table.level, site, kind⟩

section Push

variable (name : Ident) (type : Tag) (site : Site) (kind : SymbolKind) (decl : Span)

theorem history_push : table.history.toList <+: (table.push name type site kind decl).history.toList := by
  simp [push]

variable (recorded : table.Recorded)

include recorded

theorem symbolsAt_push {ids : List Nat} (member : ∀ id ∈ ids, id ∈ table.active) :
    (table.push name type site kind decl).symbolsAt (table.history.size :: ids) =
      table.symbol name type site kind decl :: table.symbolsAt ids := by
  have rest : (table.push name type site kind decl).symbolsAt ids = table.symbolsAt ids :=
    symbolsAt_of_longer (history_push name type site kind decl) fun id inside =>
      recorded.active id (member id inside)
  rw [← rest]
  simp [symbolsAt, push, symbol]

theorem visible_push : (table.push name type site kind decl).visible =
    table.symbol name type site kind decl :: table.visible :=
  symbolsAt_push name type site kind decl recorded fun _ member => member

theorem sight_push : (table.push name type site kind decl).sight =
    table.sight.declare name.name ⟨type, kind⟩ := by
  unfold SymbolTable.sight Sight.declare lookup? lookupField?
  rw [visible_push name type site kind decl recorded]
  congr 1
  · funext other
    rw [List.find?_cons]
    by_cases same : other = name.name
    · simp [symbol, same, Symbol.meaning]
    · have different : (name.name == other) = false := by simpa using fun h => same h.symm
      rw [if_neg same, symbol, different]
  · funext tag field
    simp only [fieldsOf_of_longer recorded (history_push name type site kind decl) rfl]
    rfl

theorem current_push {start : Nat} {rest : List Nat} (opened : table.boundaries = start :: rest)
    (below : start ≤ table.active.length) : (table.push name type site kind decl).current =
      table.symbol name type site kind decl :: table.current := by
  have count : table.active.length + 1 - start = (table.active.length - start) + 1 := by omega
  unfold current
  simp only [push, opened, List.headD_cons, List.length_cons, count, List.take_succ_cons]
  exact symbolsAt_push name type site kind decl recorded fun _ member => List.mem_of_mem_take member

end Push

/-- What is in sight of the innermost scope, and the names that it has. -/
structure Shows (table : SymbolTable) (sight : Sight) (taken : List String) : Prop where
  recorded : table.Recorded
  sight : table.sight = sight
  taken : table.current.map (·.name) = taken
  opened : ∃ start rest, table.boundaries = start :: rest ∧ start ≤ table.active.length

variable {sight : Sight} {taken : List String}

theorem Shows.extends (shows : table.Shows sight taken) (longer : table.Extends later) :
    later.Shows sight taken where
  recorded := shows.recorded.extends longer
  sight := (longer.sight shows.recorded).trans shows.sight
  taken := by rw [longer.current shows.recorded, shows.taken]
  opened := by rw [longer.boundaries, longer.active]; exact shows.opened

theorem Shows.openScope (shows : table.Shows sight taken) : table.openScope.Shows sight [] where
  recorded := ⟨shows.recorded.active, shows.recorded.fields⟩
  sight := shows.sight
  taken := by simp [SymbolTable.openScope, current, symbolsAt]
  opened := ⟨_, _, rfl, le_refl _⟩

theorem Shows.lookupCurrent? (shows : table.Shows sight taken) (name : String) :
    (table.lookupCurrent? name).isSome = true ↔ name ∈ taken := by
  rw [SymbolTable.lookupCurrent?, List.find?_isSome, ← shows.taken, List.mem_map]
  simp only [beq_iff_eq]

theorem Shows.push (shows : table.Shows sight taken) (name : Ident) (type : Tag) (site : Site)
    (kind : SymbolKind) (decl : Span) : (table.push name type site kind decl).Shows
      (sight.declare name.name ⟨type, kind⟩) (name.name :: taken) where
  recorded := recorded_push shows.recorded name type site kind decl
  sight := by rw [sight_push name type site kind decl shows.recorded, shows.sight]
  taken := by
    obtain ⟨start, rest, opened, below⟩ := shows.opened
    rw [current_push name type site kind decl shows.recorded opened below, List.map_cons, shows.taken]
    rfl
  opened := by
    obtain ⟨start, rest, opened, below⟩ := shows.opened
    exact ⟨start, rest, opened, below.trans (Nat.le_succ _)⟩

end SymbolTable

end StackCode
