import StackCode.Proofs.Typing.Tags

namespace StackCode

def Tag.isKnown (t : Tag) : Bool := !t.base.isUnknown

namespace Tag

variable {t : Tag}

theorem isUnknown_of_isKnown (known : t.isKnown = true) : t.isUnknown = false := by
  by_contra unknown
  obtain rfl : t = .unknown := by simpa [isUnknown] using unknown
  exact absurd known (by decide)

theorem isKnown_iff_emod (nonneg : 0 ≤ t.code) : t.isKnown = true ↔ t.code % listStep ≠ 0 := by
  have base : t.base = ⟨t.code % listStep⟩ := if_neg (by omega)
  rw [isKnown, base, isUnknown, Bool.not_eq_true', beq_eq_false_iff_ne, unknown, ne_eq, mk.injEq]

theorem isKnown_element (known : t.isKnown = true) (list : t.isList = true) :
    t.element.isKnown = true := by
  have long : listStep ≤ t.code := by simpa [isList] using list
  have step : listStep = 1000 := rfl
  rw [element, if_pos list]
  rw [isKnown_iff_emod (by omega)] at known
  rw [isKnown_iff_emod (show 0 ≤ t.code - listStep by omega)]
  rwa [Int.sub_emod_right]

theorem isKnown_addDimensions (known : t.isKnown = true) (dims : Nat) :
    t.addDimensions dims = .unknown ∨ (t.addDimensions dims).isKnown = true := by
  unfold addDimensions
  split
  · exact .inl rfl
  · rename_i fits
    have positive : 0 < t.code ∧ t.code + dims * listStep ≤ greatest := by simpa using fits
    have more : 0 ≤ dims * listStep := by unfold listStep; omega
    rw [isKnown_iff_emod positive.1.le] at known
    right
    rw [isKnown_iff_emod (show 0 ≤ t.code + dims * listStep by omega)]
    rwa [Int.add_mul_emod_self_right]

theorem isKnown_of_isPrimitive (primitive : t.isPrimitive = true) : t.isKnown = true := by
  have bounds := Registry.isPrimitive_iff.mp primitive
  rw [isKnown_iff_emod (by omega)]
  unfold listStep
  omega

theorem isKnown_promote {a b : Tag} (promoted : promote a b = some t) : t.isKnown = true := by
  unfold promote at promoted
  split at promoted
  · cases promoted
  · split at promoted
    · cases promoted
      rfl
    · split at promoted <;> cases promoted <;> rfl

def isProper (t : Tag) : Bool := t.isUnknown || t.isKnown

theorem isProper_of_isKnown (known : t.isKnown = true) : t.isProper = true := by
  rw [isProper, known, Bool.or_true]

theorem isKnown_of_isProper (proper : t.isProper = true) (known : t ≠ .unknown) :
    t.isKnown = true := by
  simpa [isProper, isUnknown, known] using proper

theorem isProper_addDimensions (proper : t.isProper = true) (dims : Nat) :
    (t.addDimensions dims).isProper = true := by
  by_cases known : t = .unknown
  · subst known
    rfl
  · rcases isKnown_addDimensions (isKnown_of_isProper proper known) dims with unknown | known
    · rw [unknown]
      rfl
    · exact isProper_of_isKnown known

theorem isProper_element (proper : t.isProper = true) : t.element.isProper = true := by
  by_cases list : t.isList = true
  · have known : t ≠ .unknown := by
      rintro rfl
      exact absurd list (by decide)
    exact isProper_of_isKnown (isKnown_element (isKnown_of_isProper proper known) list)
  · rw [element, if_neg list]
    rfl

theorem isProper_foldl_listOf {α : Type} (dims : List α) (proper : t.isProper = true) :
    (dims.foldl (fun type _ => type.listOf) t).isProper = true := by
  induction dims generalizing t with
  | nil => exact proper
  | cons _ dims ih => exact ih (isProper_addDimensions proper 1)

end Tag

/-- The table knows the types of all variables, fields, parameters and results, and no class stands
for a list of the unknown type. -/
structure SymbolTable.Known (table : SymbolTable) : Prop where
  vars : ∀ symbol ∈ table.visible, symbol.isVariable = true → symbol.type.isKnown = true
  fields : ∀ className, ∀ symbol ∈ table.fieldsOf className, symbol.type.isKnown = true
  methods : ∀ symbol ∈ table.visible, ∀ result params, symbol.kind = .method result params →
    result.isKnown = true ∧ ∀ param ∈ params, param.isKnown = true
  classes : ∀ symbol ∈ table.visible, symbol.isClass = true → symbol.type.isProper = true

def Symbol.isKnown (symbol : Symbol) : Bool :=
  symbol.type.isKnown &&
    match symbol.kind with
    | .method result params => result.isKnown && params.all Tag.isKnown
    | _ => true

theorem SymbolTable.known_of_history {table : SymbolTable}
    (history : ∀ symbol ∈ table.history.toList, symbol.isKnown = true) : table.Known := by
  have listed : ∀ ids, ∀ symbol ∈ table.symbolsAt ids, symbol.isKnown = true := by
    intro ids symbol member
    obtain ⟨id, _, found⟩ := List.mem_filterMap.mp member
    exact history symbol (by simpa using Array.mem_of_getElem? found)
  have typed : ∀ ids, ∀ symbol ∈ table.symbolsAt ids, symbol.type.isKnown = true := fun ids symbol member =>
    (Bool.and_eq_true_iff.mp (listed ids symbol member)).1
  refine ⟨fun symbol member _ => typed _ symbol member, fun _ => typed _,
    fun symbol member result params isMethod => ?_,
    fun symbol member _ => Tag.isProper_of_isKnown (typed _ symbol member)⟩
  have known := (Bool.and_eq_true_iff.mp (listed _ symbol member)).2
  rw [isMethod] at known
  simpa using known

namespace SymbolTable.Known

variable {table : SymbolTable} (known : table.Known)

include known

theorem typeNamed (name : String) : (table.typeNamed name).isProper = true := by
  unfold SymbolTable.typeNamed
  rcases Tag.ofName_cases table.classTag? name with unknown | void | primitive | ⟨_, isClass⟩
  · rw [unknown]
    rfl
  · rw [void]
    rfl
  · exact Tag.isProper_of_isKnown (Tag.isKnown_of_isPrimitive primitive)
  · generalize Tag.ofName table.classTag? name = tag at isClass ⊢
    unfold classTag? at isClass
    split at isClass
    · rename_i symbol found
      split at isClass
      · cases isClass
        exact known.classes symbol (List.mem_of_find?_eq_some found) ‹_›
      · cases isClass
    · cases isClass

theorem typeOf (text : String) : (table.typeOf text).isProper = true := by
  rw [SymbolTable.typeOf, Tag.ofBracketed]
  dsimp only
  split
  · exact known.typeNamed _
  · exact Tag.isProper_addDimensions (known.typeNamed _) _

theorem lookup? {name : String} {symbol : Symbol} (found : table.lookup? name = some symbol)
    (isVariable : symbol.isVariable = true) : symbol.type.isKnown = true :=
  known.vars symbol (List.mem_of_find?_eq_some found) isVariable

theorem lookupField? {tag : Tag} {name : String} {symbol : Symbol}
    (found : table.lookupField? tag name = some symbol) : symbol.type.isKnown = true := by
  obtain ⟨className, _, found⟩ := Option.bind_eq_some_iff.mp found
  exact known.fields className symbol (List.mem_of_find?_eq_some found)

theorem callee {callee : Designator} {result : Tag} {params : List Tag}
    (called : table.callee callee = .method result params) :
    result.isKnown = true ∧ ∀ param ∈ params, param.isKnown = true := by
  unfold SymbolTable.callee at called
  split at called
  · cases called
  · split at called
    · cases called
    · split at called
      · cases called
      · rename_i symbol found
        split at called
        · rename_i kind
          cases called
          exact known.methods symbol (List.mem_of_find?_eq_some found) _ _ kind
        · cases called

end SymbolTable.Known

end StackCode
