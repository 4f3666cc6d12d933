import StackCode.Proofs.Emission.ExprCode

namespace StackCode

open Code

namespace Registry

variable {registry : Registry} {tag : Tag}

/-- A type that has values: a primitive type or a class, or a list of such in any number of
dimensions. -/
def Valued (registry : Registry) (tag : Tag) : Prop :=
  0 < tag.code ∧ (tag.base.isPrimitive = true ∨ registry.isClass tag.base = true)

theorem Valued.ne_unknown (valued : registry.Valued tag) : tag ≠ .unknown := by
  rintro rfl
  exact absurd valued.1 (by decide)

theorem Valued.ne_void (valued : registry.Valued tag) : tag ≠ .void := by
  rintro rfl
  exact absurd valued.1 (by decide)

theorem Valued.isUnknown (valued : registry.Valued tag) : tag.isUnknown = false := by
  simpa [Tag.isUnknown] using valued.ne_unknown

theorem name?_eq_some_iff {name : String} : registry.name? tag = some name ↔
    Tag.firstClass ≤ tag.code ∧ registry.names[(tag.code - Tag.firstClass).toNat]? = some name := by
  refine (registry.lists.name? name tag).trans ⟨?_, fun ⟨low, found⟩ => ⟨_, found, ?_⟩⟩
  · rintro ⟨i, found, rfl⟩
    exact ⟨by simp [ClassTags.nthTag], by simpa [ClassTags.nthTag, names] using found⟩
  · obtain ⟨code⟩ := tag
    simp only [ClassTags.nthTag, Tag.mk.injEq] at low ⊢
    omega

theorem isClass_iff_named : registry.isClass tag = true ↔ ∃ name, registry.name? tag = some name :=
  Option.isSome_iff_exists

theorem isClass_iff :
    registry.isClass tag = true ↔
      Tag.firstClass ≤ tag.code ∧ tag.code < Tag.firstClass + registry.names.length := by
  simp only [isClass_iff_named, name?_eq_some_iff, exists_and_left]
  rw [← Option.isSome_iff_exists, isSome_getElem?]
  omega

theorem isPrimitive_iff : tag.isPrimitive = true ↔ 1 ≤ tag.code ∧ tag.code ≤ 6 := by
  rw [Tag.isPrimitive, Bool.and_eq_true, decide_eq_true_eq, decide_eq_true_eq]
  rfl

theorem isList_iff : tag.isList = true ↔ 1000 ≤ tag.code := by
  rw [Tag.isList, decide_eq_true_eq]
  rfl

theorem base_of_lt (low : 0 ≤ tag.code) (high : tag.code < Tag.listStep) : tag.base = tag := by
  rw [Tag.base, if_neg (by omega), Int.emod_eq_of_lt low high]

theorem valued_of_isPrimitive (primitive : tag.isPrimitive = true) : registry.Valued tag := by
  have range := isPrimitive_iff.mp primitive
  refine ⟨by omega, .inl ?_⟩
  rwa [base_of_lt (by omega) (by rw [Tag.listStep]; omega)]

theorem isClass_lt (isClass : registry.isClass tag = true) :
    0 < tag.code ∧ tag.code < Tag.listStep := by
  have range := isClass_iff.mp isClass
  have few : registry.names.length ≤ ClassTags.capacity := registry.lists.few
  simp only [ClassTags.capacity, Tag.firstClass, Tag.listStep] at range few ⊢
  omega

theorem valued_of_isClass (isClass : registry.isClass tag = true) : registry.Valued tag := by
  obtain ⟨positive, low⟩ := isClass_lt isClass
  refine ⟨positive, .inr ?_⟩
  rwa [base_of_lt positive.le low]

theorem Valued.element (valued : registry.Valued tag) (isList : tag.isList = true) :
    registry.Valued tag.element := by
  obtain ⟨positive, base⟩ := valued
  have long := isList_iff.mp isList
  have same : (⟨tag.code - 1000⟩ : Tag).base = tag.base := by
    rw [Tag.base, Tag.base, if_neg (by simp only; omega), if_neg (by omega)]
    congr 1
    simp only [Tag.listStep]
    omega
  have nonzero : tag.base.code ≠ 0 := by
    rcases base with primitive | isClass
    · have := isPrimitive_iff.mp primitive
      omega
    · have := (isClass_iff.mp isClass).1
      simp only [Tag.firstClass] at this
      omega
  rw [Tag.base, if_neg (by omega)] at nonzero
  simp only [Tag.listStep] at nonzero
  rw [Tag.element, if_pos isList]
  refine ⟨?_, by simpa only [Tag.listStep, same] using base⟩
  simp only [Tag.listStep]
  omega

theorem Valued.addDimensions (valued : registry.Valued tag) (dims : Nat) :
    tag.addDimensions dims = .unknown ∨ registry.Valued (tag.addDimensions dims) := by
  obtain ⟨positive, base⟩ := valued
  rw [Tag.addDimensions]
  split
  · exact .inl rfl
  · refine .inr ⟨by simp only [Tag.listStep]; omega, ?_⟩
    have same : (⟨tag.code + dims * Tag.listStep⟩ : Tag).base = tag.base := by
      rw [Tag.base, Tag.base, if_neg (by simp only [Tag.listStep]; omega), if_neg (by omega)]
      congr 1
      simp only [Tag.listStep]
      omega
    rwa [same]

theorem Valued.listOf (valued : registry.Valued tag) :
    tag.listOf = .unknown ∨ registry.Valued tag.listOf :=
  valued.addDimensions 1

theorem isList_listOf (known : tag.listOf ≠ .unknown) : tag.listOf.isList = true := by
  rw [Tag.listOf, Tag.addDimensions] at known ⊢
  split at known
  · exact absurd rfl known
  · rename_i fits
    rw [if_neg fits]
    rw [Bool.or_eq_true, decide_eq_true_eq, decide_eq_true_eq] at fits
    rw [isList_iff]
    simp only [Tag.listStep]
    omega

theorem element_listOf (known : tag.listOf ≠ .unknown) : tag.listOf.element = tag := by
  have isList := isList_listOf known
  rw [Tag.element, if_pos isList]
  rw [Tag.listOf, Tag.addDimensions] at known ⊢
  split at known
  · exact absurd rfl known
  · rename_i fits
    rw [if_neg fits]
    simp [Tag.listStep]

theorem listOf_unknown : Tag.unknown.listOf = .unknown := rfl

end Registry

theorem Tag.ofName_cases (classes : String → Option Tag) (name : String) :
    Tag.ofName classes name = .unknown ∨ Tag.ofName classes name = .void ∨
      (Tag.ofName classes name).isPrimitive = true ∨
      (Tag.keyword? name = none ∧ classes name = some (Tag.ofName classes name)) := by
  rw [Tag.ofName]
  cases found : Tag.keyword? name with
  | some tag =>
    simp only [Option.some_or, Option.getD_some]
    have known : tag = .void ∨ tag.isPrimitive = true := by
      obtain ⟨before, behind, split, _⟩ := List.lookup_eq_some_iff.mp found
      have listed : (name, tag) ∈ Tag.keywords := by rw [split]; simp
      simp only [Tag.keywords, List.mem_cons, Prod.mk.injEq, List.not_mem_nil, or_false] at listed
      rcases listed with ⟨_, rfl⟩ | ⟨_, rfl⟩ | ⟨_, rfl⟩ | ⟨_, rfl⟩ | ⟨_, rfl⟩ | ⟨_, rfl⟩ | ⟨_, rfl⟩ <;>
        decide
    exact .inr (known.imp_right .inl)
  | none =>
    cases declared : classes name with
    | none => exact .inl rfl
    | some tag => exact .inr (.inr (.inr ⟨rfl, rfl⟩))

theorem Tag.ofBracketed_cases {registry : Registry} {classes : String → Option Tag} {text : String}
    (declared : ∀ name tag, classes name = some tag → tag = .unknown ∨ registry.isClass tag = true) :
    Tag.ofBracketed classes text = .unknown ∨ Tag.ofBracketed classes text = .void ∨
      registry.Valued (Tag.ofBracketed classes text) := by
  have base : ∀ name, Tag.ofName classes name = .unknown ∨ Tag.ofName classes name = .void ∨
      registry.Valued (Tag.ofName classes name) := by
    intro name
    rcases Tag.ofName_cases classes name with h | h | h | ⟨_, h⟩
    · exact .inl h
    · exact .inr (.inl h)
    · exact .inr (.inr (Registry.valued_of_isPrimitive h))
    · exact (declared _ _ h).imp_right fun isClass =>
        .inr (Registry.valued_of_isClass isClass)
  simp only [Tag.ofBracketed]
  rcases splitDimensions text with ⟨name, dims⟩
  split
  · exact base name
  · rcases base name with h | h | h
    · exact .inl (by rw [h]; rfl)
    · exact .inl (by rw [h]; rfl)
    · exact (h.addDimensions dims).imp_right .inr

namespace Env

variable {env : Env} {tag : Tag} {type : Ty}

theorem baseType_eq_ok (base : tag.isPrimitive = true ∨ env.table.registry.isClass tag = true) :
    ∃ type, env.baseType tag = .ok type ∧ type ≠ .void := by
  have notVoid : tag ≠ .void := by
    rintro rfl
    rcases base with primitive | isClass
    · exact absurd primitive (by decide)
    · exact absurd (Registry.isClass_iff.mp isClass).1 (by decide)
  rw [baseType, if_neg notVoid]
  split_ifs with int char bool float double string
  case neg =>
    rcases base with primitive | isClass
    · have range := Registry.isPrimitive_iff.mp primitive
      obtain ⟨code⟩ := tag
      simp only [Tag.int, Tag.char, Tag.bool, Tag.float, Tag.double, Tag.string, Tag.mk.injEq] at *
      omega
    · obtain ⟨name, named⟩ := Registry.isClass_iff_named.mp isClass
      rw [named]
      exact ⟨_, rfl, by simp⟩
  all_goals exact ⟨_, rfl, by simp⟩

theorem type_of_valued (valued : env.table.registry.Valued tag) :
    ∃ type, env.type tag = .ok type ∧ type ≠ .void := by
  unfold Env.type
  split
  · rename_i isList
    obtain ⟨base, typed, value⟩ := baseType_eq_ok valued.2
    rw [typed]
    refine ⟨_, rfl, ?_⟩
    have long := Registry.isList_iff.mp isList
    obtain ⟨n, dims⟩ : ∃ n, tag.dimensions = n + 1 := by
      refine ⟨tag.dimensions - 1, ?_⟩
      simp only [Tag.dimensions, Tag.listStep]
      omega
    rw [dims, Nat.repeat]
    simp
  · rename_i isList
    have short := mt Registry.isList_iff.mpr isList
    have base := valued.2
    rw [Registry.base_of_lt (le_of_lt valued.1) (by rw [Tag.listStep]; omega)] at base
    exact baseType_eq_ok base

end Env

end StackCode
