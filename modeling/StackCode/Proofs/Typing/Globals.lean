import StackCode.Proofs.Typing.Outline

namespace StackCode

open Checking

namespace Sight

variable (sight : Sight)

def Stores (type : TypeName) : Prop :=
  sight.typeOf type.name ≠ .unknown ∧ sight.typeOf type.name ≠ .void

def resultType : Option TypeName → Tag
  | some type => sight.typeOf type.name
  | none => .void

def meanings : Item → List (String × Meaning)
  | .const decl => [(decl.name.name, ⟨sight.typeOf decl.type.name, .var true⟩)]
  | .vars decl => decl.names.map fun name =>
    (name.name, ⟨sight.typeOf decl.type.name, .var false⟩)
  | .method decl => [(decl.name.name, ⟨sight.resultType decl.result,
    .method (sight.resultType decl.result) (decl.params.map fun param => sight.typeOf param.type.name)⟩)]
  | .classDecl _ => []

end Sight

def Item.HeadTyped (sight : Sight) : Item → Prop
  | .const decl => sight.Stores decl.type ∧ decl.value.Fits ∧
    sight.registry.accepts (sight.typeOf decl.type.name) decl.value.tag = true
  | .vars decl => sight.Stores decl.type
  | .method decl => sight.resultType decl.result ≠ .unknown ∧
    ∀ param ∈ decl.params, sight.Stores param.type
  | .classDecl _ => True

def Sight.declareEach : Sight → List (String × Meaning) → Sight
  | sight, [] => sight
  | sight, (name, meaning) :: rest => (sight.declare name meaning).declareEach rest

/-- Items that are declared one after another in a scope with the names `taken`, and what can be
seen behind them. -/
def HeadsTyped : (sight : Sight) → (taken : List String) → List Item → (final : Sight) → Prop
  | sight, _, [], final => final = sight
  | sight, taken, item :: rest, final => item.HeadTyped sight ∧
    Fresh taken ((sight.meanings item).map (·.1)) ∧
    HeadsTyped (sight.declareEach (sight.meanings item))
      (((sight.meanings item).map (·.1)).reverse ++ taken) rest final

theorem Sight.declareEach_map (sight : Sight) (type : Tag) (names : List Ident) :
    sight.declareEach (names.map fun name => (name.name, ⟨type, .var false⟩)) =
      sight.declareAll type (names.map (·.name)) := by
  induction names generalizing sight with
  | nil => rfl
  | cons name names ih => exact ih _

theorem namedParams_finds (table : SymbolTable) : ∀ params : List Param,
    (namedParams table params).Finds [] fun _ types =>
      types = params.map (fun param => table.sight.typeOf param.type.name) ∧
        ∀ param ∈ params, table.sight.Stores param.type
  | [] => (Noting.finds_pure []).mono fun _ _ same => ⟨same, by simp⟩
  | param :: params => by
    rw [namedParams]
    refine ((namedValueType_finds table param.type).bind fun type =>
      (namedParams_finds table params).bind fun types => Noting.finds_pure _).mono ?_
    rintro facts _ ⟨type, ⟨rfl, known, value⟩, types, ⟨rfl, stored⟩, rfl⟩
    exact ⟨rfl, List.forall_mem_cons.mpr ⟨⟨known, value⟩, stored⟩⟩

variable {sight : Sight} {taken : List String} {leavable : Bool} {result : Tag}

theorem ConstDecl.declare_checks (decl : ConstDecl) :
    decl.declare.Checks [] CheckState.Grown (·.At sight taken leavable result)
      fun _ _ after => (Item.const decl).HeadTyped sight ∧ decl.name.name ∉ taken ∧
        after.At (sight.declare decl.name.name ⟨sight.typeOf decl.type.name, .var true⟩)
          (decl.name.name :: taken) leavable result := by
  have typed : (note fun table => decl.declaredType table).Checks [] CheckState.Kept
      (·.At sight taken leavable result) fun _ type _ =>
        (Item.const decl).HeadTyped sight ∧ type = sight.typeOf decl.type.name := by
    refine checks_noteAt (P := fun sight _ type => (Item.const decl).HeadTyped sight ∧
      type = sight.typeOf decl.type.name) fun table => ?_
    refine ((namedValueType_finds table decl.type).bind fun type =>
      (Literal.check_finds decl.value decl.name.span).bind fun value =>
        Noting.finds_unless_pure (Noting.finds_mismatch _ _) type).mono ?_
    rintro _ _ ⟨type, ⟨rfl, known, value⟩, _, ⟨fits, rfl⟩, fine, rfl⟩
    rw [Bool.and_eq_true, Bool.not_eq_true', Bool.not_eq_true', not_and, Bool.not_eq_false] at fine
    have notUnknown : (table.sight.typeOf decl.type.name).isUnknown = false := by
      simpa [Tag.isUnknown] using known
    exact ⟨⟨⟨known, value⟩, fits, fine notUnknown⟩, rfl⟩
  refine (typed.stays.bind (fun type =>
    checks_introduce type .constant (.var true) decl.span fun _ => rfl)
    CheckState.Grown.trans fun _ _ _ _ _ found => found.2).mono ?_
  rintro _ _ _ _ _ _ ⟨_, _, ⟨⟨head, rfl⟩, _⟩, new, here⟩
  exact ⟨head, new, here⟩

theorem MethodDecl.declare_checks (decl : MethodDecl) :
    decl.declare.Checks [] CheckState.Grown (·.At sight taken leavable result)
      fun _ _ after => (Item.method decl).HeadTyped sight ∧ decl.name.name ∉ taken ∧
        after.At (sight.declareEach (sight.meanings (.method decl))) (decl.name.name :: taken)
          leavable result := by
  have typed : (note fun table => decl.signature table).Checks [] CheckState.Kept
      (·.At sight taken leavable result) fun _ types _ => (Item.method decl).HeadTyped sight ∧
        types = (sight.resultType decl.result,
          decl.params.map fun param => sight.typeOf param.type.name) := by
    refine checks_noteAt (P := fun sight _ types => (Item.method decl).HeadTyped sight ∧
      types = (sight.resultType decl.result,
        decl.params.map fun param => sight.typeOf param.type.name)) fun table => ?_
    have params (result : Tag) : (do
        let params ← namedParams table decl.params
        pure (result, params) : Noting (Tag × List Tag)).Finds [] fun _ types =>
          types = (result, decl.params.map fun param => table.sight.typeOf param.type.name) ∧
            ∀ param ∈ decl.params, table.sight.Stores param.type := by
      refine ((namedParams_finds table decl.params).bind fun params =>
        Noting.finds_pure (result, params)).mono ?_
      rintro _ _ ⟨_, ⟨rfl, stored⟩, rfl⟩
      exact ⟨rfl, stored⟩
    simp only [Item.HeadTyped, MethodDecl.signature]
    cases decl.result with
    | none =>
      refine (params .void).mono ?_
      rintro _ _ ⟨rfl, stored⟩
      exact ⟨⟨(by decide : Tag.void ≠ .unknown), stored⟩, rfl⟩
    | some type =>
      refine ((namedType_finds table type).bind fun result => params result).mono ?_
      rintro _ _ ⟨_, ⟨rfl, known⟩, rfl, stored⟩
      exact ⟨⟨known, stored⟩, rfl⟩
  refine (typed.stays.bind (fun types => checks_introduce types.1 .method
    (.method types.1 types.2) decl.span fun _ => rfl)
    CheckState.Grown.trans fun _ _ _ _ _ found => found.2).mono ?_
  rintro _ _ _ _ _ _ ⟨_, _, ⟨⟨head, rfl⟩, _⟩, new, here⟩
  exact ⟨head, new, here⟩

theorem Item.declare_checks (item : Item) :
    item.declare.Checks [] CheckState.Grown (·.At sight taken leavable result)
      fun _ _ after => item.HeadTyped sight ∧ Fresh taken ((sight.meanings item).map (·.1)) ∧
        after.At (sight.declareEach (sight.meanings item))
          (((sight.meanings item).map (·.1)).reverse ++ taken) leavable result := by
  cases item with
  | const decl =>
    refine decl.declare_checks.mono ?_
    rintro _ _ _ _ _ _ ⟨typed, new, here⟩
    exact ⟨typed, ⟨new, trivial⟩, here⟩
  | vars decl =>
    refine (decl.declare_checks .global).mono ?_
    rintro _ _ _ after _ _ ⟨known, value, fresh, here⟩
    have names : (sight.meanings (.vars decl)).map (·.1) = decl.names.map (·.name) := by
      simp [Sight.meanings]
    rw [names, Sight.meanings, Sight.declareEach_map]
    exact ⟨⟨known, value⟩, fresh, here⟩
  | method decl =>
    refine decl.declare_checks.mono ?_
    rintro _ _ _ _ _ _ ⟨typed, new, here⟩
    exact ⟨typed, ⟨new, trivial⟩, here⟩
  | classDecl decl =>
    refine ((checks_pure ()).of_rel CheckState.Kept.grown).mono ?_
    rintro _ _ _ _ _ _ ⟨_, here⟩
    exact ⟨trivial, trivial, here⟩

theorem declareItems_checks : ∀ (items : List Item) {sight : Sight} {taken : List String},
    (items.forM Item.declare).Checks [] CheckState.Grown (·.At sight taken leavable result)
      fun _ _ after => ∃ final taken', HeadsTyped sight taken items final ∧
        after.At final taken' leavable result
  | [], sight, taken => by
    refine ((checks_pure PUnit.unit).of_rel CheckState.Kept.grown).mono ?_
    rintro _ _ _ _ _ _ ⟨_, here⟩
    exact ⟨sight, taken, rfl, here⟩
  | item :: rest, sight, taken => by
    refine (item.declare_checks.bind (fun _ => declareItems_checks rest)
      CheckState.Grown.trans fun _ _ _ _ _ found => found.2.2).mono ?_
    rintro _ _ _ _ _ _ ⟨_, _, ⟨head, fresh, _⟩, final, taken', typed, here⟩
    exact ⟨final, taken', ⟨head, fresh, typed⟩, here⟩

namespace Sight

variable {a b c : Sight}

structure Widens (a b : Sight) : Prop where
  registry : b.registry = a.registry
  member? : b.member? = a.member?
  meaning? : ∀ name meaning, a.meaning? name = some meaning → b.meaning? name = some meaning

theorem Widens.refl (a : Sight) : a.Widens a := ⟨rfl, rfl, fun _ _ known => known⟩

theorem Widens.trans (first : a.Widens b) (second : b.Widens c) : a.Widens c :=
  ⟨second.registry.trans first.registry, second.member?.trans first.member?,
    fun name meaning known => second.meaning? name meaning (first.meaning? name meaning known)⟩

structure Adds (a : Sight) (new : List (String × Meaning)) (b : Sight) : Prop extends
    a.Widens b where
  gained : ∀ entry ∈ new, b.meaning? entry.1 = some entry.2
  only : ∀ name meaning, b.meaning? name = some meaning →
    a.meaning? name = some meaning ∨ (name, meaning) ∈ new

theorem Adds.refl (a : Sight) : a.Adds [] a :=
  ⟨.refl a, by simp, fun _ _ known => .inl known⟩

theorem Adds.append {new more : List (String × Meaning)} (first : a.Adds new b)
    (second : b.Adds more c) : a.Adds (new ++ more) c where
  toWidens := first.toWidens.trans second.toWidens
  gained := List.forall_mem_append.mpr ⟨fun entry member =>
    second.meaning? _ _ (first.gained entry member), second.gained⟩
  only name meaning known := by
    rcases second.only name meaning known with known | new
    · exact (first.only name meaning known).imp_right (List.mem_append_left _)
    · exact .inr (List.mem_append_right _ new)

theorem meaning?_declare (name other : String) (meaning : Meaning) :
    (a.declare name meaning).meaning? other =
      if other = name then some meaning else a.meaning? other := rfl

theorem adds_declare {name : String} (meaning : Meaning) (new : a.meaning? name = none) :
    a.Adds [(name, meaning)] (a.declare name meaning) where
  registry := rfl
  member? := rfl
  meaning? other known found := by
    rw [meaning?_declare, if_neg ?_, found]
    rintro rfl
    rw [new] at found
    cases found
  gained := by simp [meaning?_declare]
  only other known found := by
    rw [meaning?_declare] at found
    split at found
    · rename_i same
      simp_all
    · exact .inl found

def Within (sight : Sight) (taken : List String) : Prop :=
  ∀ name meaning, sight.meaning? name = some meaning → name ∈ taken

theorem adds_declareEach {new : List (String × Meaning)} {taken : List String} (within : a.Within taken)
    (fresh : Fresh taken (new.map (·.1))) : a.Adds new (a.declareEach new) ∧
      (a.declareEach new).Within ((new.map (·.1)).reverse ++ taken) := by
  induction new generalizing a taken with
  | nil => exact ⟨.refl a, within⟩
  | cons entry rest ih =>
    obtain ⟨name, meaning⟩ := entry
    obtain ⟨new, fresh⟩ := fresh
    have absent : a.meaning? name = none := by
      by_contra present
      obtain ⟨known, found⟩ := Option.ne_none_iff_exists'.mp present
      exact new (within name known found)
    have first := adds_declare meaning absent
    have wider : (a.declare name meaning).Within (name :: taken) := by
      intro other known found
      rcases first.only other known found with old | same
      · exact List.mem_cons_of_mem _ (within other known old)
      · simp_all
    obtain ⟨adds, covered⟩ := ih wider fresh
    refine ⟨first.append adds, ?_⟩
    simpa [declareEach] using covered

theorem classTag?_eq_some {name : String} {tag : Tag} :
    a.classTag? name = some tag ↔ a.meaning? name = some ⟨tag, .classType⟩ := by
  unfold classTag?
  constructor
  · intro found
    split at found
    · rename_i type meant
      cases found
      exact meant
    · cases found
  · intro meant
    rw [meant]

theorem varType?_eq_some {name : String} {tag : Tag} :
    a.varType? name = some tag ↔ ∃ constant, a.meaning? name = some ⟨tag, .var constant⟩ := by
  unfold varType?
  constructor
  · intro found
    split at found
    · rename_i type constant meant
      cases found
      exact ⟨constant, meant⟩
    · cases found
  · rintro ⟨constant, meant⟩
    rw [meant]

end Sight

theorem Tag.ofBracketed_of_known {classes others : String → Option Tag} {text : String}
    (more : ∀ name tag, classes name = some tag → others name = some tag)
    (known : Tag.ofBracketed classes text ≠ .unknown) :
    Tag.ofBracketed others text = Tag.ofBracketed classes text := by
  simp only [Tag.ofBracketed] at known ⊢
  have base : Tag.ofName classes (splitDimensions text).1 ≠ .unknown := by
    intro unknown
    rw [unknown] at known
    split at known <;> exact known rfl
  have same : Tag.ofName others (splitDimensions text).1 =
      Tag.ofName classes (splitDimensions text).1 := by
    unfold Tag.ofName at base ⊢
    cases key : Tag.keyword? (splitDimensions text).1 with
    | some tag => rfl
    | none =>
      cases found : classes (splitDimensions text).1 with
      | none =>
        rw [key, found] at base
        exact absurd rfl base
      | some tag => rw [more _ _ found]
  rw [same]

namespace Sight

variable {a b : Sight}

theorem Widens.typeOf (widens : a.Widens b) {text : String} (known : a.typeOf text ≠ .unknown) :
    b.typeOf text = a.typeOf text :=
  Tag.ofBracketed_of_known (fun _ _ found => classTag?_eq_some.mpr
    (widens.meaning? _ _ (classTag?_eq_some.mp found))) known

theorem Widens.stores (widens : a.Widens b) {type : TypeName} (stores : a.Stores type) :
    b.Stores type := by
  rw [Stores, widens.typeOf stores.1]
  exact stores

theorem Widens.resultType (widens : a.Widens b) {result : Option TypeName}
    (known : a.resultType result ≠ .unknown) : b.resultType result = a.resultType result := by
  cases result with
  | none => rfl
  | some type => exact widens.typeOf known

theorem Widens.headTyped (widens : a.Widens b) {item : Item} (typed : item.HeadTyped a) :
    item.HeadTyped b ∧ b.meanings item = a.meanings item := by
  cases item with
  | const decl =>
    obtain ⟨stores, fits, accepted⟩ := typed
    refine ⟨⟨widens.stores stores, fits, ?_⟩, ?_⟩
    · rw [widens.registry, widens.typeOf stores.1]
      exact accepted
    · rw [meanings, meanings, widens.typeOf stores.1]
  | vars decl =>
    refine ⟨widens.stores typed, ?_⟩
    rw [meanings, meanings, widens.typeOf typed.1]
  | method decl =>
    obtain ⟨known, stores⟩ := typed
    have params : (decl.params.map fun param => b.typeOf param.type.name) =
        decl.params.map fun param => a.typeOf param.type.name :=
      List.map_congr_left fun param member => widens.typeOf (stores param member).1
    refine ⟨⟨?_, fun param member => widens.stores (stores param member)⟩, ?_⟩
    · rw [widens.resultType known]
      exact known
    · rw [meanings, meanings, widens.resultType known, params]
  | classDecl decl => exact ⟨trivial, rfl⟩

end Sight

theorem HeadsTyped.adds {items : List Item} {sight final : Sight} {taken : List String}
    (within : sight.Within taken) (typed : HeadsTyped sight taken items final) :
    sight.Adds (items.flatMap final.meanings) final ∧ ∀ item ∈ items, item.HeadTyped final := by
  induction items generalizing sight taken with
  | nil =>
    cases typed
    exact ⟨.refl _, by simp⟩
  | cons item rest ih =>
    obtain ⟨head, fresh, others⟩ := typed
    obtain ⟨first, covered⟩ := Sight.adds_declareEach within fresh
    obtain ⟨more, heads⟩ := ih covered others
    obtain ⟨head, same⟩ := (first.toWidens.trans more.toWidens).headTyped head
    refine ⟨?_, List.forall_mem_cons.mpr ⟨head, heads⟩⟩
    rw [List.flatMap_cons, same]
    exact first.append more

end StackCode
