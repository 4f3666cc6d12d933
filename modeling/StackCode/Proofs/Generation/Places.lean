import StackCode.Proofs.Generation.Expressions

namespace StackCode

open Code Emit

variable {env : Env} {sight : Sight} {names : List String} {frame : Frame}

section Conditions

theorem Env.areStrings_of_noted {left right : Expr} {l r : Tag} (first : env.facts left.id l)
    (second : env.facts right.id r) :
    env.areStrings left right = .ok (l == .string && r == .string) := by
  rw [Env.areStrings, Env.nodeType_of_facts first, Env.nodeType_of_facts second]
  by_cases isString : l = .string
  · subst isString
    rfl
  · simp [isString, bind, Except.bind, pure, Except.pure]

theorem CondFact.emit_succeeds {fact : CondFact} (typed : fact.Typed env.facts sight) :
    env.Needs sight names (fact.emit env) fact.slots fact.nodes := by
  intro frame ready room
  obtain ⟨id, kind, span⟩ := fact
  simp only [CondFact.nodes, Env.supportsAll_cons, Env.Supports, true_and]
  obtain ⟨typed, _⟩ := typed
  cases kind with
  | expr value => exact Expr.emit_succeeds value (.inr typed) ready room
  | relation left op right =>
    obtain ⟨l, r, first, second, _⟩ := typed
    have settled : left.Settled env.facts sight l := .inr first
    have settled' : right.Settled env.facts sight r := .inr second
    rw [CondFact.emit, succeeds_lift (Env.areStrings_of_noted settled.noted settled'.noted)]
    exact (Expr.emit_succeeds left settled).bind (Expr.emit_emits left)
      (fun _ => (Expr.emit_succeeds right settled').map) ready room

theorem emitFacts_succeeds {facts : List CondFact} {join : Piece}
    (typed : ∀ fact ∈ facts, fact.Typed env.facts sight) :
    env.Needs sight names (emitFacts env join facts) (facts.map CondFact.slots).sum
      (facts.flatMap CondFact.nodes) := by
  induction facts generalizing join with
  | nil => exact .pure
  | cons fact rest ih =>
    obtain ⟨first, others⟩ := List.forall_mem_cons.mp typed
    rw [List.map_cons, List.sum_cons, List.flatMap_cons]
    exact (CondFact.emit_succeeds first).bind CondFact.emit_emits fun _ => (ih others).map

theorem emitCondTerms_succeeds {terms : List CondTerm} {join : Piece}
    (typed : ∀ term ∈ terms, term.Typed env.facts sight) :
    env.Needs sight names (emitCondTerms env join terms)
      (terms.map fun term => (term.facts.map CondFact.slots).sum).sum
      (terms.flatMap CondTerm.nodes) := by
  induction terms generalizing join with
  | nil => exact .pure
  | cons term rest ih =>
    intro frame ready room
    obtain ⟨first, others⟩ := List.forall_mem_cons.mp typed
    rw [List.map_cons, List.sum_cons] at room
    simp only [List.flatMap_cons, CondTerm.nodes, List.cons_append, Env.supportsAll_cons, Env.Supports,
      true_and]
    exact (emitFacts_succeeds first.1).bind (emitFacts_emits bare_nil) (fun _ => (ih others).map)
      ready room

theorem Condition.emit_succeeds {cond : Condition} (typed : cond.Typed env.facts sight) :
    env.Needs sight names (cond.emit env) cond.slots cond.nodes := by
  intro frame ready room
  simp only [Condition.nodes, Env.supportsAll_cons, Env.Supports, true_and]
  exact emitCondTerms_succeeds typed.1 ready room

end Conditions

variable {target : Designator} {result type : Tag} {selector : Selector}

section Containers

theorem SelectorsTyped.append {facts : Facts} {xs ys : List Selector}
    (typed : SelectorsTyped facts sight type (xs ++ ys) result) :
    ∃ middle, SelectorsTyped facts sight type xs middle ∧ SelectorsTyped facts sight middle ys result := by
  induction xs generalizing type with
  | nil => exact ⟨type, rfl, typed⟩
  | cons selector xs ih =>
    cases selector with
    | field name =>
      obtain ⟨member, field, others⟩ := typed
      obtain ⟨middle, first, second⟩ := ih others
      exact ⟨middle, ⟨member, field, first⟩, second⟩
    | index value =>
      obtain ⟨elem, index, element, others⟩ := typed
      obtain ⟨middle, first, second⟩ := ih others
      exact ⟨middle, ⟨elem, index, element, first⟩, second⟩

theorem selectorsNodes_append (xs ys : List Selector) :
    selectorsNodes (xs ++ ys) = selectorsNodes xs ++ selectorsNodes ys := by
  induction xs with
  | nil => rfl
  | cons selector xs ih =>
    cases selector <;> simp only [List.cons_append, selectorsNodes, ih, List.append_assoc]

theorem emitSelectors_type (sees : env.Sees frame sight) {selectors : List Selector} {last : Tag}
    {before after : Frame} {code : Piece} (typed : SelectorsTyped env.facts sight type selectors result)
    (valued : sight.registry.Valued type)
    (emitted : (emitSelectors env type selectors).Yields before (code, last) after) : last = result := by
  induction selectors generalizing type before code with
  | nil =>
    obtain ⟨_, rfl, _⟩ := emitSelectors_nil_yields.mp emitted
    exact typed.symm
  | cons selector rest ih =>
    cases selector with
    | field name =>
      obtain ⟨member, field, others⟩ := typed
      obtain ⟨_, found, _, _, typed, more, _⟩ := emitSelectors_field_yields.mp emitted
      rcases field with ⟨unknown, _⟩ | ⟨_, looked, _⟩
      · exact absurd unknown valued.ne_unknown
      · obtain ⟨_, _, same⟩ := sees.fieldOf looked
        rw [same] at typed
        cases typed
        exact ih others (sees.sane.member _ _ _ looked) more
    | index value =>
      obtain ⟨elem, _, element, others⟩ := typed
      obtain ⟨_, _, _, _, _, _, more, _⟩ := emitSelectors_index_yields.mp emitted
      rcases element with ⟨unknown, _⟩ | ⟨isList, rfl⟩
      · exact absurd unknown valued.ne_unknown
      · exact ih others (valued.element isList) more

/-- What the last selector of a designator is applied to: a value of a type that has values, found
if the other selectors are supported; or for a constant its text, which has no parts. -/
theorem Designator.container_cases (ready : env.Ready frame sight names)
    (typed : target.Typed env.facts sight result) (last : target.selectors.getLast? = some selector)
    (room : frame.locals.length + selectorsSlots target.selectors.dropLast ≤ slotLimit) :
    (∃ container, sight.registry.Valued container ∧
      SelectorsTyped env.facts sight container [selector] result ∧
      env.Supports names (.designator target) ∧
      ((target.emitContainer env).Succeeds frame ↔
        env.SupportsAll names (selectorsNodes target.selectors.dropLast)) ∧
      ∀ code tag mid, (target.emitContainer env).Yields frame (code, tag) mid → tag = container) ∨
    (¬ env.Supports names (.designator target) ∧
      ∀ code tag mid, (target.emitContainer env).Yields frame (code, tag) mid →
        ∃ literal : Literal, tag = literal.tag) := by
  obtain ⟨id, base, selectors, span⟩ := target
  obtain ⟨type, found, known, selected, _⟩ := typed
  have split : selectors.dropLast ++ [selector] = selectors :=
    List.dropLast_append_getLast? _ last
  rw [← split] at selected
  obtain ⟨container, before, behind⟩ := selected.append
  have valued := ready.sane.varType found known
  rcases ready.base found known with ⟨code, loaded, reached⟩ | ⟨code, value, loaded, outside, constant⟩
  · refine .inl ⟨container, before.valued ready.sane valued, behind, .inr reached, ?_, ?_⟩
    · rw [Designator.emitContainer, succeeds_yields loaded,
        succeeds_bind_always fun _ _ _ => succeeds_pure _]
      exact emitSelectors_succeeds _ before valued ready room
    · intro code' tag mid emitted
      obtain ⟨_, _, _, loaded', selected', _⟩ := Designator.emitContainer_yields.mp emitted
      obtain ⟨same, _⟩ := loaded.unique loaded'
      obtain ⟨rfl, rfl⟩ := Prod.mk.inj same
      exact emitSelectors_type ready.toSees before valued selected'
  · refine .inr ⟨?_, ?_⟩
    · rintro (bare | inside | free)
      · rw [show selectors = [] from bare] at last
        cases last
      · exact outside inside
      · rw [show env.constants.lookup base.name = some value from constant] at free
        cases free
    · intro code' tag mid emitted
      obtain ⟨_, _, selected, loaded', selected', _⟩ := Designator.emitContainer_yields.mp emitted
      obtain ⟨same, _⟩ := loaded.unique loaded'
      obtain ⟨rfl, rfl⟩ := Prod.mk.inj same
      refine ⟨value, ?_⟩
      cases others : selectors.dropLast with
      | nil =>
        rw [others] at selected'
        exact (emitSelectors_nil_yields.mp selected').2.1
      | cons first rest =>
        rw [others] at selected'
        exact absurd ⟨_, _, selected'⟩ (emitSelectors_literal_fails value)

end Containers

section Writes

theorem Designator.supports_last (last : target.selectors.getLast? = some selector) :
    env.SupportsAll names target.nodes ↔ env.Supports names (.designator target) ∧
      env.SupportsAll names (selectorsNodes target.selectors.dropLast) ∧
      env.SupportsAll names (selectorsNodes [selector]) := by
  obtain ⟨id, base, selectors, span⟩ := target
  have split : selectors.dropLast ++ [selector] = selectors :=
    List.dropLast_append_getLast? _ last
  rw [Designator.nodes, Env.supportsAll_cons]
  conv_lhs => rw [← split]
  rw [selectorsNodes_append, Env.supportsAll_append, split]

theorem Env.Ready.put (ready : env.Ready frame sight names) {target : Designator} {type : Tag}
    (typed : target.Typed env.facts sight type)
    (writable : sight.isConstant target.base.name = false) :
    ∃ home code tag put, env.home frame target.base.name = .ok home ∧
      home.load = .ok (code, tag) ∧ home.put = some put := by
  obtain ⟨id, base, selectors, span⟩ := target
  obtain ⟨first, found, known, _⟩ := typed
  obtain ⟨constant, meant⟩ := Sight.varType?_eq_some.mp found
  obtain ⟨home, looked, holds⟩ := ready.home _ _ constant meant known
  cases home with
  | slot | static => exact ⟨_, _, _, _, looked, rfl, rfl⟩
  | constant value =>
    rw [Sight.isConstant, meant] at writable
    obtain ⟨rfl, _⟩ := holds
    cases writable

theorem Designator.succeeds_container {α : Type} (ready : env.Ready frame sight names)
    (typed : target.Typed env.facts sight result) (last : target.selectors.getLast? = some selector)
    (room : frame.locals.length + selectorsSlots target.selectors.dropLast ≤ slotLimit)
    {f : Piece × Tag → Emit α} {P : Prop}
    (part : ∀ code container mid,
      frame.Grows [] [] code mid (selectorsSlots target.selectors.dropLast) →
      env.Ready mid sight names → sight.registry.Valued container →
      SelectorsTyped env.facts sight container [selector] result →
      ((f (code, container)).Succeeds mid ↔ P))
    (partless : ∀ code (literal : Literal) mid, ¬ (f (code, literal.tag)).Succeeds mid) :
    (target.emitContainer env >>= f).Succeeds frame ↔
      (env.Supports names (.designator target) ∧
        env.SupportsAll names (selectorsNodes target.selectors.dropLast)) ∧ P := by
  rcases Designator.container_cases ready typed last room with
    ⟨container, valued, behind, supported, succeeds, tagged⟩ | ⟨unsupported, literal⟩
  · rw [and_iff_right supported]
    refine succeeds_bind_iff succeeds fun pair mid emitted => ?_
    obtain ⟨code, tag⟩ := pair
    obtain rfl := tagged code tag mid emitted
    have grown : frame.Emits [] [] code mid _ true _ := Designator.emitContainer_emits emitted
    exact part code tag mid grown.toGrows (ready.emits grown) valued behind
  · refine iff_of_false ?_ fun supported => unsupported supported.1.1
    rw [succeeds_bind]
    rintro ⟨⟨code, tag⟩, mid, emitted, rest⟩
    obtain ⟨value, rfl⟩ := literal code tag mid emitted
    exact partless code value mid rest

theorem SelectorsTyped.last_field {container : Tag} {field : Ident}
    (typed : SelectorsTyped env.facts sight container [.field field] result)
    (valued : sight.registry.Valued container) : sight.member? container field.name = some result := by
  obtain ⟨member, found, rfl⟩ := typed
  rcases found with ⟨unknown, _⟩ | ⟨_, looked, _⟩
  · exact absurd unknown valued.ne_unknown
  · exact looked

theorem SelectorsTyped.last_index {container : Tag} {index : Expr}
    (typed : SelectorsTyped env.facts sight container [.index index] result)
    (valued : sight.registry.Valued container) :
    index.Settled env.facts sight .int ∧ container.isList = true ∧ result = container.element := by
  obtain ⟨elem, indexed, element, rfl⟩ := typed
  rcases element with ⟨unknown, _⟩ | ⟨isList, same⟩
  · exact absurd unknown valued.ne_unknown
  · exact ⟨.inr indexed, isList, same⟩

theorem supportsAll_lastField {field : Ident} :
    env.SupportsAll names (selectorsNodes [.field field]) := by
  simp [selectorsNodes, Env.SupportsAll]

theorem supportsAll_lastIndex {index : Expr} :
    env.SupportsAll names (selectorsNodes [.index index]) ↔ env.SupportsAll names index.nodes := by
  simp [selectorsNodes]

theorem Designator.emitStore_succeeds {value : Emit Piece} {slots : Nat} {nodes : List Node}
    {told : Telling} (writable : target.Writable env.facts sight type)
    (emits : ∀ {before after : Frame} {code : Piece}, value.Yields before code after →
      before.Emits [] [] code after slots true told)
    (stores : env.Needs sight names value slots nodes) :
    env.Needs sight names (target.emitStore env value) (target.slots + slots) (target.nodes ++ nodes) := by
  intro frame ready room
  obtain ⟨typed, unfixed⟩ := writable
  unfold Designator.emitStore
  rw [Env.supportsAll_append]
  cases last : target.selectors.getLast? with
  | none =>
    have bare := List.getLast?_eq_none_iff.mp last
    rw [and_iff_right (Designator.supports_bare bare), ← stores ready (by omega)]
    refine succeeds_bind_always fun code mid emitted => ?_
    obtain ⟨home, _, _, put, looked, _, written⟩ :=
      (ready.emits (emits emitted)).put typed (unfixed bare)
    rw [succeeds_bind_pure]
    exact ⟨put, mid, emitPut_yields.mpr ⟨home, looked, written, rfl⟩⟩
  | some selector =>
    have count := Designator.slots_of_getLast? last
    rw [Designator.supports_last last, ← and_assoc, and_assoc]
    cases selector with
    | field field =>
      rw [and_iff_right supportsAll_lastField]
      refine Designator.succeeds_container ready typed last (by omega) ?_ fun code literal mid =>
        not_succeeds_lift (literal_classNamed literal)
      intro code container mid grown ready valued behind
      obtain ⟨className, named, _⟩ := ready.fieldOf (behind.last_field valued)
      rw [succeeds_lift named, succeeds_bind_pure]
      exact stores ready (by rw [grown.count]; omega)
    | index index =>
      simp only [selectorsSlots] at count
      rw [supportsAll_lastIndex]
      refine Designator.succeeds_container ready typed last (by omega) ?_ fun code literal mid => ?_
      · intro code container mid grown ready valued behind
        obtain ⟨indexed, isList, _⟩ := behind.last_index valued
        have size := grown.count
        refine succeeds_bind_iff (Expr.emit_succeeds index indexed ready (by omega))
          fun position mid' emitted => ?_
        have grown' : mid.Emits [] [] position mid' index.slots true _ := Expr.emit_emits index emitted
        obtain ⟨elem, typed, _⟩ := ready.type_of_valued (valued.element isList)
        rw [← stores (ready.emits grown') (by rw [grown'.count]; omega)]
        refine succeeds_bind_always fun stored after emitted => ?_
        rw [succeeds_lift typed]
        exact succeeds_pure _
      · simp only [succeeds_bind, not_exists, not_and]
        intro position mid' _ stored after _ elem after' typed
        exact absurd (yields_lift.mp typed).1 (literal_element literal elem)

theorem Designator.emitStep_succeeds {op : StepOp} (writable : target.Writable env.facts sight .int) :
    env.Needs sight names (target.emitStep env op) target.stepSlots target.nodes := by
  intro frame ready room
  obtain ⟨typed, unfixed⟩ := writable
  cases last : target.selectors.getLast? with
  | none =>
    have bare := List.getLast?_eq_none_iff.mp last
    refine iff_of_true ?_ (Designator.supports_bare bare)
    obtain ⟨home, code, tag, put, looked, loaded, written⟩ := ready.put typed (unfixed bare)
    exact ⟨_, frame, (Designator.emitStep_name_yields last).mpr
      ⟨home, code, tag, put, looked, loaded, written, rfl, rfl⟩⟩
  | some selector =>
    have count := Designator.slots_of_getLast? last
    unfold Designator.emitStep
    rw [last, Designator.supports_last last, ← and_assoc]
    cases selector with
    | field field =>
      simp only [Designator.stepSlots, last] at room
      refine Designator.succeeds_container ready typed last (by omega) ?_ fun code literal mid =>
        not_succeeds_lift (literal_classNamed literal)
      intro code container mid grown ready valued behind
      obtain ⟨className, named, _⟩ := ready.fieldOf (behind.last_field valued)
      rw [succeeds_lift named]
      exact iff_of_true (succeeds_pure _) supportsAll_lastField
    | index index =>
      simp only [selectorsSlots] at count
      simp only [Designator.stepSlots, last] at room
      refine Designator.succeeds_container ready typed last (by omega) ?_ fun code literal mid =>
        not_succeeds_lift (literal_element literal)
      intro code container mid grown ready valued behind
      obtain ⟨indexed, isList, _⟩ := behind.last_index valued
      have size := grown.count
      obtain ⟨elem, typedElem, _⟩ := ready.type_of_valued (valued.element isList)
      obtain ⟨list, typedList, _⟩ := ready.type_of_valued valued
      obtain ⟨int, typedInt⟩ := ready.type_int
      have more : (mid.withTemp list).locals.length = mid.locals.length + 1 := by
        simp [Frame.withTemp]
      rw [succeeds_lift typedElem, succeeds_temp typedList (by omega), supportsAll_lastIndex,
        ← Expr.emit_succeeds index indexed (ready.withTemp list) (by omega)]
      refine succeeds_bind_always fun position mid' emitted => ?_
      have grown' : (mid.withTemp list).Emits [] [] position mid' index.slots true _ :=
        Expr.emit_emits index emitted
      rw [succeeds_temp typedInt (by rw [grown'.count]; omega)]
      exact succeeds_pure _

theorem emitWrite_succeeds {value : Expr} {width : Option Int64}
    (typed : value.Typed env.facts sight type) (writable : type.isWritable = true)
    (fits : WidthFits width) :
    env.Needs sight names (emitWrite env value width) value.slots value.nodes := by
  intro frame ready room
  have settled : value.Settled env.facts sight type := .inr typed
  rw [← Expr.emit_succeeds value settled ready room]
  refine succeeds_bind_always fun code mid emitted => ?_
  have known : type ≠ .unknown := by
    rintro rfl
    cases writable
  obtain ⟨written, typedValue, _⟩ :=
    ready.type_of_valued ((settled.held ready.sane).resolve_left known)
  rw [succeeds_lift (Env.nodeType_of_facts settled.noted), succeeds_lift typedValue]
  cases width with
  | none => exact succeeds_pure _
  | some width =>
    simp only [if_pos (show fitsInt32 width.toInt = true from fits)]
    exact succeeds_pure _

end Writes

end StackCode
