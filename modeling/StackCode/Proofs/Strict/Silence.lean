import StackCode.Proofs.Strict.Statements
import StackCode.Proofs.Symbols.Scoping
import StackCode.Proofs.Typing.ProgramSound

namespace StackCode

open Noting Checking

theorem Registry.Valued.isKnown {registry : Registry} {tag : Tag} (valued : registry.Valued tag) :
    tag.isKnown = true := by
  rw [Tag.isKnown]
  rcases valued.2 with primitive | isClass
  · have bounds := Registry.isPrimitive_iff.mp primitive
    have known : tag.base ≠ .unknown := by
      intro unknown
      rw [unknown] at bounds
      exact absurd bounds (by decide)
    simpa [Tag.isUnknown] using known
  · have bounds := Registry.isClass_iff.mp isClass
    have known : tag.base ≠ .unknown := by
      intro unknown
      rw [unknown] at bounds
      exact absurd bounds.1 (by decide)
    simpa [Tag.isUnknown] using known

/-- The check never takes a report back; and under `pre`, if it reports nothing, it uses no name of
unknown type, and `P` holds of its result. -/
structure Noting.Silent {α : Type} (f : Noting α) (pre : Prop) (P : α → Prop) : Prop where
  grows : ∀ notes, notes.errors.size ≤ (f.outcome notes).2.errors.size
  silent : pre → ∀ notes, (f.outcome notes).2.errors.size = notes.errors.size →
    (f.outcome notes).2.unknownUses = notes.unknownUses ∧ P (f.outcome notes).1

/-- The same of a check that changes the state, started where `pre` holds. -/
structure Checking.Silent {α : Type} (f : Checking α) (pre : CheckState → Prop)
    (post : α → CheckState → Prop) : Prop where
  grows : ∀ state, state.errors.size ≤ (f.outcome state).2.errors.size
  silent : ∀ state, pre state → (f.outcome state).2.errors.size = state.errors.size →
    (f.outcome state).2.unknownUses = state.unknownUses ∧ post (f.outcome state).1 (f.outcome state).2

namespace Noting

variable {α β : Type} {f : Noting α} {pre : Prop} {P : α → Prop}

theorem Follows.silent {g : Strict β} {R : α → β → Prop} (follows : ∀ start, f.Follows start pre g R)
    (found : ∀ a b, R a b → P a) : f.Silent pre P where
  grows := (follows 0).grows
  silent holds notes same := by
    have follows := follows notes.tally
    cases ran : g.run notes.annotations with
    | none =>
      have more := follows.refused holds notes rfl ran
      omega
    | some result =>
      obtain ⟨a, done, related⟩ := follows.accepted holds notes rfl result.1 result.2 ran
      rw [done]
      exact ⟨rfl, found a _ related⟩

theorem Silent.bind {k : α → Noting β} {Q : β → Prop} (first : f.Silent pre P)
    (second : ∀ a, (k a).Silent (pre ∧ P a) Q) : (f >>= k).Silent pre Q := by
  refine ⟨fun notes => (first.grows notes).trans ((second _).grows _), fun holds notes same => ?_⟩
  have one := first.grows notes
  have two := (second (f.outcome notes).1).grows (f.outcome notes).2
  rw [outcome_bind] at same ⊢
  obtain ⟨uses, found⟩ := first.silent holds notes (by omega)
  obtain ⟨uses', found'⟩ := (second _).silent ⟨holds, found⟩ (f.outcome notes).2 (by omega)
  exact ⟨uses'.trans uses, found'⟩

theorem silent_pure {a : α} (found : pre → P a) : (pure a : Noting α).Silent pre P :=
  ⟨fun _ => le_refl _, fun holds _ _ => ⟨rfl, found holds⟩⟩

theorem silent_unless {condition : Prop} {_ : Decidable condition} {complaint : Noting Unit}
    {rest : Unit → Noting α} (complains : complaint.Complains) (more : (rest ()).Silent pre P) :
    (if condition then complaint >>= rest else rest ()).Silent pre P := by
  split
  · refine ⟨fun notes => (complains notes).le.trans (more.grows _), fun _ notes same => ?_⟩
    have one := complains notes
    have two := more.grows (complaint.outcome notes).2
    have same : (rest () |>.outcome (complaint.outcome notes).2).2.errors.size = notes.errors.size := same
    omega
  · exact more

end Noting

variable {name : Ident}

namespace Checking

variable {α β : Type} {f : Checking α} {pre pre' : CheckState → Prop} {post post' : α → CheckState → Prop}

def Grows (f : Checking α) : Prop := ∀ state, state.errors.size ≤ (f.outcome state).2.errors.size

def Quiet (f : Checking α) (state : CheckState) : Prop :=
  (f.outcome state).2.errors.size = state.errors.size

variable {k : α → Checking β}

theorem Grows.bind (first : f.Grows) (second : ∀ a, (k a).Grows) :
    (f >>= k).Grows := fun state => (first state).trans (second _ _)

theorem Grows.discard (grows : f.Grows) : (discard f).Grows := grows

theorem Quiet.bind {state : CheckState} (quiet : (f >>= k).Quiet state) (first : f.Grows)
    (second : ∀ a, (k a).Grows) : f.Quiet state ∧ (k (f.outcome state).1).Quiet (f.outcome state).2 := by
  have one := first state
  have two := second (f.outcome state).1 (f.outcome state).2
  have both : ((k (f.outcome state).1).outcome (f.outcome state).2).2.errors.size = state.errors.size :=
    quiet
  exact ⟨by unfold Quiet; omega, by unfold Quiet; omega⟩

theorem Follows.silent {g : Strictly α} (follows : f.Follows pre g post) : f.Silent pre post where
  grows := follows.grows
  silent state holds same := by
    cases ran : g.run state.strict with
    | none =>
      have more := follows.refused state holds ran
      omega
    | some result =>
      obtain ⟨done, found⟩ := follows.accepted state holds result.1 result.2 ran
      rw [done]
      exact ⟨rfl, found⟩

theorem Silent.of_pre (silent : f.Silent pre post) (stronger : ∀ state, pre' state → pre state) :
    f.Silent pre' post :=
  ⟨silent.grows, fun state holds => silent.silent state (stronger state holds)⟩

theorem Silent.bind {final : β → CheckState → Prop} (first : f.Silent pre post)
    (second : ∀ a, (k a).Silent (post a) final) : (f >>= k).Silent pre final := by
  refine ⟨fun state => (first.grows state).trans ((second _).grows _), fun state holds same => ?_⟩
  have one := first.grows state
  have two := (second (f.outcome state).1).grows (f.outcome state).2
  rw [outcome_bind] at same ⊢
  obtain ⟨uses, found⟩ := first.silent state holds (by omega)
  obtain ⟨uses', found'⟩ := (second _).silent (f.outcome state).2 found (by omega)
  exact ⟨uses'.trans uses, found'⟩

theorem silent_pure {a : α} (found : ∀ state, pre state → post a state) :
    (pure a : Checking α).Silent pre post :=
  ⟨fun _ => le_refl _, fun state holds _ => ⟨rfl, found state holds⟩⟩

theorem silent_modify {change : CheckState → CheckState} {post : CheckState → Prop}
    (quiet : ∀ state, (change state).errors = state.errors ∧ (change state).unknownUses = state.unknownUses)
    (keeps : ∀ state, pre state → post (change state)) :
    (modify change : Checking Unit).Silent pre fun _ => post :=
  ⟨fun state => (congrArg Array.size (quiet state).1).ge,
    fun state holds _ => ⟨(quiet state).2, keeps state holds⟩⟩

theorem introduce_grows (name : Ident) (declaration : SymbolTable → Option SymbolTable) :
    (introduce name declaration).Grows := by
  intro state
  rw [outcome_introduce]
  cases declaration state.table with
  | some next => exact le_refl _
  | none => exact (complains_report (.redeclaration name.name) name.span state.toNotes).le

theorem silent_introduce {declaration : SymbolTable → Option SymbolTable} {post : CheckState → Prop}
    (keeps : ∀ state next, pre state → declaration state.table = some next →
      post { state with table := next }) :
    (introduce name declaration).Silent pre fun _ => post := by
  refine ⟨introduce_grows name declaration, fun state holds same => ?_⟩
  rw [outcome_introduce] at same ⊢
  cases declared : declaration state.table with
  | some next => exact ⟨rfl, keeps state next holds declared⟩
  | none =>
    rw [declared] at same
    exact absurd same (complains_report (.redeclaration name.name) name.span state.toNotes).ne'

theorem Silent.discard {post : CheckState → Prop} (silent : f.Silent pre fun _ => post) :
    (discard f).Silent pre fun _ => post :=
  ⟨silent.grows, silent.silent⟩

theorem silent_forM {act : α → Checking Unit} {xs : List α}
    (each : ∀ x ∈ xs, (act x).Silent pre fun _ => pre) : (xs.forM act).Silent pre fun _ => pre := by
  induction xs with
  | nil => exact silent_pure fun _ holds => holds
  | cons x xs ih =>
    rw [List.forall_mem_cons] at each
    exact each.1.bind fun _ => ih each.2

end Checking

/-! Declarations use no names. -/

def SymbolKind.Stands (type : Tag) : SymbolKind → Prop
  | .var _ => type.isKnown = true
  | .method result params => result.isKnown = true ∧ ∀ param ∈ params, param.isKnown = true
  | .classType => type.isProper = true

def SymbolKind.globalSite : SymbolKind → Site
  | .var true => .constant
  | .var false => .global
  | .method _ _ => .method
  | .classType => .classDecl

namespace SymbolTable

variable {table later : SymbolTable}

theorem known_iff_stands : table.Known ↔ (∀ symbol ∈ table.visible, symbol.kind.Stands symbol.type) ∧
    ∀ className, ∀ symbol ∈ table.fieldsOf className, symbol.type.isKnown = true := by
  constructor
  · refine fun known => ⟨fun symbol member => ?_, known.fields⟩
    cases kind : symbol.kind with
    | var constant => exact known.vars symbol member (by simp [Symbol.isVariable, kind])
    | method result params => exact known.methods symbol member result params kind
    | classType => exact known.classes symbol member (by simp [Symbol.isClass, kind])
  · rintro ⟨stands, fields⟩
    refine ⟨fun symbol member isVariable => ?_, fields, fun symbol member result params isMethod => ?_,
      fun symbol member isClass => ?_⟩
    · obtain ⟨constant, kind⟩ : ∃ constant, symbol.kind = .var constant := by
        unfold Symbol.isVariable at isVariable
        split at isVariable
        · exact ⟨_, ‹_›⟩
        · cases isVariable
      have stands := stands symbol member
      rwa [kind] at stands
    · have stands := stands symbol member
      rwa [isMethod] at stands
    · have kind : symbol.kind = .classType := by simpa [Symbol.isClass] using isClass
      have stands := stands symbol member
      rwa [kind] at stands

def Opening (table : SymbolTable) : Prop :=
  table.Stocked (fun _ symbol => symbol.kind.Stands symbol.type ∧ symbol.site = symbol.kind.globalSite)
    fun _ symbol => symbol.type.isKnown = true

namespace Opening

variable (opening : table.Opening)

include opening

theorem known : table.Known :=
  known_iff_stands.mpr ⟨fun symbol member => (opening.symbols symbol member).1, opening.fields⟩

theorem declareClass {decl : Span} (declared : table.declareClass? name decl = some later) :
    later.Opening := by
  refine Stocked.declareClass opening (fun _ stands => stands) (fun _ known => known) ⟨?_, rfl⟩ declared
  rcases Registry.name?_register table.registry name.name with unknown | named
  · rw [symbol, unknown]
    rfl
  · have isClass := Registry.isClass_iff_named.mpr ⟨_, named⟩
    exact Tag.isProper_of_isKnown (Registry.valued_of_isClass isClass).isKnown

end Opening

end SymbolTable

section Declarations

theorem silent_note {α : Type} {f : SymbolTable → Noting α} {P : α → Prop}
    (silent : ∀ table, (f table).Silent table.Known P) :
    (note f).Silent (·.table.Opening) fun a after => after.table.Opening ∧ P a := by
  refine ⟨fun state => (silent state.table).grows state.toNotes, fun state opening same => ?_⟩
  obtain ⟨uses, found⟩ := (silent state.table).silent opening.known state.toNotes same
  exact ⟨uses, opening, found⟩

theorem namedType_silent (table : SymbolTable) (type : TypeName) {pre : Prop}
    (known : pre → table.Known) : (table.namedType type).Silent pre fun tag => tag.isKnown = true :=
  Follows.silent (fun _ => namedType_follows known type) fun _ _ found => found.2

theorem namedValueType_silent (table : SymbolTable) (type : TypeName) {pre : Prop}
    (known : pre → table.Known) :
    (table.namedValueType type).Silent pre fun tag => tag.isKnown = true :=
  Follows.silent (fun _ => namedValueType_follows known type) fun _ _ found => found.2

theorem namedParams_silent (table : SymbolTable) (params : List Param) {pre : Prop}
    (known : pre → table.Known) :
    (namedParams table params).Silent pre fun types => ∀ type ∈ types, type.isKnown = true := by
  induction params generalizing pre with
  | nil => exact Noting.silent_pure fun _ => List.forall_mem_nil _
  | cons param params ih =>
    exact (namedValueType_silent table param.type known).bind fun type =>
      (ih fun holds => known holds.1).bind fun types =>
      Noting.silent_pure fun holds => List.forall_mem_cons.mpr ⟨holds.1.2, holds.2⟩

theorem declareClasses_silent : ∀ items : List Item,
    (declareClasses items).Silent (·.table.Opening) fun _ after => after.table.Opening
  | [] => Checking.silent_pure fun _ opening => opening
  | .classDecl decl :: rest => by
    rw [declareClasses]
    exact (silent_introduce fun _ _ opening declared => opening.declareClass declared).bind fun _ =>
      (declareClasses_silent rest).bind fun _ => Checking.silent_pure fun _ opening => opening
  | .const _ :: rest | .vars _ :: rest | .method _ :: rest => declareClasses_silent rest

theorem declareFieldNames_silent (className : String) (type : Tag) (decl : Span) (names : List Ident) :
    (declareFieldNames className type decl names).Silent
      (fun state => state.table.Opening ∧ type.isKnown = true) fun _ after => after.table.Opening := by
  induction names with
  | nil => exact Checking.silent_pure fun _ holds => holds.1
  | cons name names ih =>
    exact (silent_introduce fun _ _ holds declared =>
      ⟨(holds.1.declareField holds.2 declared).1, holds.2⟩).discard.bind fun _ => ih

theorem declareMembers_silent (className : String) (decls : List VarDecl) :
    (declareMembers className decls).Silent (·.table.Opening) fun _ after => after.table.Opening := by
  induction decls with
  | nil => exact Checking.silent_pure fun _ opening => opening
  | cons decl decls ih =>
    exact (silent_note fun table => namedValueType_silent table decl.type id).bind fun type =>
      (declareFieldNames_silent className type decl.span decl.names).bind fun _ => ih

theorem declareNames_silent (type : Tag) (decl : Span) (names : List Ident) :
    (declareNames type .global decl names).Silent
      (fun state => state.table.Opening ∧ type.isKnown = true) fun _ after => after.table.Opening := by
  induction names with
  | nil => exact Checking.silent_pure fun _ holds => holds.1
  | cons name names ih =>
    exact (silent_introduce fun _ _ holds declared =>
      ⟨(holds.1.declareVar ⟨holds.2, rfl⟩ declared).1, holds.2⟩).discard.bind fun _ => ih

theorem ConstDecl.declare_silent (decl : ConstDecl) :
    decl.declare.Silent (·.table.Opening) fun _ after => after.table.Opening := by
  have typed : ∀ table : SymbolTable, (decl.declaredType table).Silent table.Known
      fun type => type.isKnown = true := fun table =>
    (namedValueType_silent table decl.type id).bind fun type =>
      (Follows.silent (fun _ => decl.value.check_follows decl.name.span) fun _ _ _ => trivial).bind fun _ =>
      silent_unless (complains_mismatch _ _) (Noting.silent_pure fun holds => holds.1.2)
  exact (silent_note typed).bind fun type =>
    (silent_introduce fun _ _ holds declared => (holds.1.declareVar ⟨holds.2, rfl⟩ declared).1).discard

theorem MethodDecl.declare_silent (decl : MethodDecl) :
    decl.declare.Silent (·.table.Opening) fun _ after => after.table.Opening := by
  have signature : ∀ table : SymbolTable, (decl.signature table).Silent table.Known fun types =>
      types.1.isKnown = true ∧ ∀ param ∈ types.2, param.isKnown = true := by
    intro table
    have behind : ∀ (result : Tag), (do return (result, ← namedParams table decl.params)).Silent
        (table.Known ∧ result.isKnown = true) fun types =>
          types.1.isKnown = true ∧ ∀ param ∈ types.2, param.isKnown = true := fun result =>
      (namedParams_silent table decl.params And.left).bind fun params =>
        Noting.silent_pure fun holds => ⟨holds.1.2, holds.2⟩
    unfold MethodDecl.signature
    cases decl.result with
    | some type => exact (namedType_silent table type id).bind behind
    | none =>
      have void : (pure Tag.void : Noting Tag).Silent table.Known fun type => type.isKnown = true :=
        Noting.silent_pure fun _ => rfl
      exact void.bind behind
  exact (silent_note signature).bind fun types =>
    (silent_introduce fun _ _ holds declared => (holds.1.declareMethod ⟨holds.2, rfl⟩ declared).1).discard

theorem Item.declare_silent (item : Item) :
    item.declare.Silent (·.table.Opening) fun _ after => after.table.Opening := by
  cases item with
  | const decl => exact decl.declare_silent
  | vars decl =>
    exact (silent_note fun table => namedValueType_silent table decl.type id).bind fun type =>
      declareNames_silent type decl.span decl.names
  | method decl => exact decl.declare_silent
  | classDecl decl => exact Checking.silent_pure fun _ opening => opening

theorem Program.declaring_silent (program : Program) :
    program.declaring.Silent (·.table.Opening) fun _ after => after.table.Opening :=
  (declareClasses_silent program.items).bind fun _ =>
    (silent_forM fun decl _ => declareMembers_silent decl.name.name decl.fields).bind fun _ =>
    silent_forM fun item _ => item.declare_silent

end Declarations

def Param.hides (param later : Param) : Bool :=
  (Tag.keyword? param.name.name).isNone && (splitDimensions later.type.name).1 == param.name.name

def MethodDecl.hidesNothing (decl : MethodDecl) : Bool :=
  decl.params.Pairwise fun param later => param.hides later = false

namespace SymbolTable

variable {table : SymbolTable}

theorem typeOf_push (recorded : table.Recorded) {param : Param} {text : TypeName}
    (shown : Param.hides param ⟨text, name⟩ = false) (type : Tag) (site : Site) (kind : SymbolKind)
    (decl : Span) :
    (table.push param.name type site kind decl).typeOf text.name = table.typeOf text.name := by
  have same : Tag.ofName (table.push param.name type site kind decl).classTag?
      (splitDimensions text.name).1 = Tag.ofName table.classTag? (splitDimensions text.name).1 := by
    unfold Tag.ofName
    cases isKeyword : Tag.keyword? (splitDimensions text.name).1 with
    | some tag => rfl
    | none =>
      have other : param.name.name ≠ (splitDimensions text.name).1 := by
        intro same
        simp [Param.hides, same, isKeyword] at shown
      rw [Option.none_or, Option.none_or, classTag?, classTag?, lookup?, lookup?,
        visible_push _ _ _ _ _ recorded, List.find?_cons_of_neg (by simpa [symbol] using other)]
  rw [typeOf, typeOf, Tag.ofBracketed, Tag.ofBracketed]
  dsimp only
  rw [same]

end SymbolTable

theorem silent_get {α : Type} {k : CheckState → Checking α} {pre : CheckState → Prop}
    {post : α → CheckState → Prop}
    (more : ∀ start, (k start).Silent (fun state => state = start ∧ pre state) post) :
    (get >>= k).Silent pre post :=
  ⟨fun state => (more state).grows state, fun state holds => (more state).silent state ⟨rfl, holds⟩⟩

def SymbolTable.Types (table : SymbolTable) (params : List Param) : Prop :=
  ∀ param ∈ params, table.typeOf param.type.name ≠ .unknown ∧ table.typeOf param.type.name ≠ .void

theorem declareParams_silent (params : List Param)
    (apart : params.Pairwise fun param later => param.hides later = false) :
    (declareParams params).Silent
      (fun state => state.Known ∧ state.table.Recorded ∧ state.table.Types params)
      fun _ after => after.Known := by
  induction params with
  | nil => exact Checking.silent_pure fun _ holds => holds.1
  | cons param params ih =>
    rw [List.pairwise_cons] at apart
    rw [declareParams]
    refine silent_get fun start => ?_
    refine (Silent.discard (silent_introduce ?_)).bind fun _ => ih apart.2
    rintro state next ⟨rfl, known, recorded, types⟩ declared
    unfold SymbolTable.declareVar? at declared
    split at declared
    · cases declared
    · cases declared
      obtain ⟨⟨unknown, void⟩, types⟩ := List.forall_mem_cons.mp types
      have type : state.table.paramType param.type = state.table.typeOf param.type.name := by
        simp [SymbolTable.paramType, void]
      have real : (state.table.paramType param.type).isKnown = true := by
        rw [type]
        exact Tag.isKnown_of_isProper (known.table.typeOf _) unknown
      refine ⟨⟨known.table.push real _ _ _, known.expectedResult⟩,
        SymbolTable.recorded_push recorded _ _ _ _ _, fun later member => ?_⟩
      rw [SymbolTable.typeOf_push recorded (apart.1 later member)]
      exact types later member

theorem declareParams_grows : ∀ params : List Param, (declareParams params).Grows
  | [] => fun _ => le_refl _
  | param :: params => by
    have looked : (get : Checking CheckState).Grows := fun _ => le_refl _
    rw [declareParams]
    exact looked.bind fun _ => (introduce_grows _ _).discard.bind fun _ => declareParams_grows params

theorem MethodDecl.check_grows (decl : MethodDecl) : decl.check.Grows :=
  Grows.bind (fun _ => le_refl _) fun _ => Grows.bind (fun _ => le_refl _) fun _ =>
    Grows.bind (declareParams_grows decl.params) fun _ =>
    Grows.bind (checkItems_follows decl.body.items).grows fun _ =>
    Grows.bind (fun _ => le_refl _) fun _ _ => le_refl _

theorem checkMethods_grows : ∀ items : List Item, (checkMethods items).Grows
  | [] => fun _ => le_refl _
  | .method decl :: rest => Grows.bind decl.check_grows fun _ => checkMethods_grows rest
  | .const _ :: rest | .vars _ :: rest | .classDecl _ :: rest => checkMethods_grows rest

theorem MethodDecl.check_silent (decl : MethodDecl) (apart : decl.hidesNothing = true) :
    decl.check.Silent (fun state => state.table.Opening ∧ (Item.method decl).HeadTyped state.table.sight)
      fun _ _ => True := by
  have entered : (modify fun state : CheckState =>
      { state with expectedResult := state.table.resultType decl.result } : Checking Unit).Silent
      (fun state => state.table.Opening ∧ (Item.method decl).HeadTyped state.table.sight)
      fun _ state => state.Known ∧ state.table.Recorded ∧ state.table.Types decl.params := by
    refine silent_modify (fun _ => ⟨rfl, rfl⟩) fun state held => ?_
    obtain ⟨opening, result, params⟩ := held
    refine ⟨⟨opening.known, ?_⟩, opening.recorded, fun param member => ?_⟩
    · change (state.table.resultType decl.result).isKnown = true
      cases written : decl.result with
      | none => rfl
      | some type =>
        rw [written] at result
        refine Tag.isKnown_of_isProper (opening.known.typeOf type.name) ?_
        rw [SymbolTable.resultType, ← SymbolTable.sight_typeOf]
        exact result
    · have stores := params param member
      rwa [Sight.Stores, SymbolTable.sight_typeOf] at stores
  have opened : openScope.Silent
      (fun state => state.Known ∧ state.table.Recorded ∧ state.table.Types decl.params)
      fun _ state => state.Known ∧ state.table.Recorded ∧ state.table.Types decl.params := by
    refine silent_modify (fun _ => ⟨rfl, rfl⟩) fun state held => ?_
    obtain ⟨known, recorded, types⟩ := held
    exact ⟨⟨known.table.openScope, known.expectedResult⟩, ⟨recorded.active, recorded.fields⟩, types⟩
  have left : (modify fun state : CheckState => { state with expectedResult := .void } :
      Checking Unit).Silent CheckState.Known fun _ _ => True :=
    silent_modify (fun _ => ⟨rfl, rfl⟩) fun _ _ => trivial
  exact entered.bind fun _ => opened.bind fun _ =>
    (declareParams_silent decl.params (of_decide_eq_true apart)).bind fun _ =>
    (checkItems_follows decl.body.items).silent.bind fun _ => closeScope_follows.silent.bind fun _ => left

theorem checkMethods_silent : ∀ items : List Item,
    (∀ decl, Item.method decl ∈ items → decl.hidesNothing = true) →
    (checkMethods items).Silent
      (fun state => state.table.Opening ∧ ∀ item ∈ items, item.HeadTyped state.table.sight)
      fun _ _ => True
  | [], _ => Checking.silent_pure fun _ _ => trivial
  | .method decl :: rest, apart => by
    rw [checkMethods]
    have first := decl.check_silent (apart decl (by simp))
    have checked : decl.check.Silent (fun state => state.table.Opening ∧
        ∀ item ∈ Item.method decl :: rest, item.HeadTyped state.table.sight)
        fun _ after => after.table.Opening ∧ ∀ item ∈ rest, item.HeadTyped after.table.sight := by
      refine ⟨first.grows, fun state ⟨opening, heads⟩ same => ?_⟩
      rw [List.forall_mem_cons] at heads
      have checks : decl.check.Checks (itemsAnnotated decl.body.items) CheckState.Passed
          (fun other => other.Outside state.table.sight [] ∧
            (Item.method decl).HeadTyped state.table.sight) _ := decl.check_checks
      have passed : state.Passed (decl.check.outcome state).2 := (checks state).2.1
      refine ⟨(first.silent state ⟨opening, heads.1⟩ same).1, opening.extends passed.table, ?_⟩
      rw [passed.table.sight opening.recorded]
      exact heads.2
    exact checked.bind fun _ => checkMethods_silent rest fun decl member => apart decl (by simp [member])
  | .const _ :: rest, apart | .vars _ :: rest, apart | .classDecl _ :: rest, apart =>
    (checkMethods_silent rest fun decl member => apart decl (by simp [member])).of_pre
      fun _ ⟨opening, heads⟩ => ⟨opening, fun item member => heads item (by simp [member])⟩

theorem checkEntry_silent (entry : String) (span : Span) :
    (checkEntry entry span).Silent (fun _ => True) fun _ _ => True := by
  refine silent_get fun start => ?_
  split
  · refine ⟨fun state => (complains_report _ _ state.toNotes).le, fun state _ same => ?_⟩
    exact ⟨rfl, trivial⟩
  · exact Checking.silent_pure fun _ _ => trivial

def Program.declared (program : Program) : CheckState :=
  (program.declaring.outcome { table := SymbolTable.openScope {} }).2

theorem Program.quiet_of_errors {program : Program} {entry : String}
    (quiet : (program.check entry).errors = #[]) :
    program.declared.errors.size = 0 ∧ (checkMethods program.items).Quiet program.declared ∧
      (checkEntry entry program.span).Quiet ((checkMethods program.items).outcome program.declared).2 := by
  let checked := ((checkMethods program.items).outcome program.declared).2
  have ends : ((checkEntry entry program.span).outcome checked).2 = program.check entry := rfl
  have first : program.declared.errors.size ≤ checked.errors.size :=
    checkMethods_grows program.items program.declared
  have second := (checkEntry_silent entry program.span).grows checked
  have none : (program.check entry).errors.size = 0 := by rw [quiet]; rfl
  rw [ends] at second
  unfold Quiet
  change _ ∧ checked.errors.size = _ ∧ (program.check entry).errors.size = checked.errors.size
  omega

theorem Program.declared_of_quiet {program : Program}
    (quiet : program.declared.errors.size = 0) :
    program.declared.unknownUses = 0 ∧ program.declared.table.Opening ∧
      program.Declared program.declared.table := by
  obtain ⟨uses, opening⟩ := program.declaring_silent.silent { table := SymbolTable.openScope {} }
    SymbolTable.stocked_empty.openScope quiet
  have uses : program.declared.unknownUses = 0 := uses
  have tally : program.declared.tally = 0 := by
    rw [Notes.tally, uses]
    exact quiet
  obtain ⟨_, _, _, _, _, holds⟩ := program.declaring_checks { table := SymbolTable.openScope {} }
  exact ⟨uses, opening, (holds tally (CheckState.begun_openScope program.items) (fun _ _ => True)
    fun _ _ => trivial).1⟩

/-- If nothing is reported and no parameter hides the class that a later one is of, no name of
unknown type has been used. -/
theorem Program.unknownUses_eq_zero (program : Program) (entry : String)
    (apart : ∀ decl, Item.method decl ∈ program.items → decl.hidesNothing = true)
    (quiet : (program.check entry).errors = #[]) : (program.check entry).unknownUses = 0 := by
  obtain ⟨declares, methods, enters⟩ := program.quiet_of_errors quiet
  obtain ⟨uses, opening, declared⟩ := program.declared_of_quiet declares
  have first := (checkMethods_silent program.items apart).silent program.declared
    ⟨opening, declared.heads⟩ methods
  have second := (checkEntry_silent entry program.span).silent _ trivial enters
  exact second.1.trans (first.1.trans uses)

def Item.hidesNothing : Item → Bool
  | .method decl => decl.hidesNothing
  | _ => true

theorem totals_unknownUses :
    (∀ decl, Item.method decl ∈ Sample.totals.items → decl.hidesNothing = true) ∧
      (Sample.totals.check "Main").errors = #[] ∧ (Sample.totals.check "Main").unknownUses = 0 := by
  have apart : ∀ item ∈ Sample.totals.items, item.hidesNothing = true := by decide
  have quiet : (Sample.totals.check "Main").errors = #[] := Sample.totals_accepted.2.1
  exact ⟨fun decl member => apart _ member, quiet,
    Program.unknownUses_eq_zero Sample.totals "Main" (fun decl member => apart _ member) quiet⟩

/-- `class C { int f; } void Foo(int C, C x) { C = x + 1; } void Main() { }` -/
def Sample.hiddenClass : Program :=
  program [
    .classDecl ⟨⟨"C", {}⟩, [vars "int" ["f"]], {}⟩,
    method none "Foo" [("int", "C"), ("C", "x")] [
      .stmt (.assign (place "C" []) (sum (term (load "x" []) []) [(.add, term (int 1) [])]) {})],
    method none "Main" [] []]

/-- The sum of an object and a number is accepted where a parameter hides the class. -/
theorem hiddenClass_unknownUses : (Sample.hiddenClass.check "Main").errors = #[] ∧
    (Sample.hiddenClass.check "Main").unknownUses = 1 := by
  decide +kernel

end StackCode
