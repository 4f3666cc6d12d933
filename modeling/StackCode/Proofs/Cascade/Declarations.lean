import StackCode.Proofs.Balance.Tables
import StackCode.Proofs.Cascade.Expressions
import StackCode.Proofs.Strict.Silence

namespace StackCode

open Noting Checking

variable {type : Tag}

section Registries

variable {registry larger : Registry}

theorem Registry.isClass_of_longer (longer : registry.names <+: larger.names)
    (isClass : registry.isClass type = true) : larger.isClass type = true := by
  obtain ⟨name, named⟩ := Registry.isClass_iff_named.mp isClass
  exact Option.isSome_iff_exists.mpr ⟨name, Registry.name?_of_longer longer named⟩

theorem Registry.Held.of_longer (longer : registry.names <+: larger.names) {type : Tag}
    (held : registry.Held type) : larger.Held type :=
  held.imp_right (Registry.Valued.of_longer longer)

theorem Symbol.Held.of_longer (longer : registry.names <+: larger.names) {symbol : Symbol}
    (held : symbol.Held registry) : symbol.Held larger := by
  unfold Symbol.Held at held ⊢
  split at held
  · exact held.of_longer longer
  · exact ⟨held.1.imp_right (Registry.Held.of_longer longer), fun param member =>
      (held.2 param member).of_longer longer⟩
  · exact held.imp_right (Registry.isClass_of_longer longer)

end Registries

variable {name : Ident}

theorem SymbolTable.Held.declareClass {table later : SymbolTable} (held : table.Held) {decl : Span}
    (declared : table.declareClass? name decl = some later) : later.Held := by
  have longer := table.registry.names_register name.name
  refine Stocked.declareClass held (fun _ known => known.of_longer longer)
    (fun _ known => known.of_longer longer) ?_ declared
  exact (table.registry.name?_register name.name).imp_right fun named =>
    Option.isSome_iff_exists.mpr ⟨_, named⟩

namespace Checking

variable {α β : Type} {state : CheckState}

/-- From this state on, the check reports as it should and leaves a table as it should be; and what it
finds is as `post` says. -/
def Tidies (f : Checking α) (state : CheckState) (post : α → CheckState → Prop) : Prop :=
  state.toNotes.Leads (f.outcome state).2.toNotes ∧ (f.outcome state).2.table.Held ∧
    post (f.outcome state).1 (f.outcome state).2

variable {f : Checking α} {post weaker : α → CheckState → Prop} {Q : β → CheckState → Prop}

theorem Tidies.mono (tidies : f.Tidies state post)
    (implies : ∀ a after, post a after → weaker a after) : f.Tidies state weaker :=
  ⟨tidies.1, tidies.2.1, implies _ _ tidies.2.2⟩

theorem Tidies.bind {k : α → Checking β} (first : f.Tidies state post)
    (second : ∀ a after, after.table.Held → post a after → (k a).Tidies after Q) :
    (f >>= k).Tidies state Q := by
  obtain ⟨leads, rest⟩ := second _ _ first.2.1 first.2.2
  exact ⟨first.1.trans leads, rest⟩

theorem tidies_pure (held : state.table.Held) {a : α} (holds : post a state) :
    (pure a : Checking α).Tidies state post :=
  ⟨Notes.Leads.refl _, held, holds⟩

theorem tidies_get {k : CheckState → Checking β} (more : (k state).Tidies state Q) :
    (get >>= k).Tidies state Q :=
  more

theorem tidies_note {g : SymbolTable → Noting α} (held : state.table.Held)
    {told : α → Notes → Prop} (tells : (g state.table).Tells state.toNotes told) :
    (note g).Tidies state fun a after => after.table = state.table ∧ told a after.toNotes :=
  ⟨tells.1, held, rfl, tells.2⟩

theorem tidies_introduce {declaration : SymbolTable → Option SymbolTable} (held : state.table.Held)
    {P : SymbolTable → Prop} (before : P state.table)
    (declares : ∀ later, declaration state.table = some later → later.Held ∧ P later) :
    (introduce name declaration).Tidies state fun _ after => P after.table := by
  rw [Tidies, outcome_introduce]
  cases declared : declaration state.table with
  | some later => exact ⟨Notes.Leads.refl _, declares later declared⟩
  | none =>
    have told : (Noting.report (.redeclaration name.name) name.span).Tells state.toNotes fun _ after =>
        state.toNotes.tally < after.tally := tells_report (by simp [Problem.types]) _
    exact ⟨told.1, held, before⟩

theorem tidies_declare {declaration : SymbolTable → Option SymbolTable} (held : state.table.Held)
    (declares : ∀ later, declaration state.table = some later →
      later.Held ∧ later.registry = state.table.registry) :
    (discard (introduce name declaration)).Tidies state fun _ after =>
      after.table.registry = state.table.registry :=
  tidies_introduce (P := fun table => table.registry = state.table.registry) held rfl declares

theorem tidies_forM {act : α → Checking Unit} {items : List α}
    (each : ∀ a ∈ items, ∀ state, state.table.Held → (act a).Tidies state fun _ _ => True)
    (held : state.table.Held) : (items.forM act).Tidies state fun _ _ => True := by
  induction items generalizing state with
  | nil => exact tidies_pure held trivial
  | cons item items ih =>
    rw [List.forall_mem_cons] at each
    exact (each.1 state held).bind fun _ _ held _ => ih each.2 held

end Checking

section Declared

variable {state : CheckState}

theorem Given.held {registry : Registry} {start : Nat} {notes : Notes}
    (given : Given registry start type notes) (known : type ≠ .void) : registry.Held type := by
  rcases given with valued | ⟨unknown | void, _⟩
  · exact .inr valued
  · exact .inl unknown
  · exact absurd void known

theorem namedValueType_held {table : SymbolTable} (held : table.Held) (type : TypeName) (notes : Notes) :
    (table.namedValueType type).Tells notes fun tag _ => table.registry.Held tag := by
  have value : ((table.namedValueType type).outcome notes).1 ≠ .void := by
    rw [namedValueType_result]
    split
    · exact by decide
    · rename_i value
      simpa using value
  refine (namedValueType_tells held type).result.mono fun tag _ _ told => ?_
  exact told.2.2.held (told.1 ▸ value)

theorem declareNames_tidies (site : Site) (decl : Span) (names : List Ident) (held : state.table.Held)
    (known : state.table.registry.Held type) :
    (declareNames type site decl names).Tidies state fun _ _ => True := by
  induction names generalizing state with
  | nil => exact tidies_pure held trivial
  | cons name names ih =>
    rw [declareNames]
    refine (tidies_declare held fun later declared => held.declareVar known declared).bind
      fun _ after held same => ih held ?_
    rw [same]
    exact known

theorem VarDecl.declare_tidies (decl : VarDecl) (site : Site) (held : state.table.Held) :
    (decl.declare site).Tidies state fun _ _ => True := by
  refine (tidies_note held (namedValueType_held held decl.type _)).bind fun type after held told => ?_
  obtain ⟨same, known⟩ := told
  exact declareNames_tidies site decl.span decl.names held (same ▸ known)

theorem declareFieldNames_tidies (className : String) (decl : Span) (names : List Ident)
    (held : state.table.Held) (known : state.table.registry.Held type) :
    (declareFieldNames className type decl names).Tidies state fun _ _ => True := by
  induction names generalizing state with
  | nil => exact tidies_pure held trivial
  | cons name names ih =>
    rw [declareFieldNames]
    refine (tidies_declare held fun later declared => held.declareField known declared).bind
      fun _ after held same => ih held ?_
    rw [same]
    exact known

theorem declareMembers_tidies (className : String) (decls : List VarDecl) (held : state.table.Held) :
    (declareMembers className decls).Tidies state fun _ _ => True := by
  induction decls generalizing state with
  | nil => exact tidies_pure held trivial
  | cons decl decls ih =>
    refine (tidies_note held (namedValueType_held held decl.type _)).bind fun type mid held told => ?_
    obtain ⟨same, known⟩ := told
    exact (declareFieldNames_tidies className decl.span decl.names held (same ▸ known)).bind
      fun _ after held _ => ih held

theorem declareClasses_tidies (items : List Item) (held : state.table.Held) :
    (declareClasses items).Tidies state fun _ _ => True := by
  induction items generalizing state with
  | nil => exact tidies_pure held trivial
  | cons item items ih =>
    cases item with
    | classDecl decl =>
      have declared : (introduce decl.name (·.declareClass? decl.name decl.span)).Tidies state
          fun _ _ => True :=
        tidies_introduce (P := fun _ => True) held trivial fun later declared =>
          ⟨held.declareClass declared, trivial⟩
      exact declared.bind fun fresh mid held _ => (ih held).bind fun classes after held _ =>
        tidies_pure held trivial
    | const decl | vars decl | method decl => exact ih held

theorem Literal.check_remarks (literal : Literal) (span : Span) (notes : Notes) :
    (literal.check span).Tells notes fun _ _ => True := by
  unfold Literal.check
  cases literal with
  | int | char =>
    exact tells_unless (fun _ => tells_remark _ (by simp [Mismatch.types]) _) fun _ _ => tells_pure trivial
  | float x | double x | str s | bool b | null => exact tells_pure trivial

theorem ConstDecl.declare_tidies (decl : ConstDecl) (held : state.table.Held) :
    decl.declare.Tidies state fun _ _ => True := by
  have told : (decl.declaredType state.table).Tells state.toNotes fun tag _ =>
      state.table.registry.Held tag := by
    refine (namedValueType_held held decl.type _).bind fun type mid _ known => ?_
    refine (decl.value.check_remarks decl.name.span mid).bind fun value after _ _ => ?_
    refine tells_unless (fun wrong => ?_) fun _ _ => tells_pure known
    have definite : .unknown ∉ (Mismatch.constantValue decl.name.name type decl.value).types := by
      rw [Mismatch.types, List.mem_singleton]
      rintro rfl
      exact absurd wrong (by simp [Tag.isUnknown])
    exact tells_remark _ definite _
  rw [ConstDecl.declare]
  refine (tidies_note held told).bind fun type after held found => ?_
  obtain ⟨same, known⟩ := found
  refine (tidies_declare held fun later declared => held.declareVar (same ▸ known) declared).mono
    fun _ _ _ => trivial

theorem namedParams_tells {table : SymbolTable} (held : table.Held) (params : List Param) (notes : Notes) :
    (namedParams table params).Tells notes fun types _ => ∀ type ∈ types, table.registry.Held type := by
  induction params generalizing notes with
  | nil => exact tells_pure (List.forall_mem_nil _)
  | cons param params ih =>
    exact (namedValueType_held held param.type notes).bind fun _ mid _ first => (ih mid).bind
      fun _ _ _ rest => tells_pure (List.forall_mem_cons.mpr ⟨first, rest⟩)

theorem MethodDecl.declare_tidies (decl : MethodDecl) (held : state.table.Held) :
    decl.declare.Tidies state fun _ _ => True := by
  have told : (decl.signature state.table).Tells state.toNotes fun signature _ =>
      (signature.1 = .void ∨ state.table.registry.Held signature.1) ∧
        ∀ param ∈ signature.2, state.table.registry.Held param := by
    have params (tag : Tag) (known : tag = .void ∨ state.table.registry.Held tag) (notes : Notes) : (do
        return (tag, ← namedParams state.table decl.params) : Noting (Tag × List Tag)).Tells notes
          fun signature _ => (signature.1 = .void ∨ state.table.registry.Held signature.1) ∧
            ∀ param ∈ signature.2, state.table.registry.Held param :=
      (namedParams_tells held decl.params notes).bind fun _ _ _ types => tells_pure ⟨known, types⟩
    unfold MethodDecl.signature
    cases decl.result with
    | none => exact params .void (.inl rfl) _
    | some type =>
      refine (namedType_tells type).bind fun tag mid _ found => params tag ?_ mid
      rw [found.1]
      exact held.typeOf type.name
  rw [MethodDecl.declare]
  refine (tidies_note held told).bind fun signature after held found => ?_
  obtain ⟨same, known⟩ := found
  refine (tidies_declare held fun later declared => held.declareMethod (same ▸ known) declared).mono
    fun _ _ _ => trivial

theorem Item.declare_tidies (item : Item) (held : state.table.Held) :
    item.declare.Tidies state fun _ _ => True := by
  cases item with
  | const decl => exact decl.declare_tidies held
  | vars decl => exact decl.declare_tidies .global held
  | method decl => exact decl.declare_tidies held
  | classDecl decl => exact tidies_pure held trivial

theorem declareParams_tidies (params : List Param) (held : state.table.Held) :
    (declareParams params).Tidies state fun _ _ => True := by
  induction params generalizing state with
  | nil => exact tidies_pure held trivial
  | cons param params ih =>
    have known : state.table.registry.Held (state.table.paramType param.type) := by
      unfold SymbolTable.paramType
      dsimp only
      split
      · exact .inl rfl
      · rename_i value
        exact (held.typeOf param.type.name).resolve_left (by simpa using value)
    have declared : (discard (introduce param.name (·.declareVar? param.name
        (state.table.paramType param.type) false .param (param.type.span.orElse param.name.span)))).Tidies
          state fun _ after => after.table.registry = state.table.registry :=
      tidies_declare held fun later declared => held.declareVar known declared
    rw [declareParams]
    exact tidies_get (declared.bind fun _ _ held _ => ih held)

end Declared

end StackCode
