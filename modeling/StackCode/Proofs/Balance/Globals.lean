import StackCode.Proofs.Balance.Scopes
import StackCode.Proofs.Balance.Tables
import StackCode.Proofs.Order.Program

namespace StackCode

open Checking

def Symbol.isTop (symbol : Symbol) : Bool :=
  symbol.site = .global || symbol.site = .constant || symbol.site = .method || symbol.site = .classDecl

abbrev Offer := Declaration × Bool

def Symbol.offer (symbol : Symbol) : Offer := (symbol.declaration, symbol.kind == .method .void [])

def Offer.accept (offers : List Offer) (new : Offer) : List Offer :=
  if offers.any (·.1.name.name == new.1.name.name) then offers else offers ++ [new]

theorem Offer.foldl_accept_fst (offers new : List Offer) : (new.foldl Offer.accept offers).map Prod.fst =
    (new.map Prod.fst).foldl StackCode.accept (offers.map Prod.fst) := by
  induction new generalizing offers with
  | nil => rfl
  | cons offer new ih =>
    have first : (Offer.accept offers offer).map Prod.fst =
        StackCode.accept (offers.map Prod.fst) offer.1 := by
      rw [Offer.accept, StackCode.accept, List.any_map, apply_ite (List.map Prod.fst), List.map_append]
      rfl
    rw [List.foldl_cons, ih, first]
    rfl

def MethodDecl.starts (decl : MethodDecl) : Bool :=
  decl.params.isEmpty && decl.result.all fun type => splitDimensions type.name == ("void", 0)

def Item.classOffers (item : Item) : List Offer := item.classDeclarations.map (·, false)

def Item.valueOffers : Item → List Offer
  | .method decl => [(⟨decl.name, .method, decl.span⟩, decl.starts)]
  | item => item.valueDeclarations.map (·, false)

/-- What a program declares outside of methods, in the order in which it is declared: classes first. -/
def Program.offers (program : Program) : List Offer :=
  program.items.flatMap Item.classOffers ++ program.items.flatMap Item.valueOffers

theorem Program.offers_fst (program : Program) : program.offers.map Prod.fst = program.declarations := by
  have values (item : Item) : item.valueOffers.map Prod.fst = item.valueDeclarations := by
    cases item <;> simp [Item.valueOffers, Item.valueDeclarations, Function.comp_def]
  simp [offers, declarations, Item.classOffers, List.map_flatMap, values, Function.comp_def]

/-- A state outside of methods, in which these declarations have been accepted. -/
structure CheckState.Global (offers : List Offer) (state : CheckState) : Prop where
  table : ∃ registry fields scope history,
    state.table.Represents { registry, opened := [scope], base := [], fields, history } ∧
      scope.reverse = history.filter Symbol.isTop ∧ scope.reverse.map Symbol.offer = offers ∧
      ∀ symbol ∈ scope, symbol.isClass = true → symbol.type ≠ .void
  loopDepth : state.loopDepth = 0
  switchDepth : state.switchDepth = 0

theorem CheckState.Global.classes {offers : List Offer} {state : CheckState} (global : state.Global offers) :
    ∀ symbol ∈ state.table.visible, symbol.isClass = true → symbol.type ≠ .void := by
  obtain ⟨⟨_, _, scope, _, represents, _, _, classes⟩, _, _⟩ := global
  rwa [represents.visible_eq, Scoping.scopes, List.flatten_append, List.flatten_singleton,
    List.flatten_singleton, List.append_nil]

/-- The check accepts what is free of the declarations `new`, and nothing else. -/
def Checking.Declares {α : Type} (f : Checking α) (new : List Offer) : Prop :=
  ∀ offers state, CheckState.Global offers state →
    (f.outcome state).2.Global (new.foldl Offer.accept offers)

section Declaring

variable {α β : Type} {f : Checking α} {new more : List Offer}

theorem Registry.register_ne_void (registry : Registry) (name : String) :
    (registry.register name).1 ≠ .void := by
  rcases registry.name?_register name with unknown | named
  · rw [unknown]
    decide
  · intro void
    rw [void] at named
    exact absurd (name?_eq_some_iff.mp named).1 (by decide)

theorem Tag.ofName_eq_void {classes : String → Option Tag} {name : String}
    (valued : classes name ≠ some .void) : Tag.ofName classes name = .void ↔ name = "void" := by
  have keyword : keyword? name = some .void ↔ name = "void" := by
    refine ⟨fun found => ?_, fun same => same ▸ rfl⟩
    obtain ⟨before, after, whole, _⟩ := List.lookup_eq_some_iff.mp found
    have listed : (name, Tag.void) ∈ keywords := by simp [whole]
    simpa [keywords, void, int, char, bool, float, string, double] using listed
  rw [← keyword, Tag.ofName]
  cases keyword? name with
  | some tag => simp
  | none =>
    cases known : classes name with
    | none => simp [Tag.unknown, Tag.void]
    | some tag => simpa [known] using valued

theorem Tag.addDimensions_ne_void (tag : Tag) (dims : Nat) : tag.addDimensions dims ≠ .void := by
  unfold addDimensions
  split
  · decide
  · rename_i fits
    simp only [Bool.or_eq_true, decide_eq_true_eq, not_or, not_le, not_lt] at fits
    simp only [Tag.void, ne_eq, Tag.mk.injEq]
    have := fits.1
    rw [listStep]
    omega

theorem SymbolTable.resultType_eq_void {table : SymbolTable}
    (classes : ∀ symbol ∈ table.visible, symbol.isClass = true → symbol.type ≠ .void)
    (result : Option TypeName) : (table.resultType result == .void) =
      result.all fun type => splitDimensions type.name == ("void", 0) := by
  cases result with
  | none => rfl
  | some type =>
    have valued (name : String) : table.classTag? name ≠ some .void := by
      unfold classTag?
      split
      · rename_i symbol found
        split
        · rename_i isClass
          simpa using classes symbol (List.mem_of_find?_eq_some found) isClass
        · simp
      · simp
    rw [Bool.eq_iff_iff]
    simp only [Option.all_some, beq_iff_eq, resultType, typeOf, Tag.ofBracketed]
    rcases splitDimensions type.name with ⟨name, dims⟩
    dsimp only
    split
    · rename_i plain
      rw [Tag.ofName_eq_void (valued name), plain, Prod.mk.injEq, eq_self, and_true]
    · rename_i listed
      simp [Tag.addDimensions_ne_void, listed]

theorem MethodDecl.signature_result (decl : MethodDecl) (table : SymbolTable) (notes : Notes) :
    ∃ params, ((decl.signature table).outcome notes).1 = (table.resultType decl.result, params) ∧
      params.isEmpty = decl.params.isEmpty := by
  have params (notes : Notes) :
      ((namedParams table decl.params).outcome notes).1.isEmpty = decl.params.isEmpty := by
    cases decl.params <;> rfl
  unfold MethodDecl.signature SymbolTable.resultType
  cases decl.result with
  | none => exact ⟨_, rfl, params notes⟩
  | some type => exact ⟨_, congrArg (·, _) (namedType_result table type notes), params _⟩

theorem declares_pure (a : α) : (pure a : Checking α).Declares [] := fun _ _ global => global

theorem declares_note (f : SymbolTable → Noting α) : (note f).Declares [] :=
  fun _ _ global => ⟨global.table, global.loopDepth, global.switchDepth⟩

theorem Checking.Declares.bind {g : α → Checking β} (first : f.Declares new)
    (second : ∀ a, (g a).Declares more) : (f >>= g).Declares (new ++ more) := by
  intro offers state global
  rw [List.foldl_append]
  exact second _ _ _ (first offers state global)

theorem declares_noted {g : SymbolTable → Noting α} {k : α → Checking β}
    (rest : ∀ offers state, CheckState.Global offers state →
      (k ((g state.table).outcome state.toNotes).1).Declares new) : (note g >>= k).Declares new :=
  fun offers state global => rest offers state global _ _ (declares_note g offers state global)

theorem Checking.Declares.discard (declares : f.Declares new) : (discard f).Declares new := declares

theorem declares_introduce {name : Ident} {declaration : SymbolTable → Option SymbolTable}
    {offer : Offer} (named : offer.1.name = name)
    (declares : ∀ table registry fields scope history,
      table.Represents { registry, opened := [scope], base := [], fields, history } →
      ∃ next symbol registry' fields', declaration table =
        (if (table.lookupCurrent? name.name).isSome then none else some next) ∧
        symbol.offer = offer ∧ symbol.isTop = true ∧
        (symbol.isClass = true → symbol.type ≠ .void) ∧
        (declaration table = some next → next.Represents
          { registry := registry', opened := [symbol :: scope], base := [], fields := fields',
            history := history ++ [symbol] })) :
    (introduce name declaration).Declares [offer] := by
  rintro offers state ⟨⟨registry, fields, scope, history, represents, tops, accepted, classes⟩, loops,
    switches⟩
  obtain ⟨next, symbol, registry', fields', made, kind, top, valued, later⟩ := declares _ _ _ _ _ represents
  have taken : (state.table.lookupCurrent? name.name).isSome =
      offers.any (·.1.name.name == offer.1.name.name) := by
    rw [represents.isTaken_eq, ← accepted, List.any_map, List.any_reverse, named]
    rfl
  rw [outcome_introduce, List.foldl_cons, List.foldl_nil, Offer.accept, ← taken]
  cases known : (state.table.lookupCurrent? name.name).isSome with
  | true =>
    rw [known, if_pos rfl] at made
    rw [made]
    exact ⟨⟨registry, fields, scope, history, represents, tops, accepted, classes⟩, loops, switches⟩
  | false =>
    rw [known, if_neg (by simp)] at made
    rw [made]
    refine ⟨⟨registry', fields', symbol :: scope, history ++ [symbol], later made, ?_, ?_,
      List.forall_mem_cons.mpr ⟨valued, classes⟩⟩, loops, switches⟩
    · rw [List.reverse_cons, List.filter_append, tops]
      simp [top]
    · rw [List.reverse_cons, List.map_append, accepted, if_neg (by simp)]
      simp [kind]

theorem declares_push {name : Ident} {declaration : SymbolTable → Option SymbolTable} {type : Tag}
    {site : Site} {kind : SymbolKind} {decl : Span}
    (top : (site = .global ∨ site = .constant) ∨ site = .method)
    (declares : ∀ table, declaration table = if (table.lookupCurrent? name.name).isSome then none
      else some (table.push name type site kind decl)) (value : kind ≠ .classType) :
    (introduce name declaration).Declares [(⟨name, site, decl⟩, kind == .method .void [])] := by
  refine declares_introduce rfl fun table registry fields scope history represents => ?_
  refine ⟨_, ⟨name.name, name.span, decl, type, 0, site, kind⟩, registry, fields, declares table, rfl,
    ?_, fun isClass => absurd (by simpa [Symbol.isClass] using isClass) value,
    fun _ => represents.push name type site kind decl⟩
  rcases top with (rfl | rfl) | rfl <;> rfl

theorem declares_class (name : Ident) (decl : Span) :
    (introduce name (·.declareClass? name decl)).Declares [(⟨name, .classDecl, decl⟩, false)] := by
  refine declares_introduce rfl fun table registry fields scope history represents => ?_
  exact ⟨_, ⟨name.name, name.span, decl, (registry.register name.name).1, 0, .classDecl, .classType⟩,
    _, _, SymbolTable.declareClass?_eq .., rfl, rfl, fun _ => registry.register_ne_void name.name,
    fun made => represents.declareClass made⟩

theorem declares_field (className : String) (name : Ident) (type : Tag) (decl : Span) :
    (introduce name (·.declareField? className name type decl)).Declares [] := by
  rintro offers state ⟨⟨registry, fields, scope, history, represents, tops, rest⟩, loops, switches⟩
  rw [outcome_introduce]
  cases made : state.table.declareField? className name type decl with
  | none => exact ⟨⟨registry, fields, scope, history, represents, tops, rest⟩, loops, switches⟩
  | some later =>
    refine ⟨⟨_, _, scope, _, represents.declareField made, ?_, rest⟩, loops, switches⟩
    rw [List.filter_append, tops]
    simp [Symbol.isTop, Scoping.symbol]

theorem declareClasses_declares (items : List Item) :
    (declareClasses items).Declares (items.flatMap Item.classOffers) := by
  induction items with
  | nil => exact declares_pure _
  | cons item items ih =>
    cases item with
    | classDecl decl =>
      have rest (fresh : Bool) : (do
          let classes ← declareClasses items
          return if fresh then decl :: classes else classes : Checking (List ClassDecl)).Declares
          (items.flatMap Item.classOffers) := by
        have whole := ih.bind fun classes => declares_pure (if fresh then decl :: classes else classes)
        rwa [List.append_nil] at whole
      exact (declares_class decl.name decl.span).bind rest
    | const decl | vars decl | method decl => exact ih

theorem declareFieldNames_declares (className : String) (type : Tag) (decl : Span)
    (names : List Ident) : (declareFieldNames className type decl names).Declares [] := by
  induction names with
  | nil => exact declares_pure _
  | cons name names ih => exact (declares_field className name type decl).discard.bind fun _ => ih

theorem ClassDecl.declareFields_declares (decl : ClassDecl) : decl.declareFields.Declares [] := by
  have members : ∀ decls : List VarDecl, (declareMembers decl.name.name decls).Declares [] := by
    intro decls
    induction decls with
    | nil => exact declares_pure _
    | cons field fields ih =>
      exact (declares_note _).bind fun type =>
        (declareFieldNames_declares decl.name.name type field.span field.names).bind fun _ => ih
  exact members decl.fields

theorem declareNames_declares (type : Tag) (decl : Span) (names : List Ident) :
    (declareNames type .global decl names).Declares (names.map fun name => (⟨name, .global, decl⟩, false)) := by
  induction names with
  | nil => exact declares_pure _
  | cons name names ih =>
    have first : (introduce name (·.declareVar? name type false .global decl)).Declares
        [(⟨name, .global, decl⟩, false)] := declares_push (.inl (.inl rfl)) (fun _ => rfl) nofun
    exact first.discard.bind fun _ => ih

theorem Item.declare_declares (item : Item) : item.declare.Declares item.valueOffers := by
  cases item with
  | const decl =>
    have declared (type : Tag) : (introduce decl.name
        (·.declareVar? decl.name type true .constant decl.span)).Declares
        [(⟨decl.name, .constant, decl.span⟩, false)] := declares_push (.inl (.inr rfl)) (fun _ => rfl) nofun
    exact (declares_note _).bind fun type => (declared type).discard
  | vars decl =>
    have names (type : Tag) := declareNames_declares type decl.span decl.names
    simp only [Item.valueOffers, Item.valueDeclarations, List.map_map]
    exact (declares_note _).bind names
  | method decl =>
    refine declares_noted (g := fun table => decl.signature table) fun offers state global => ?_
    obtain ⟨params, signature, none⟩ := decl.signature_result state.table state.toNotes
    have starts : (SymbolKind.method (state.table.resultType decl.result) params == .method .void []) =
        decl.starts := by
      rw [MethodDecl.starts, ← SymbolTable.resultType_eq_void global.classes, ← none, Bool.eq_iff_iff]
      simp [and_comm]
    rw [signature, Item.valueOffers, ← starts]
    have declared : (introduce decl.name (·.declareMethod? decl.name (state.table.resultType decl.result)
        params decl.span)).Declares _ := declares_push (.inr rfl) (fun _ => rfl) nofun
    exact declared.discard
  | classDecl decl => exact declares_pure ()

theorem declares_forM {act : α → Checking Unit} {new : α → List Offer}
    (declares : ∀ a, (act a).Declares (new a)) (items : List α) :
    (items.forM act).Declares (items.flatMap new) := by
  induction items with
  | nil => exact declares_pure ()
  | cons item items ih => exact (declares item).bind fun _ => ih

theorem Program.declaring_declares (program : Program) :
    program.declaring.Declares program.offers := by
  have fields (classes : List ClassDecl) : (classes.forM ClassDecl.declareFields).Declares [] := by
    have each := declares_forM ClassDecl.declareFields_declares classes
    rwa [List.flatMap_eq_nil_iff.mpr fun _ _ => rfl] at each
  exact (declareClasses_declares program.items).bind fun classes =>
    (fields classes).bind fun _ => declares_forM Item.declare_declares program.items

end Declaring

section Methods

theorem checkMethods_tops (items : List Item) (state : CheckState) :
    ((checkMethods items).outcome state).2.table.history.toList.filter Symbol.isTop =
      state.table.history.toList.filter Symbol.isTop := by
  let Inv (table : SymbolTable) : Prop :=
    table.history.toList.filter Symbol.isTop = state.table.history.toList.filter Symbol.isTop
  have steady : SymbolTable.Steady Inv fun _ => True :=
    { unknown := trivial
      types := fun _ _ => trivial
      opens := fun holds => holds
      closes := fun {table} holds => by
        change (table.closeScope?.getD table).history.toList.filter Symbol.isTop = _
        unfold SymbolTable.closeScope?
        split <;> exact holds
      declares := fun {table} holds name type site decl _ place => by
        change (table.history.push _).toList.filter Symbol.isTop = _
        rw [Array.toList_push, List.filter_append, holds]
        rcases place with rfl | rfl <;> simp [Symbol.isTop] }
  exact checkMethods_keeps steady items state rfl

namespace Program

variable (program : Program) (entry : String)

def before (i : Nat) : CheckState := ((checkMethods (program.items.take i)).outcome program.declared).2

def checkingFrom (i : Nat) : Checking Unit := do
  checkMethods (program.items.drop i)
  checkEntry entry program.span

theorem checkMethods_append (items others : List Item) (state : CheckState) :
    (checkMethods (items ++ others)).outcome state =
      (checkMethods others).outcome ((checkMethods items).outcome state).2 := by
  induction items generalizing state with
  | nil => rfl
  | cons item items ih =>
    cases item with
    | method decl => exact ih (decl.check.outcome state).2
    | const decl | vars decl | classDecl decl => exact ih state

theorem check_eq_checkingFrom (i : Nat) :
    program.check entry = ((program.checkingFrom entry i).outcome (program.before i)).2 := by
  have whole : program.check entry = ((checkEntry entry program.span).outcome
      ((checkMethods program.items).outcome program.declared).2).2 := rfl
  have split : checkMethods program.items =
      checkMethods (program.items.take i ++ program.items.drop i) := by rw [List.take_append_drop]
  rw [whole, split, checkMethods_append]
  rfl

theorem declared_global : program.declared.Global (program.offers.foldl Offer.accept []) := by
  refine program.declaring_declares [] _ ⟨⟨{}, fun _ => [], [], [], ?_, rfl, rfl, nofun⟩, rfl, rfl⟩
  exact SymbolTable.represents_empty.openScope

structure Settled (state : CheckState) : Prop where
  level : state.table.level = 0
  loopDepth : state.loopDepth = 0
  switchDepth : state.switchDepth = 0
  tops : state.table.visible.reverse = state.table.history.toList.filter Symbol.isTop
  accepted : state.table.visible.reverse.map Symbol.declaration = program.declarations.foldl accept []

theorem settled_declared : program.Settled program.declared := by
  obtain ⟨⟨registry, fields, scope, history, represents, tops, accepted, _⟩, loops, switches⟩ :=
    program.declared_global
  have visible : program.declared.table.visible = scope := by
    rw [represents.visible_eq]
    simp [Scoping.scopes]
  refine ⟨represents.level_eq, loops, switches, ?_, ?_⟩
  · rw [visible, represents.history, tops]
  · have firsts := congrArg (List.map Prod.fst) accepted
    rw [List.map_map, Offer.foldl_accept_fst, program.offers_fst] at firsts
    rw [visible]
    exact firsts

variable {program} in
theorem Settled.restored {before after : CheckState} (settled : program.Settled before)
    (restored : before.Restored after) (recorded : before.table.Recorded)
    (tops : after.table.history.toList.filter Symbol.isTop =
      before.table.history.toList.filter Symbol.isTop) : program.Settled after := by
  have visible := restored.table.visible recorded
  refine ⟨?_, restored.loopDepth.trans settled.loopDepth,
    restored.switchDepth.trans settled.switchDepth, ?_, ?_⟩
  · rw [SymbolTable.level, restored.table.boundaries]
    exact settled.level
  · rw [visible, tops, settled.tops]
  · rw [visible, settled.accepted]

theorem recorded_declared : program.declared.table.Recorded := by
  obtain ⟨⟨_, _, _, _, represents, _⟩, _, _⟩ := program.declared_global
  exact represents.recorded

theorem settled_before (i : Nat) : program.Settled (program.before i) :=
  program.settled_declared.restored (checkMethods_restores _ _) program.recorded_declared
    (checkMethods_tops _ _)

theorem settled_check : program.Settled (program.check entry) := by
  have settled := program.settled_before program.items.length
  rw [before, List.take_length] at settled
  have last : program.check entry = ((checkEntry entry program.span).outcome
      ((checkMethods program.items).outcome program.declared).2).2 := rfl
  rw [last, outcome_checkEntry]
  -- What is said about the entry method is all that changes.
  split
  · exact settled
  · exact ⟨settled.level, settled.loopDepth, settled.switchDepth, settled.tops, settled.accepted⟩

end Program

end Methods

/-- The check keeps scopes and depths in balance. A statement and a method leave the scopes, their
names and the depths as they find them, and only add to history and reports. So no scope is closed that
is not open, every method is checked in sight of the same global scope, and in the end it holds the
declarations that were accepted, in their order. -/
theorem Program.check_balanced (program : Program) (entry : String) :
    (∀ (stmt : Stmt) (state : CheckState), state.Restored (stmt.check.outcome state).2 ∧
      (stmt.check.outcome state).2.expectedResult = state.expectedResult) ∧
    (∀ (decl : MethodDecl) (state : CheckState), state.Restored (decl.check.outcome state).2) ∧
    (program.checkGuarded entry).run {} = some ((), program.check entry) ∧
    (∀ i, program.check entry = ((program.checkingFrom entry i).outcome (program.before i)).2 ∧
      program.declared.Restored (program.before i) ∧ program.Settled (program.before i)) ∧
    program.Settled (program.check entry) :=
  ⟨Stmt.check_restores, fun decl state => (decl.check_restores state).1,
    program.checkGuarded_agrees entry {}, fun i => ⟨program.check_eq_checkingFrom entry i,
      checkMethods_restores _ _, program.settled_before i⟩, program.settled_check entry⟩

end StackCode
