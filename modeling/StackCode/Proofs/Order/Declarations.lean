import StackCode.Proofs.Order.Scopes
import StackCode.Proofs.Typing.Globals

namespace StackCode

open Checking Twin

section Adding

def Twin.onto (notes : Notes) : Twin := ⟨id, {}, notes, fun _ _ => rfl⟩

theorem Findings.moved_id (found : Findings) : found.moved id = found := by
  obtain ⟨errors, log, uses⟩ := found
  have same : errors.map (·.moved id) = errors := by
    rw [List.map_congr_left fun d _ => show d.moved id = d from rfl, List.map_id']
  rw [Findings.moved, same]

theorem Notes.add_errors (notes : Notes) (found : Findings) :
    (notes.add found).errors.toList = notes.errors.toList ++ found.errors := by
  simp [Notes.add]

theorem Twin.Noted.errors_eq {notes start other : Notes} (noted : (Twin.onto start).Noted notes other) :
    other.errors.toList = start.errors.toList ++ notes.errors.toList := by
  obtain ⟨found, rfl, rfl⟩ := noted
  have empty : (Twin.onto start).first.errors.toList = [] := rfl
  rw [Notes.add_errors, Notes.add_errors, empty, List.nil_append]
  exact congrArg _ (congrArg Findings.errors found.moved_id)

end Adding

section Classes

def Item.class? : Item → Option ClassDecl
  | .classDecl decl => some decl
  | _ => none

def Item.names : Item → List String
  | .const decl => [decl.name.name]
  | .vars decl => decl.names.map (·.name)
  | .classDecl decl => [decl.name.name]
  | .method decl => [decl.name.name]

def Item.valueNames : Item → List String
  | .classDecl _ => []
  | item => item.names

theorem declareClasses_eq (items : List Item) :
    declareClasses items = declareClasses ((items.filterMap Item.class?).map .classDecl) := by
  induction items with
  | nil => rfl
  | cons item items ih =>
    cases item with
    | classDecl decl =>
      change (do
        let fresh ← introduce decl.name (·.declareClass? decl.name decl.span)
        let classes ← declareClasses items
        return if fresh then decl :: classes else classes) = _
      rw [ih]
      rfl
    | _ => exact ih

def outlining (items : List Item) : Checking Unit := do
  openScope
  let classes ← declareClasses items
  classes.forM ClassDecl.declareFields

theorem outlining_eq {items others : List Item}
    (same : items.filterMap Item.class? = others.filterMap Item.class?) :
    outlining items = outlining others := by
  unfold outlining
  rw [declareClasses_eq items, declareClasses_eq others, same]

end Classes

namespace SymbolTable

def Holds (table : SymbolTable) (registry : Registry) (fields : String → List Symbol)
    (scope : List Symbol) : Prop :=
  ∃ history, table.Represents { registry, opened := [scope], base := [], fields, history }

variable {table other : SymbolTable} {registry : Registry} {fields : String → List Symbol}
  {scope scope' : List Symbol}

theorem Holds.registry_eq (holds : table.Holds registry fields scope) : table.registry = registry := by
  obtain ⟨_, represents⟩ := holds
  exact represents.registry

theorem Holds.lookupCurrent? (holds : table.Holds registry fields scope) (name : String) :
    table.lookupCurrent? name = scope.find? (·.name == name) := by
  obtain ⟨_, represents⟩ := holds
  exact represents.lookupCurrent?_eq name

theorem Holds.lookup? (holds : table.Holds registry fields scope) (name : String) :
    table.lookup? name = scope.find? (·.name == name) := by
  obtain ⟨_, represents⟩ := holds
  rw [represents.lookup?_eq]
  change [scope, []].findSome? (·.find? (·.name == name)) = _
  rw [List.findSome?_cons]
  cases scope.find? (·.name == name) <;> rfl

theorem Holds.push (holds : table.Holds registry fields scope) (name : Ident) (type : Tag) (site : Site)
    (kind : SymbolKind) (decl : Span) : (table.push name type site kind decl).Holds registry fields
      (⟨name.name, name.span, decl, type, 0, site, kind⟩ :: scope) := by
  obtain ⟨_, represents⟩ := holds
  exact ⟨_, represents.push name type site kind decl⟩

theorem Holds.alike (holds : table.Holds registry fields scope)
    (holds' : other.Holds registry fields scope') (same : SameMeanings scope scope') :
    table.Alike other := by
  obtain ⟨_, represents⟩ := holds
  obtain ⟨_, represents'⟩ := holds'
  exact ⟨_, _, represents, represents', rfl, rfl, .cons same .nil, SameMeanings.refl []⟩

end SymbolTable

section Outlines

structure CheckState.Grounded (names : List String) (state : CheckState) : Prop where
  table : ∃ registry fields scope, state.table.Holds registry fields scope ∧
    ∀ symbol ∈ scope, symbol.name ∈ names
  loopDepth : state.loopDepth = 0
  switchDepth : state.switchDepth = 0
  expectedResult : state.expectedResult = .void

def Checking.Grounds {α : Type} (f : Checking α) (names : List String) : Prop :=
  ∀ state : CheckState, state.Grounded names → (f.outcome state).2.Grounded names

variable {α β : Type} {names : List String}

theorem Checking.Grounds.bind {f : Checking α} {g : α → Checking β} (first : f.Grounds names)
    (second : ∀ a, (g a).Grounds names) : (f >>= g).Grounds names :=
  fun state grounded => second _ _ (first state grounded)

theorem Checking.Grounds.discard {f : Checking α} (grounds : f.Grounds names) :
    (discard f).Grounds names := grounds

theorem grounds_pure (a : α) : (pure a : Checking α).Grounds names := fun _ grounded => grounded

theorem grounds_note (f : SymbolTable → Noting α) : (note f).Grounds names :=
  fun _ grounded => ⟨grounded.table, grounded.loopDepth, grounded.switchDepth, grounded.expectedResult⟩

theorem grounds_introduce {name : Ident} {declaration : SymbolTable → Option SymbolTable}
    (declares : ∀ table later registry fields scope, table.Holds registry fields scope →
      (∀ symbol ∈ scope, symbol.name ∈ names) → declaration table = some later →
      ∃ registry fields scope, later.Holds registry fields scope ∧ ∀ symbol ∈ scope, symbol.name ∈ names) :
    (introduce name declaration).Grounds names := by
  intro state grounded
  rw [outcome_introduce]
  cases made : declaration state.table with
  | some later =>
    obtain ⟨registry, fields, scope, holds, inside⟩ := grounded.table
    exact ⟨declares _ _ _ _ _ holds inside made, grounded.loopDepth, grounded.switchDepth,
      grounded.expectedResult⟩
  | none =>
    exact grounds_note (fun _ => Noting.report (.redeclaration name.name) name.span) state grounded

theorem declareClasses_grounds (items : List Item)
    (inside : ∀ decl, Item.classDecl decl ∈ items → decl.name.name ∈ names) :
    (declareClasses items).Grounds names := by
  induction items with
  | nil => exact grounds_pure []
  | cons item items ih =>
    have rest := ih fun decl member => inside decl (List.mem_cons_of_mem _ member)
    cases item with
    | classDecl decl =>
      apply Grounds.bind
      · apply grounds_introduce
        rintro table later registry fields scope ⟨history, represents⟩ known made
        refine ⟨_, _, _, ⟨_, represents.declareClass made⟩, ?_⟩
        intro symbol member
        rcases List.mem_cons.mp member with rfl | member
        · exact inside decl (by simp)
        · exact known symbol member
      · intro fresh
        exact rest.bind fun classes => grounds_pure _
    | _ => exact rest

theorem declareFieldNames_grounds (className : String) (type : Tag) (decl : Span) (fields : List Ident) :
    (declareFieldNames className type decl fields).Grounds names := by
  induction fields with
  | nil => exact grounds_pure ()
  | cons field fields ih =>
    apply Grounds.bind
    · apply Grounds.discard
      apply grounds_introduce
      rintro table later registry fields scope ⟨history, represents⟩ known made
      exact ⟨_, _, _, ⟨_, represents.declareField made⟩, known⟩
    · exact fun _ => ih

theorem declareMembers_grounds (className : String) (decls : List VarDecl) :
    (declareMembers className decls).Grounds names := by
  induction decls with
  | nil => exact grounds_pure ()
  | cons decl decls ih =>
    apply (grounds_note _).bind
    intro type
    exact (declareFieldNames_grounds className type decl.span decl.names).bind fun _ => ih

theorem outlining_grounded (items : List Item) :
    ((outlining items).outcome {}).2.Grounded ((items.filterMap Item.class?).map (·.name.name)) := by
  have classes : (declareClasses items).Grounds ((items.filterMap Item.class?).map (·.name.name)) := by
    apply declareClasses_grounds
    intro decl member
    exact List.mem_map.mpr ⟨decl, List.mem_filterMap.mpr ⟨_, member, rfl⟩, rfl⟩
  have fields : ∀ decls : List ClassDecl, (decls.forM ClassDecl.declareFields).Grounds
      ((items.filterMap Item.class?).map (·.name.name)) := by
    intro decls
    induction decls with
    | nil => exact grounds_pure ()
    | cons decl decls ih => exact (declareMembers_grounds _ _).bind fun _ => ih
  have opened : ({ table := ({} : SymbolTable).openScope } : CheckState).Grounded
      ((items.filterMap Item.class?).map (·.name.name)) :=
    ⟨⟨{}, fun _ => [], [], ⟨[], SymbolTable.represents_empty.openScope⟩, nofun⟩, rfl, rfl, rfl⟩
  exact classes.bind fields _ opened

end Outlines

section Heads

structure Head where
  name : Ident
  type : Tag
  site : Site
  kind : SymbolKind
  decl : Span

namespace Head

def symbol (head : Head) : Symbol :=
  ⟨head.name.name, head.name.span, head.decl, head.type, 0, head.site, head.kind⟩

def declare? (head : Head) (table : SymbolTable) : Option SymbolTable :=
  if (table.lookupCurrent? head.name.name).isSome then none
  else some (table.push head.name head.type head.site head.kind head.decl)

def introduce (head : Head) : Checking Unit := discard (Checking.introduce head.name head.declare?)

theorem outcome_introduce (head : Head) (state : CheckState) :
    (head.introduce.outcome state).2 = ((Checking.introduce head.name head.declare?).outcome state).2 := rfl

end Head

def Item.heads (table : SymbolTable) : Item → Noting (List Head)
  | .const decl => do
    let type ← decl.declaredType table
    return [⟨decl.name, type, .constant, .var true, decl.span⟩]
  | .vars decl => do
    let type ← table.namedValueType decl.type
    return decl.names.map fun name => ⟨name, type, .global, .var false, decl.span⟩
  | .method decl => do
    let signature ← decl.signature table
    return [⟨decl.name, signature.1, .method, .method signature.1 signature.2, decl.span⟩]
  | .classDecl _ => return []

theorem outcome_note_bind {α β : Type} (f : SymbolTable → Noting α) (g : α → Checking β)
    (state : CheckState) : (note f >>= g).outcome state =
      (g ((f state.table).outcome state.toNotes).1).outcome
        { state with toNotes := ((f state.table).outcome state.toNotes).2 } := rfl

theorem Item.outcome_declare (item : Item) (state : CheckState) : item.declare.outcome state =
    ((do
      let heads ← note fun table => item.heads table
      heads.forM Head.introduce).outcome state) := by
  cases item with
  | const decl => rfl
  | method decl => rfl
  | classDecl decl => rfl
  | vars decl =>
    have names : ∀ (type : Tag) (names : List Ident), declareNames type .global decl.span names =
        (names.map fun name => Head.mk name type .global (.var false) decl.span).forM Head.introduce := by
      intro type names
      induction names with
      | nil => rfl
      | cons name names ih =>
        change (do
          discard (introduce name (·.declareVar? name type false .global decl.span))
          declareNames type .global decl.span names) = _
        rw [ih]
        rfl
    change ((do
      let type ← note (·.namedValueType decl.type)
      declareNames type .global decl.span decl.names : Checking Unit).outcome state) = _
    simp only [names]
    rfl

theorem Item.heads_names (item : Item) (table : SymbolTable) (notes : Notes) :
    (((item.heads table).outcome notes).1.map (·.name.name)) = item.valueNames := by
  cases item with
  | vars decl =>
    change (decl.names.map fun name => Head.mk name _ .global (.var false) decl.span).map _ = _
    rw [List.map_map]
    rfl
  | _ => rfl

theorem Item.heads_kind (item : Item) (table : SymbolTable) (notes : Notes) :
    ∀ head ∈ ((item.heads table).outcome notes).1, head.kind ≠ .classType := by
  intro head member
  cases item with
  | const decl =>
    rw [show head = _ from List.mem_singleton.mp member]
    nofun
  | vars decl =>
    obtain ⟨name, _, rfl⟩ := List.mem_map.mp member
    nofun
  | method decl =>
    rw [show head = _ from List.mem_singleton.mp member]
    nofun
  | classDecl decl => cases member

theorem Item.heads_agree {table other : SymbolTable}
    (same : ∀ text, other.typeOf text = table.typeOf text) (registry : other.registry = table.registry)
    (notes : Notes) (item : Item) : (Twin.onto notes).Agree (item.heads table) (item.heads other) Eq := by
  cases item with
  | const decl =>
    have types : (Twin.onto notes).Agree (decl.declaredType table) (decl.declaredType other) Eq :=
      decl.declaredType_agree same registry
    exact types.andThen fun type => agree_return _
  | vars decl =>
    have types : (Twin.onto notes).Agree (table.namedValueType decl.type)
        (other.namedValueType decl.type) Eq := namedValueType_agree same decl.type
    exact types.andThen fun type => agree_return _
  | method decl =>
    have signatures : (Twin.onto notes).Agree (decl.signature table)
        ((decl.moved id).signature other) Eq := decl.signature_agree same
    rw [MethodDecl.moved_same] at signatures
    exact signatures.andThen fun signature => agree_return _
  | classDecl decl => exact agree_return _

def Item.headsIn (table : SymbolTable) (item : Item) : List Head := ((item.heads table).outcome {}).1

def Item.complaints (table : SymbolTable) (item : Item) : List Diagnostic :=
  ((item.heads table).outcome {}).2.errors.toList

end Heads

section Declaring

variable {registry : Registry} {fields : String → List Symbol}

theorem SymbolTable.Holds.typeOf_eq {classes table : SymbolTable} {scope new : List Symbol}
    (ground : classes.Holds registry fields scope) (holds : table.Holds registry fields (new ++ scope))
    (values : ∀ symbol ∈ new, symbol.kind ≠ .classType)
    (apart : ∀ symbol ∈ new, ∀ old ∈ scope, old.name ≠ symbol.name) (text : String) :
    table.typeOf text = classes.typeOf text := by
  have tags : table.classTag? = classes.classTag? := by
    funext name
    unfold SymbolTable.classTag?
    rw [ground.lookup?, holds.lookup?, List.find?_append]
    cases found : new.find? (·.name == name) with
    | none => rfl
    | some symbol =>
      have member := List.mem_of_find?_eq_some found
      have named : symbol.name = name := by simpa using List.find?_some found
      have absent : scope.find? (·.name == name) = none := by
        rw [List.find?_eq_none]
        intro old inside same
        exact apart symbol member old inside ((by simpa using same : old.name = name).trans named.symm)
      have value : symbol.isClass = false := by
        simpa [Symbol.isClass] using values symbol member
      rw [absent]
      simp [value]
  unfold SymbolTable.typeOf
  rw [tags]

theorem forM_introduce {scope : List Symbol} {heads : List Head} {state : CheckState}
    (holds : state.table.Holds registry fields scope) (once : (heads.map (·.name.name)).Nodup)
    (fresh : ∀ head ∈ heads, ∀ old ∈ scope, old.name ≠ head.name.name) :
    ∃ table, ((heads.forM Head.introduce).outcome state).2 = { state with table } ∧
      table.Holds registry fields ((heads.map Head.symbol).reverse ++ scope) := by
  induction heads generalizing state scope with
  | nil => exact ⟨state.table, rfl, holds⟩
  | cons head heads ih =>
    rw [List.map_cons, List.nodup_cons] at once
    have free : (state.table.lookupCurrent? head.name.name).isSome = false := by
      rw [holds.lookupCurrent?, Option.isSome_eq_false_iff, Option.isNone_iff_eq_none, List.find?_eq_none]
      intro old inside same
      exact fresh head (by simp) old inside (by simpa using same)
    let next := state.table.push head.name head.type head.site head.kind head.decl
    have made : (head.introduce.outcome state).2 = { state with table := next } := by
      rw [Head.outcome_introduce, outcome_introduce, Head.declare?, free]
      rfl
    have later : next.Holds registry fields (head.symbol :: scope) := holds.push _ _ _ _ _
    have freshLater : ∀ other ∈ heads, ∀ old ∈ head.symbol :: scope, old.name ≠ other.name.name := by
      intro other member old inside
      rcases List.mem_cons.mp inside with rfl | inside
      · intro same
        exact once.1 (List.mem_map.mpr ⟨other, member, same.symm⟩)
      · exact fresh other (List.mem_cons_of_mem _ member) old inside
    obtain ⟨table, ran, final⟩ : ∃ table, ((heads.forM Head.introduce).outcome
        { state with table := next }).2 = { state with table } ∧ table.Holds registry fields
          ((heads.map Head.symbol).reverse ++ head.symbol :: scope) := ih later once.2 freshLater
    refine ⟨table, ?_, ?_⟩
    · change ((heads.forM Head.introduce).outcome (head.introduce.outcome state).2).2 = _
      rw [made, ran]
    · rw [List.map_cons, List.reverse_cons, List.append_assoc]
      exact final

/-- Behind some declarations: what has been found, and what is in scope. -/
structure CheckState.Declared (classes : SymbolTable) (registry : Registry)
    (fields : String → List Symbol) (scope : List Symbol) (items : List Item)
    (before after : CheckState) : Prop where
  errors : after.errors.toList = before.errors.toList ++ items.flatMap (Item.complaints classes)
  annotations : after.annotations = before.annotations
  steady : before.Steady after
  table : after.table.Holds registry fields
    (((items.flatMap (Item.headsIn classes)).map Head.symbol).reverse ++ scope)

variable {classes : SymbolTable} {scope : List Symbol} (ground : classes.Holds registry fields scope)

include ground

theorem Item.declare_declared (item : Item) {new : List Symbol} {state : CheckState}
    (holds : state.table.Holds registry fields (new ++ scope))
    (values : ∀ symbol ∈ new, symbol.kind ≠ .classType)
    (apart : ∀ symbol ∈ new, ∀ old ∈ scope, old.name ≠ symbol.name) (once : item.valueNames.Nodup)
    (fresh : ∀ name ∈ item.valueNames, ∀ old ∈ new ++ scope, old.name ≠ name) :
    CheckState.Declared classes registry fields (new ++ scope) [item] state
      (item.declare.outcome state).2 := by
  have types := ground.typeOf_eq holds values apart
  have same : state.table.registry = classes.registry := holds.registry_eq.trans ground.registry_eq.symm
  obtain ⟨result, noted⟩ := item.heads_agree types same state.toNotes {} state.toNotes ⟨{}, rfl, rfl⟩
  have names : (item.headsIn classes).map (·.name.name) = item.valueNames := item.heads_names classes {}
  let mid : CheckState := { state with toNotes := ((item.heads state.table).outcome state.toNotes).2 }
  have run : item.declare.outcome state = ((item.headsIn classes).forM Head.introduce).outcome mid := by
    rw [Item.outcome_declare, outcome_note_bind, ← result]
    rfl
  have free : ∀ head ∈ item.headsIn classes, ∀ old ∈ new ++ scope, old.name ≠ head.name.name := by
    intro head member
    exact fresh head.name.name (names ▸ List.mem_map_of_mem member)
  have held : mid.table.Holds registry fields (new ++ scope) := holds
  obtain ⟨table, ran, final⟩ := forM_introduce held (names ▸ once) free
  have checks : item.declare.Checks [] CheckState.Grown (·.At classes.sight [] false .void) _ :=
    item.declare_checks
  obtain ⟨_, grown, log, makes, keys, _⟩ := checks state
  rw [List.map_eq_nil_iff] at keys
  refine ⟨?_, ?_, ⟨grown.loopDepth, grown.switchDepth, grown.expectedResult⟩, ?_⟩
  · rw [run, ran, List.flatMap_singleton]
    exact noted.errors_eq
  · rw [makes.annotations_eq, keys]
    rfl
  · rw [run, ran, List.flatMap_singleton]
    exact final

omit ground in
theorem Item.mem_headsIn (item : Item) {symbol : Symbol}
    (member : symbol ∈ ((item.headsIn classes).map Head.symbol).reverse) :
    symbol.kind ≠ .classType ∧ symbol.name ∈ item.valueNames := by
  obtain ⟨head, inside, rfl⟩ := List.mem_map.mp (List.mem_reverse.mp member)
  refine ⟨item.heads_kind classes {} head inside, ?_⟩
  rw [← item.heads_names classes {}]
  exact List.mem_map.mpr ⟨head, inside, rfl⟩

theorem declareEach_declared {items : List Item} {new : List Symbol} {state : CheckState}
    (holds : state.table.Holds registry fields (new ++ scope))
    (values : ∀ symbol ∈ new, symbol.kind ≠ .classType)
    (apart : ∀ symbol ∈ new, ∀ old ∈ scope, old.name ≠ symbol.name)
    (once : (items.flatMap Item.valueNames).Nodup)
    (fresh : ∀ name ∈ items.flatMap Item.valueNames, ∀ old ∈ new ++ scope, old.name ≠ name) :
    CheckState.Declared classes registry fields (new ++ scope) items state
      ((items.forM Item.declare).outcome state).2 := by
  induction items generalizing new state with
  | nil => exact ⟨(List.append_nil _).symm, rfl, ⟨rfl, rfl, rfl⟩, holds⟩
  | cons item items ih =>
    rw [List.flatMap_cons] at once fresh
    obtain ⟨onceHere, onceLater, differ⟩ := List.nodup_append.mp once
    have here : CheckState.Declared classes registry fields (new ++ scope) [item] state
        (item.declare.outcome state).2 := by
      apply item.declare_declared ground holds values apart onceHere
      intro name member
      exact fresh name (List.mem_append_left _ member)
    have grown := here.table
    rw [List.flatMap_singleton, ← List.append_assoc] at grown
    have later := ih grown (by
      intro symbol member
      rcases List.mem_append.mp member with added | old
      · exact (item.mem_headsIn added).1
      · exact values symbol old) (by
      intro symbol member old inside
      rcases List.mem_append.mp member with added | before
      · exact fresh symbol.name (List.mem_append_left _ (item.mem_headsIn added).2) old
          (List.mem_append_right _ inside)
      · exact apart symbol before old inside) onceLater (by
      intro name member old inside
      rw [List.append_assoc] at inside
      rcases List.mem_append.mp inside with added | before
      · exact differ old.name (item.mem_headsIn added).2 name member
      · exact fresh name (List.mem_append_right _ member) old before)
    refine ⟨?_, later.annotations.trans here.annotations, here.steady.trans later.steady, ?_⟩
    · change ((items.forM Item.declare).outcome (item.declare.outcome state).2).2.errors.toList = _
      rw [later.errors, here.errors, List.flatMap_singleton, List.flatMap_cons, List.append_assoc]
    · change ((items.forM Item.declare).outcome (item.declare.outcome state).2).2.table.Holds _ _ _
      rw [List.flatMap_cons, List.map_append, List.reverse_append, List.append_assoc]
      have final := later.table
      rw [List.append_assoc] at final
      exact final

end Declaring

section Permuting

/-- Where at most one element has an answer, it does not matter in which order they are asked. -/
theorem findSome?_eq_of_perm {α β : Type} {f : α → Option β} {first second : List α}
    (perm : first.Perm second)
    (unique : ∀ a ∈ first, ∀ b ∈ first, (f a).isSome → (f b).isSome → a = b) :
    second.findSome? f = first.findSome? f := by
  cases found : first.findSome? f with
  | none =>
    rw [List.findSome?_eq_none_iff] at found ⊢
    exact fun a member => found a (perm.mem_iff.mpr member)
  | some b =>
    obtain ⟨a, member, answers⟩ := List.exists_of_findSome?_eq_some found
    have some : (second.findSome? f).isSome := by
      rw [List.findSome?_isSome_iff]
      exact ⟨a, perm.mem_iff.mp member, by rw [answers]; rfl⟩
    obtain ⟨b', found'⟩ := Option.isSome_iff_exists.mp some
    obtain ⟨a', member', answers'⟩ := List.exists_of_findSome?_eq_some found'
    have same := unique a member a' (perm.mem_iff.mpr member') (by rw [answers]; rfl)
      (by rw [answers']; rfl)
    rw [found', ← answers', ← same, answers]

theorem find?_eq_of_perm {α : Type} {f : α → String} {first second : List α} (perm : first.Perm second)
    (once : (first.map f).Nodup) (name : String) :
    second.find? (f · == name) = first.find? (f · == name) := by
  rw [List.find?_eq_findSome?_guard, List.find?_eq_findSome?_guard]
  apply findSome?_eq_of_perm perm
  intro a here b there answers answers'
  apply List.inj_on_of_nodup_map once here there
  simp only [Option.isSome_guard, beq_iff_eq] at answers answers'
  rw [answers, answers']

theorem sameMeanings_of_perm {first second scope : List Symbol} (perm : first.Perm second)
    (once : (first.map (·.name)).Nodup) : SameMeanings (first ++ scope) (second ++ scope) := by
  intro name
  rw [List.find?_append, List.find?_append, find?_eq_of_perm perm once]

end Permuting

end StackCode
