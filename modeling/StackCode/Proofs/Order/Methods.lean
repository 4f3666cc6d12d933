import StackCode.Proofs.Order.Declarations
import StackCode.Proofs.Typing.ProgramSound

namespace StackCode

open Checking Twin

section Types

theorem Annotations.type?_recordAll_or (annotations : Annotations) (log : List (NodeId × Tag))
    (id : NodeId) : (annotations.recordAll log).type? id =
      ((({} : Annotations).recordAll log).type? id).or (annotations.type? id) := by
  induction log generalizing annotations with
  | nil =>
    change annotations.type? id = (({} : Annotations).type? id).or (annotations.type? id)
    rw [type?_empty, Option.none_or]
  | cons entry log ih =>
    have first : ∀ start : Annotations, (start.recordAll (entry :: log)).type? id =
        ((({} : Annotations).recordAll log).type? id).or
          (if entry.1 = id then some entry.2 else start.type? id) := by
      intro start
      change ((start.record entry.1 entry.2).recordAll log).type? id = _
      rw [ih, type?_record]
    rw [first, first, type?_empty, Option.or_assoc]
    by_cases same : entry.1 = id
    · rw [if_pos same, if_pos same, Option.some_or]
    · rw [if_neg same, if_neg same, Option.none_or]

theorem Twin.Noted.type?_eq {notes start other : Notes} (noted : (Twin.onto start).Noted notes other)
    (id : NodeId) : other.annotations.type? id =
      (notes.annotations.type? id).or (start.annotations.type? id) := by
  obtain ⟨found, rfl, rfl⟩ := noted
  exact Annotations.type?_recordAll_or start.annotations found.log id

end Types

def MethodDecl.foundIn (global : SymbolTable) (decl : MethodDecl) : CheckState :=
  (decl.check.outcome { table := global }).2

/-- A state between two methods, with a table like the one given. -/
structure CheckState.Between (global : SymbolTable) (state : CheckState) : Prop where
  table : global.Alike state.table
  loopDepth : state.loopDepth = 0
  switchDepth : state.switchDepth = 0
  expectedResult : state.expectedResult = .void

/-- Some methods have been checked, each like one that is checked alone. -/
structure CheckState.Added (global : SymbolTable) (decls : List MethodDecl)
    (before after : CheckState) : Prop where
  between : after.Between global
  errors : after.errors.toList =
    before.errors.toList ++ decls.flatMap fun decl => (decl.foundIn global).errors.toList
  type? : ∀ id, after.annotations.type? id =
    (decls.reverse.findSome? fun decl => (decl.foundIn global).annotations.type? id).or
      (before.annotations.type? id)

variable {global : SymbolTable}

theorem MethodDecl.checks_nodes (decl : MethodDecl) :
    decl.check.Checks (Item.method decl).annotated CheckState.Passed (fun _ => False)
      fun _ _ _ => True := by
  have checks : decl.check.Checks (Item.method decl).annotated CheckState.Passed
      (fun state => state.Outside ({} : SymbolTable).sight [] ∧
        (Item.method decl).HeadTyped ({} : SymbolTable).sight) _ := decl.check_checks
  exact (checks.of_pre fun _ impossible => impossible.elim).mono fun _ _ _ _ _ _ _ => trivial

theorem MethodDecl.check_added (decl : MethodDecl) {state : CheckState} (between : state.Between global) :
    CheckState.Added global [decl] state (decl.check.outcome state).2 := by
  have abreast : (Twin.onto state.toNotes).Abreast SymbolTable.Alike { table := global } state :=
    ⟨⟨{}, rfl, rfl⟩, between.table, between.loopDepth, between.switchDepth, between.expectedResult⟩
  have follows : (Twin.onto state.toNotes).Follows SymbolTable.Alike decl.check (decl.moved id).check Eq :=
    decl.check_abreast SymbolTable.likeness_alike
  rw [MethodDecl.moved_same] at follows
  obtain ⟨_, noted, _⟩ := follows _ _ abreast
  obtain ⟨_, passed, _⟩ := decl.checks_nodes state
  have between' : (decl.check.outcome state).2.Between global :=
    ⟨between.table.extends passed.table, passed.loopDepth.trans between.loopDepth,
      passed.switchDepth.trans between.switchDepth, rfl⟩
  refine ⟨between', ?_, ?_⟩
  · rw [List.flatMap_singleton]
    exact noted.errors_eq
  · intro id
    rw [List.reverse_singleton, List.findSome?_singleton]
    exact noted.type?_eq id

theorem CheckState.Added.trans {first second : List MethodDecl} {a b c : CheckState}
    (one : CheckState.Added global first a b) (two : CheckState.Added global second b c) :
    CheckState.Added global (first ++ second) a c where
  between := two.between
  errors := by rw [two.errors, one.errors, List.flatMap_append, List.append_assoc]
  type? id := by
    rw [two.type?, one.type?, List.reverse_append, List.findSome?_append, Option.or_assoc]

theorem checkMethods_added (items : List Item) {state : CheckState} (between : state.Between global) :
    CheckState.Added global (items.filterMap Item.method?) state
      ((checkMethods items).outcome state).2 := by
  induction items generalizing state with
  | nil => exact ⟨between, (List.append_nil _).symm, fun id => rfl⟩
  | cons item items ih =>
    cases item with
    | method decl =>
      have first := decl.check_added between
      exact first.trans (ih first.between)
    | _ => exact ih between

theorem MethodDecl.mem_annotated_of_foundIn {decl : MethodDecl} {id : NodeId}
    (found : ((decl.foundIn global).annotations.type? id).isSome) :
    id ∈ (Item.method decl).annotated := by
  obtain ⟨_, _, log, makes, keys, _⟩ := decl.checks_nodes { table := global }
  by_contra absent
  have recorded : (decl.foundIn global).annotations = ({} : Annotations).recordAll log :=
    makes.annotations_eq
  rw [recorded, Annotations.type?_recordAll_of_notMem, Annotations.type?_empty] at found
  · cases found
  · rw [keys]
    exact absent

theorem findSome?_foundIn_of_perm {items others : List Item} (perm : items.Perm others)
    (distinct : (items.flatMap Item.annotated).Nodup) (id : NodeId) :
    ((others.filterMap Item.method?).reverse.findSome? fun decl =>
        (decl.foundIn global).annotations.type? id) =
      ((items.filterMap Item.method?).reverse.findSome? fun decl =>
        (decl.foundIn global).annotations.type? id) := by
  have methods : (items.filterMap Item.method?).reverse.Perm (others.filterMap Item.method?).reverse :=
    ((List.reverse_perm _).trans (perm.filterMap _)).trans (List.reverse_perm _).symm
  have disjoint := (List.nodup_flatMap.mp distinct).2
  have symmetric : Std.Symm (Function.onFun List.Disjoint Item.annotated) :=
    ⟨fun _ _ apart => List.Disjoint.symm apart⟩
  have listed : ∀ decl ∈ (items.filterMap Item.method?).reverse, Item.method decl ∈ items :=
    fun _ member => mem_filterMap_method?.mp (List.mem_reverse.mp member)
  apply findSome?_eq_of_perm methods
  intro a here b there answers answers'
  by_contra differ
  have apart := disjoint.forall (listed a here) (listed b there) (by simpa using differ)
  exact apart (MethodDecl.mem_annotated_of_foundIn answers) (MethodDecl.mem_annotated_of_foundIn answers')

end StackCode
