import StackCode.Proofs.Account.Declarations
import StackCode.Proofs.Balance.Globals

namespace StackCode

open Checking Code

def Program.startsAt (program : Program) (entry : String) : Bool :=
  (program.offers.find? (·.1.name.name == entry)).any (·.2)

section Offers

variable {offers new : List Offer}

theorem Offer.find?_foldl_accept (entry : String) :
    (new.foldl Offer.accept offers).find? (·.1.name.name == entry) =
      (offers.find? (·.1.name.name == entry)).or (new.find? (·.1.name.name == entry)) := by
  induction new generalizing offers with
  | nil => exact Option.or_none.symm
  | cons offer new ih =>
    have first : (Offer.accept offers offer).find? (·.1.name.name == entry) =
        (offers.find? (·.1.name.name == entry)).or ([offer].find? (·.1.name.name == entry)) := by
      unfold Offer.accept
      split
      · rename_i taken
        by_cases same : offer.1.name.name = entry
        · rw [← same, Option.or_of_isSome (by simpa using taken)]
        · simp [same]
      · rw [List.find?_append]
    rw [List.foldl_cons, ih, first, Option.or_assoc, ← List.find?_append]
    rfl

theorem Offer.nodup_foldl_accept (distinct : (offers.map (·.1.name.name)).Nodup) :
    ((new.foldl Offer.accept offers).map (·.1.name.name)).Nodup := by
  induction new generalizing offers with
  | nil => exact distinct
  | cons offer new ih =>
    refine ih ?_
    unfold Offer.accept
    split
    · exact distinct
    · rename_i free
      rw [List.map_append, List.map_singleton, ← List.concat_eq_append]
      exact distinct.concat fun member => free (by simpa using member)

theorem Offer.find?_of_mem (distinct : (offers.map (·.1.name.name)).Nodup) {offer : Offer}
    (member : offer ∈ offers) : offers.find? (·.1.name.name == offer.1.name.name) = some offer := by
  cases found : offers.find? (·.1.name.name == offer.1.name.name) with
  | none => exact absurd BEq.rfl (List.find?_eq_none.mp found offer member)
  | some other =>
    have same := List.find?_some found
    exact congrArg some (List.inj_on_of_nodup_map distinct (List.mem_of_find?_eq_some found) member
      (by simpa using same))

end Offers

namespace Program

variable {program : Program}

theorem hasEntry_declared (entry : String) :
    program.declared.table.hasEntry entry = program.startsAt entry := by
  obtain ⟨⟨_, _, scope, _, represents, _, accepted, _⟩, _, _⟩ := program.declared_global
  have looked : program.declared.table.lookupCurrent? entry = scope.find? (·.name == entry) :=
    represents.lookupCurrent?_eq entry
  have found : program.offers.find? (·.1.name.name == entry) =
      (scope.reverse.map Symbol.offer).find? (·.1.name.name == entry) := by
    rw [accepted, Offer.find?_foldl_accept]
    rfl
  have distinct : ((scope.reverse.map Symbol.offer).map (·.1.name.name)).Nodup := by
    rw [accepted]
    exact Offer.nodup_foldl_accept List.nodup_nil
  rw [SymbolTable.hasEntry, looked, startsAt, found]
  cases seen : scope.find? (·.name == entry) with
  | none =>
    have none : (scope.reverse.map Symbol.offer).find? (·.1.name.name == entry) = none := by
      rw [List.find?_eq_none] at seen ⊢
      simpa [Symbol.offer, Symbol.declaration] using seen
    rw [none]
    rfl
  | some symbol =>
    have named : symbol.name = entry := by simpa using List.find?_some seen
    have member : symbol.offer ∈ scope.reverse.map Symbol.offer :=
      List.mem_map_of_mem (List.mem_reverse.mpr (List.mem_of_find?_eq_some seen))
    have only := Offer.find?_of_mem distinct member
    rw [← named]
    exact (congrArg (Option.any (·.2)) only).symm

theorem extends_walked : program.declared.table.Extends program.walked.table :=
  (checkMethods_restores program.items program.declared).table

theorem hasEntry_walked (entry : String) :
    program.walked.table.hasEntry entry = program.startsAt entry := by
  rw [← hasEntry_declared, SymbolTable.hasEntry, SymbolTable.hasEntry, SymbolTable.lookupCurrent?,
    SymbolTable.lookupCurrent?, extends_walked.current program.recorded_declared]

theorem table_check (entry : String) : (program.check entry).table = program.walked.table := by
  rw [program.check_walked entry]
  split <;> rfl

theorem starts_iff (entry : String) (decl : MethodDecl) : decl.starts = true ↔
    decl.params = [] ∧ (program.check entry).table.resultType decl.result = .void := by
  have classes : ∀ symbol ∈ program.walked.table.visible, symbol.isClass = true → symbol.type ≠ .void := by
    rw [extends_walked.visible program.recorded_declared]
    exact program.declared_global.classes
  rw [MethodDecl.starts, ← SymbolTable.resultType_eq_void classes, table_check, Bool.and_eq_true,
    beq_iff_eq, List.isEmpty_iff]

section Built

variable {entry : String} (quiet : (program.check entry).errors = #[])

include quiet

theorem startsAt_of_quiet : program.startsAt entry = true := by
  rw [program.check_walked entry, hasEntry_walked] at quiet
  split at quiet
  · assumption
  · exact absurd quiet Array.push_ne_empty

theorem nodup_offers_of_quiet : (program.offers.map (·.1.name.name)).Nodup := by
  have refused (decls new : List Declaration) (refused : refusalsOf (sift decls new) = [])
      (distinct : (decls.map (·.name.name)).Nodup) : ((decls ++ new).map (·.name.name)).Nodup := by
    induction new generalizing decls with
    | nil => rwa [List.append_nil]
    | cons decl new ih =>
      rw [sift, ← List.singleton_append, refusalsOf_append, List.append_eq_nil_iff] at refused
      obtain ⟨free, rest⟩ := refused
      have free : ∀ other ∈ decls, other.name.name ≠ decl.name.name := by
        simpa [refusalsOf] using free
      have accepted : accept decls decl = decls ++ [decl] := if_neg (by simpa using free)
      rw [accepted] at rest
      rw [List.append_cons]
      refine ih _ rest ?_
      rw [List.map_append, List.map_singleton, ← List.concat_eq_append]
      exact distinct.concat fun member => by
        obtain ⟨other, listed, same⟩ := List.mem_map.mp member
        exact free other listed same
  have reported := (program.check_books entry).2
  have none : (program.check entry).redeclarations = [] := by rw [Notes.redeclarations, quiet]; rfl
  rw [none, sifted] at reported
  simp only [refusalsOf_append, List.nil_eq, List.append_eq_nil_iff] at reported
  have whole : refusalsOf (sift [] program.declarations) = [] := by
    rw [declarations, sift_append, refusalsOf_append, reported.1, reported.2.2.1]
    rfl
  have names := refused [] program.declarations whole List.nodup_nil
  rwa [List.nil_append, ← program.offers_fst, List.map_map] at names

theorem starts_of_quiet {decl : MethodDecl} (member : Item.method decl ∈ program.items)
    (named : decl.name.name = entry) : decl.starts = true := by
  have offered : (⟨⟨decl.name, .method, decl.span⟩, decl.starts⟩ : Offer) ∈ program.offers :=
    List.mem_append_right _ (List.mem_flatMap.mpr ⟨_, member, List.mem_singleton_self _⟩)
  have first := Offer.find?_of_mem (nodup_offers_of_quiet quiet) offered
  have starts := startsAt_of_quiet quiet
  rwa [startsAt, ← named, first] at starts

theorem exists_entry_of_quiet : ∃ decl, Item.method decl ∈ program.items ∧ decl.name.name = entry := by
  obtain ⟨offer, found, starts⟩ : ∃ offer, program.offers.find? (·.1.name.name == entry) = some offer ∧
      offer.2 = true := by
    have starts := startsAt_of_quiet quiet
    rw [startsAt] at starts
    cases found : program.offers.find? (·.1.name.name == entry) with
    | none => rw [found] at starts; cases starts
    | some offer => exact ⟨offer, rfl, by rwa [found] at starts⟩
  have named := List.find?_some found
  rcases List.mem_append.mp (List.mem_of_find?_eq_some found) with member | member
  · obtain ⟨item, _, offered⟩ := List.mem_flatMap.mp member
    obtain ⟨_, _, rfl⟩ := List.mem_map.mp offered
    cases starts
  · obtain ⟨item, listed, offered⟩ := List.mem_flatMap.mp member
    cases item with
    | method decl =>
      cases List.mem_singleton.mp offered
      exact ⟨decl, listed, by simpa using named⟩
    | const decl | vars decl | classDecl decl =>
      obtain ⟨_, _, rfl⟩ := List.mem_map.mp offered
      cases starts

end Built

end Program

section Methods

variable {env : Env} {items : List Item} {methods : List Method}

theorem Env.methods_names (generated : env.methods items = .ok methods) :
    (methods.map (·.name)).Sublist ((items.flatMap Item.valueOffers).map (·.1.name.name)) := by
  induction items generalizing methods with
  | nil =>
    cases generated
    exact .slnil
  | cons item items ih =>
    rw [List.flatMap_cons, List.map_append]
    cases item with
    | method decl =>
      rw [Env.methods] at generated
      simp only [bind_eq_ok, pure_eq_ok] at generated
      obtain ⟨method, made, others, more, rfl⟩ := generated
      rw [List.map_cons, Env.method_name made]
      exact (ih more).cons_cons _
    | const decl | vars decl | classDecl decl => exact (ih generated).trans (List.sublist_append_right _ _)

theorem Env.method_of_starts {decl : MethodDecl} {method : Method} (made : env.method decl = .ok method)
    (params : decl.params = []) (void : env.table.resultType decl.result = .void) :
    method.result = .void ∧ method.params = [] := by
  obtain ⟨resultTag, _, slots, type, _, _, returns, taken, typed, _, rfl, _⟩ :=
    Env.method_eq_ok.mp made
  rw [params] at taken
  cases taken
  have tag : resultTag = .void := by
    cases result : decl.result with
    | none =>
      rw [result] at returns
      exact (Except.ok.inj returns).symm
    | some type =>
      rw [result] at returns void
      exact (Env.typeOf_of_written returns).symm.trans void
  rw [tag] at typed
  cases typed
  exact ⟨rfl, rfl⟩

end Methods

/-- The check says at the end, and only there, whether there is no method to start with: there is one if
the first declaration of the name is a method without parameters whose result is absent or resolves to
`void`. The module of a program without errors starts with that method, the only one of its name. -/
theorem Program.entry_checked (program : Program) (entry : String) :
    (∃ earlier : Array Diagnostic, (∀ d ∈ earlier, d.problem.category ≠ .missingEntryPoint) ∧
      (program.check entry).errors = if program.startsAt entry then earlier
        else earlier.push ⟨.missingEntry entry, program.span⟩) ∧
    (∀ decl : MethodDecl, decl.starts = true ↔
      decl.params = [] ∧ (program.check entry).table.resultType decl.result = .void) ∧
    ((program.check entry).errors = #[] → ∀ built : Module, program.generate (program.check entry).table
      (program.check entry).annotations entry = .ok built →
        built.entry = some entry ∧ (built.methods.map (·.name)).count entry = 1 ∧
        ∀ method ∈ built.methods, method.name = entry → method.result = .void ∧ method.params = []) := by
  refine ⟨⟨program.walked.errors, program.walked_remarks.2.1, ?_⟩, starts_iff entry,
    fun quiet built generated => ?_⟩
  · rw [program.check_walked entry, hasEntry_walked]
    split <;> rfl
  have made := Program.methods_of_generate generated
  obtain ⟨decl, listed, named⟩ := exists_entry_of_quiet quiet
  obtain ⟨method, member, found⟩ := Env.method_of_methods made listed
  have holds : entry ∈ built.methods.map (·.name) :=
    List.mem_map.mpr ⟨method, member, (Env.method_name found).trans named⟩
  have distinct : (built.methods.map (·.name)).Nodup := by
    have names := nodup_offers_of_quiet quiet
    rw [Program.offers, List.map_append] at names
    exact (Env.methods_names made).nodup (List.nodup_append.mp names).2.1
  refine ⟨?_, List.count_eq_one_of_mem distinct holds, fun method member same => ?_⟩
  · rw [Program.generate_eq] at generated
    simp only [bind_eq_ok, pure_eq_ok, Prod.exists] at generated
    obtain ⟨_, _, _, _, _, rfl⟩ := generated
    exact if_pos (by simpa using holds)
  · obtain ⟨decl, listed, found⟩ := (Env.mem_methods made).mp member
    have starts := starts_of_quiet quiet listed ((Env.method_name found).symm.trans same)
    obtain ⟨params, void⟩ := (starts_iff entry decl).mp starts
    exact Env.method_of_starts found params void

theorem totals_entry_checked : (Sample.totals.check "Main").errors = #[] ∧
    ∃ built, Sample.totals.generate (Sample.totals.check "Main").table
      (Sample.totals.check "Main").annotations "Main" = .ok built ∧ built.entry = some "Main" := by
  obtain ⟨_, built, generated⟩ := Sample.totals_generated
  have quiet := Sample.totals_accepted.2.1
  exact ⟨quiet, built, generated, ((Sample.totals.entry_checked "Main").2.2 quiet built generated).1⟩

end StackCode
