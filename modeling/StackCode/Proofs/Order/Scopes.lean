import StackCode.Proofs.Parallel.Statements
import StackCode.Proofs.Symbols.Scoping

namespace StackCode

def SameMeanings (scope other : List Symbol) : Prop :=
  ∀ name, (other.find? (·.name == name)).map Symbol.meaning =
    (scope.find? (·.name == name)).map Symbol.meaning

theorem SameMeanings.refl (scope : List Symbol) : SameMeanings scope scope := fun _ => rfl

theorem SameMeanings.cons {scope other : List Symbol} (same : SameMeanings scope other)
    {symbol symbol' : Symbol} (named : symbol'.name = symbol.name)
    (meant : symbol'.meaning = symbol.meaning) : SameMeanings (symbol :: scope) (symbol' :: other) := by
  intro name
  rw [List.find?_cons, List.find?_cons, named]
  split
  · exact congrArg some meant
  · exact same name

namespace Scoping

structure Alike (scoping other : Scoping) : Prop where
  registry : other.registry = scoping.registry
  fields : other.fields = scoping.fields
  opened : List.Forall₂ SameMeanings scoping.opened other.opened
  base : SameMeanings scoping.base other.base

variable {scoping other : Scoping}

theorem meaning_findSome? {scopes scopes' : List (List Symbol)}
    (alike : List.Forall₂ SameMeanings scopes scopes') (name : String) :
    (scopes'.findSome? (·.find? (·.name == name))).map Symbol.meaning =
      (scopes.findSome? (·.find? (·.name == name))).map Symbol.meaning := by
  induction alike with
  | nil => rfl
  | @cons scope scope' scopes scopes' same _ ih =>
    have here := same name
    rw [List.findSome?_cons, List.findSome?_cons]
    cases found : scope.find? (·.name == name) with
    | none =>
      rw [found, Option.map_none, Option.map_eq_none_iff] at here
      rw [here]
      exact ih
    | some symbol =>
      rw [found] at here
      obtain ⟨symbol', found', meant⟩ := Option.map_eq_some_iff.mp here
      rw [found']
      exact congrArg some meant

theorem Alike.meaning (alike : scoping.Alike other) (name : String) :
    (other.lookup? name).map Symbol.meaning = (scoping.lookup? name).map Symbol.meaning := by
  have scopes : List.Forall₂ SameMeanings scoping.scopes other.scopes :=
    List.rel_append alike.opened (List.forall₂_cons.mpr ⟨alike.base, .nil⟩)
  exact meaning_findSome? scopes name

theorem Alike.top (alike : scoping.Alike other) : SameMeanings scoping.top other.top := by
  obtain ⟨_, opened, base, _, _⟩ := scoping
  obtain ⟨_, opened', base', _, _⟩ := other
  cases alike.opened with
  | nil => exact alike.base
  | cons same _ => exact same

theorem Alike.openScope (alike : scoping.Alike other) :
    (scoping.apply .openScope).Alike (other.apply .openScope) :=
  ⟨alike.registry, alike.fields, .cons (SameMeanings.refl []) alike.opened, alike.base⟩

theorem Alike.closeScope (alike : scoping.Alike other) :
    (scoping.apply .closeScope).Alike (other.apply .closeScope) := by
  refine ⟨alike.registry, alike.fields, ?_, alike.base⟩
  obtain ⟨_, opened, base, _, _⟩ := scoping
  obtain ⟨_, opened', base', _, _⟩ := other
  cases alike.opened with
  | nil => exact .nil
  | cons _ rest => exact rest

theorem Alike.add (alike : scoping.Alike other) {symbol symbol' : Symbol}
    (named : symbol'.name = symbol.name) (meant : symbol'.meaning = symbol.meaning) :
    (scoping.add symbol).Alike (other.add symbol') := by
  obtain ⟨_, opened, base, _, _⟩ := scoping
  obtain ⟨_, opened', base', _, _⟩ := other
  refine ⟨alike.registry, alike.fields, ?_, ?_⟩
  · cases alike.opened with
    | nil => exact .nil
    | cons same rest => exact .cons (same.cons named meant) rest
  · cases alike.opened with
    | nil => exact alike.base.cons named meant
    | cons => exact alike.base

end Scoping

namespace SymbolTable

def Alike (table other : SymbolTable) : Prop :=
  ∃ scoping scoping', table.Represents scoping ∧ other.Represents scoping' ∧ scoping.Alike scoping'

variable {table other later : SymbolTable} {scoping : Scoping}

theorem Represents.extends (represents : table.Represents scoping) (longer : table.Extends later) :
    later.Represents { scoping with history := later.history.toList } where
  recorded := represents.recorded.extends longer
  registry := longer.registry.trans represents.registry
  history := rfl
  fields className :=
    (fieldsOf_of_longer represents.recorded longer.history longer.fields className).trans
      (represents.fields className)
  segments := by
    obtain ⟨base, opened, segments, below, scopes⟩ := represents.segments
    obtain ⟨sameBase, sameOpened⟩ := represents.symbolsAt_map longer.history segments
    refine ⟨base, opened, ?_, below.trans sameBase.symm, scopes.trans sameOpened.symm⟩
    rw [longer.active, longer.boundaries]
    exact segments

theorem Alike.extends (alike : table.Alike other) (longer : other.Extends later) : table.Alike later := by
  obtain ⟨scoping, scoping', represents, represents', same⟩ := alike
  exact ⟨scoping, _, represents, represents'.extends longer,
    same.registry, same.fields, same.opened, same.base⟩

theorem Alike.sight (alike : table.Alike other) : other.sight = table.sight := by
  obtain ⟨scoping, scoping', represents, represents', same⟩ := alike
  have meanings : ∀ name, (other.lookup? name).map Symbol.meaning =
      (table.lookup? name).map Symbol.meaning := by
    intro name
    rw [represents.lookup?_eq, represents'.lookup?_eq, same.meaning]
  have members : ∀ tag name, other.lookupField? tag name = table.lookupField? tag name := by
    intro tag name
    rw [represents.lookupField?_eq, represents'.lookupField?_eq, Scoping.lookupField?,
      Scoping.lookupField?, same.registry, same.fields]
  have registry : other.registry = table.registry := by
    rw [represents.registry, represents'.registry, same.registry]
  simp only [SymbolTable.sight, meanings, members, registry]

theorem Alike.fieldsOf (alike : table.Alike other) (className : String) :
    other.fieldsOf className = table.fieldsOf className := by
  obtain ⟨scoping, scoping', represents, represents', same⟩ := alike
  rw [represents.fields, represents'.fields, same.fields]

theorem Alike.lookupCurrent? (alike : table.Alike other) (name : String) :
    (other.lookupCurrent? name).map Symbol.meaning = (table.lookupCurrent? name).map Symbol.meaning := by
  obtain ⟨scoping, scoping', represents, represents', same⟩ := alike
  rw [represents.lookupCurrent?_eq, represents'.lookupCurrent?_eq]
  exact same.top name

theorem Represents.closed (represents : table.Represents scoping) :
    (table.closeScope?.getD table).Represents
      (if scoping.opened.isEmpty then scoping else scoping.apply .closeScope) := by
  rcases represents.attempt .closeScope with ⟨refused, stays⟩ | ⟨granted, next, closes, closed⟩
  · have stays : table.closeScope? = none := stays
    have empty : scoping.opened.isEmpty = true := refused
    rw [stays, empty]
    exact represents
  · have closes : table.closeScope? = some next := closes
    have more : scoping.opened.isEmpty = false := granted
    rw [closes, more]
    exact closed

theorem likeness_alike : Likeness id SymbolTable.Alike where
  sight := Alike.sight
  taken := by
    intro table other alike name
    have same := congrArg Option.isSome (alike.lookupCurrent? name)
    rwa [Option.isSome_map, Option.isSome_map] at same
  opens := by
    rintro table other ⟨scoping, scoping', represents, represents', same⟩
    exact ⟨_, _, represents.openScope, represents'.openScope, same.openScope⟩
  closes := by
    rintro table other ⟨scoping, scoping', represents, represents', same⟩
    refine ⟨_, _, represents.closed, represents'.closed, ?_⟩
    have empty : scoping'.opened.isEmpty = scoping.opened.isEmpty := by
      have opened := same.opened
      generalize scoping.opened = scopes at opened
      generalize scoping'.opened = scopes' at opened
      cases opened <;> rfl
    rw [empty]
    split
    · exact same
    · exact same.closeScope
  push := by
    rintro table other ⟨scoping, scoping', represents, represents', same⟩ name type site kind decl
    exact ⟨_, _, represents.push name type site kind decl,
      represents'.push name type site kind decl, same.add rfl rfl⟩

end SymbolTable

end StackCode
