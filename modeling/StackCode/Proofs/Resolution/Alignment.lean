import StackCode.Proofs.Generation.Contract
import StackCode.Proofs.Strict.Silence

namespace StackCode

namespace SymbolTable

variable (table : SymbolTable)

def position? (name : String) : Option Nat :=
  table.active.find? fun id => (table.history[id]?).any (·.name == name)

theorem lookup?_eq_position? (name : String) :
    table.lookup? name = (table.position? name).bind (table.history[·]?) := by
  unfold lookup? visible symbolsAt position?
  induction table.active with
  | nil => rfl
  | cons id ids ih =>
    rw [List.filterMap_cons, List.find?_cons]
    cases found : table.history[id]? with
    | none => exact ih
    | some symbol =>
      rw [List.find?_cons, Option.any_some]
      cases named : symbol.name == name with
      | true => exact found.symm
      | false => exact ih

end SymbolTable

def Symbol.isLocal (symbol : Symbol) : Bool :=
  (symbol.site == .param || symbol.site == .localVar) && symbol.kind == .var false

def Pairs (link : Nat → Nat → Prop) (history : Array Symbol) (id : Nat) (entry : String × Nat × Tag) :
    Prop :=
  ∃ symbol, history[id]? = some symbol ∧ symbol.name = entry.1 ∧ symbol.isLocal = true ∧
    link id entry.2.1

/-- The symbols of a method above the global ones are those of its open scopes. -/
structure Aligned (link : Nat → Nat → Prop) (global table : SymbolTable)
    (scopes : List (List (String × Nat × Tag))) : Prop where
  recorded : global.Recorded
  history : global.history.toList <+: table.history.toList
  scopes : ∃ segments, table.active = segments.flatten ++ global.active ∧
    List.Forall₂ (List.Forall₂ (Pairs link table.history)) segments scopes

section Alignment

variable {link : Nat → Nat → Prop} {global table later : SymbolTable}
  {scopes : List (List (String × Nat × Tag))}

theorem getElem?_of_longer {xs ys : Array Symbol} (longer : xs.toList <+: ys.toList) {id : Nat}
    {symbol : Symbol} (found : xs[id]? = some symbol) : ys[id]? = some symbol := by
  obtain ⟨more, whole⟩ := longer
  rw [← Array.getElem?_toList] at found ⊢
  rw [← whole, List.getElem?_append_left (List.getElem?_eq_some_iff.mp found).1]
  exact found

theorem Pairs.longer {history later : Array Symbol} (longer : history.toList <+: later.toList) {id : Nat}
    {entry : String × Nat × Tag} (pairs : Pairs link history id entry) : Pairs link later id entry := by
  obtain ⟨symbol, found, rest⟩ := pairs
  exact ⟨symbol, getElem?_of_longer longer found, rest⟩

theorem aligned_refl (recorded : table.Recorded) : Aligned link table table [] :=
  ⟨recorded, List.prefix_refl _, [], rfl, .nil⟩

namespace Aligned

variable (aligned : Aligned link global table scopes)

include aligned

theorem longer (longer : table.Extends later) : Aligned link global later scopes := by
  obtain ⟨segments, flat, pairs⟩ := aligned.scopes
  refine ⟨aligned.recorded, aligned.history.trans longer.history, segments, longer.active.trans flat, ?_⟩
  exact pairs.imp fun _ _ inner => inner.imp fun _ _ => Pairs.longer longer.history

theorem opened : Aligned link global table.openScope ([] :: scopes) := by
  obtain ⟨segments, flat, pairs⟩ := aligned.scopes
  exact ⟨aligned.recorded, aligned.history, [] :: segments, flat, .cons .nil pairs⟩

theorem declare {name : Ident} {type : Tag} {site : Site} {decl : Span} {slot : Nat} (tag : Tag)
    (sited : site = .param ∨ site = .localVar) (linked : link table.history.size slot) :
    Aligned link global (table.push name type site (.var false) decl)
      (Frame.bind scopes name.name slot tag) := by
  have history : table.history.toList <+:
      (table.push name type site (.var false) decl).history.toList :=
    SymbolTable.history_push name type site (.var false) decl
  obtain ⟨segments, flat, pairs⟩ := aligned.scopes
  have pairs : List.Forall₂ (List.Forall₂ (Pairs link
      (table.push name type site (.var false) decl).history)) segments scopes :=
    pairs.imp fun _ _ inner => inner.imp fun _ _ => Pairs.longer history
  have new : Pairs link (table.push name type site (.var false) decl).history table.history.size
      (name.name, slot, tag) := by
    refine ⟨_, Array.getElem?_push_size, rfl, ?_, linked⟩
    rcases sited with rfl | rfl <;> rfl
  refine ⟨aligned.recorded, aligned.history.trans history,
    (table.history.size :: segments.headD []) :: segments.tail, ?_, ?_⟩
  · change table.history.size :: table.active = _
    rw [flat]
    cases segments <;> rfl
  · cases pairs with
    | nil => exact .cons (.cons new .nil) .nil
    | cons first rest => exact .cons (.cons new first) rest

end Aligned

theorem find_scope {history : Array Symbol} {segment : List Nat} {scope : List (String × Nat × Tag)}
    (pairs : List.Forall₂ (Pairs link history) segment scope) (name : String) :
    (∃ id place, segment.find? (fun id => (history[id]?).any (·.name == name)) = some id ∧
        scope.lookup name = some place ∧ Pairs link history id (name, place)) ∨
      (segment.find? (fun id => (history[id]?).any (·.name == name)) = none ∧
        scope.lookup name = none) := by
  induction pairs with
  | nil => exact .inr ⟨rfl, rfl⟩
  | @cons id entry segment scope paired rest ih =>
    obtain ⟨symbol, found, named, isLocal, linked⟩ := paired
    rw [List.find?_cons, List.lookup_cons, found, Option.any_some, named]
    by_cases same : entry.1 = name
    · rw [beq_iff_eq.mpr same, beq_iff_eq.mpr same.symm]
      exact .inl ⟨id, entry.2, rfl, rfl, symbol, found, named.trans same, isLocal, linked⟩
    · rw [beq_eq_false_iff_ne.mpr same, beq_eq_false_iff_ne.mpr (Ne.symm same)]
      exact ih

theorem find_scopes {history : Array Symbol} {segments : List (List Nat)}
    (pairs : List.Forall₂ (List.Forall₂ (Pairs link history)) segments scopes) (name : String) :
    (∃ id place, segments.flatten.find? (fun id => (history[id]?).any (·.name == name)) = some id ∧
        scopes.findSome? (·.lookup name) = some place ∧ Pairs link history id (name, place)) ∨
      (segments.flatten.find? (fun id => (history[id]?).any (·.name == name)) = none ∧
        scopes.findSome? (·.lookup name) = none) := by
  induction pairs with
  | nil => exact .inr ⟨rfl, rfl⟩
  | cons first rest ih =>
    rw [List.flatten_cons, List.find?_append, List.findSome?_cons]
    rcases find_scope first name with ⟨id, place, one, two, paired⟩ | ⟨one, two⟩
    · rw [one, two]
      exact .inl ⟨id, place, rfl, rfl, paired⟩
    · rw [one, two]
      exact ih

theorem Aligned.position (aligned : Aligned link global table scopes) (name : String) :
    (∃ id place, table.position? name = some id ∧ scopes.findSome? (·.lookup name) = some place ∧
        Pairs link table.history id (name, place)) ∨
      (table.position? name = global.position? name ∧ table.lookup? name = global.lookup? name ∧
        scopes.findSome? (·.lookup name) = none) := by
  obtain ⟨segments, flat, pairs⟩ := aligned.scopes
  have old : ∀ id ∈ global.active, table.history[id]? = global.history[id]? := by
    intro id member
    have bound := aligned.recorded.active id member
    rw [Array.getElem?_eq_getElem bound]
    exact getElem?_of_longer aligned.history (Array.getElem?_eq_getElem bound)
  unfold SymbolTable.position?
  rw [flat, List.find?_append]
  rcases find_scopes pairs name with ⟨id, place, one, two, paired⟩ | ⟨one, two⟩
  · rw [one]
    exact .inl ⟨id, place, rfl, two, paired⟩
  · have same : global.active.find? (fun id => (table.history[id]?).any (·.name == name)) =
        global.position? name :=
      List.find?_congr fun id member => by rw [old id member]
    rw [one, Option.none_or, same]
    refine .inr ⟨rfl, ?_, two⟩
    rw [SymbolTable.lookup?_eq_position?, SymbolTable.lookup?_eq_position?]
    have position : table.position? name = global.position? name := by
      rw [← same, SymbolTable.position?, flat, List.find?_append, one, Option.none_or]
    rw [position]
    cases found : global.position? name with
    | none => rfl
    | some id => exact old id (List.mem_of_find?_eq_some found)

theorem Aligned.typeOf (aligned : Aligned link global table scopes) {text : String}
    (known : table.typeOf text ≠ .unknown) : global.typeOf text = table.typeOf text := by
  refine Tag.ofBracketed_of_known (fun name tag found => ?_) known
  unfold SymbolTable.classTag? at found ⊢
  rcases aligned.position name with ⟨id, place, position, _, symbol, placed, _, isLocal, _⟩ | ⟨_, same, _⟩
  · rw [SymbolTable.lookup?_eq_position?, position, Option.bind_some, placed] at found
    have kind := (Bool.and_eq_true_iff.mp isLocal).2
    have noClass : symbol.isClass = false := by
      rw [Symbol.isClass, beq_iff_eq.mp kind]
      rfl
    simp [noClass] at found
  · rw [← same]
    exact found

end Alignment

end StackCode
