import StackCode.Proofs.Machine.Slots

namespace StackCode

open Code

namespace Platform

structure ListView (P : Platform) where
  elements : P.World → P.Data → Option (List (Value P.Data))
  Rest : Type
  rest : P.World → Rest

variable {P : Platform}

namespace ListView

variable (view : P.ListView)

/-- From one world to the other, a list has got its elements and nothing else has changed. -/
structure Puts (world world' : P.World) (list : P.Data) (items : List (Value P.Data)) : Prop where
  put : view.elements world' list = some items
  others : ∀ other, other ≠ list → view.elements world' other = view.elements world other
  rest : view.rest world' = view.rest world

/-- From one state to the other, the lists `made` are new. Nothing else has changed, the slots from
`slots` on apart. -/
structure Grown (slots : Nat) (made : List P.Data) (s t : P.State) : Prop where
  fresh : ∀ list ∈ made, view.elements s.world list = none
  there : ∀ list ∈ made, view.elements t.world list ≠ none
  once : made.Nodup
  others : ∀ list, list ∉ made → view.elements t.world list = view.elements s.world list
  rest : view.rest t.world = view.rest s.world
  args : t.args = s.args
  locals : ∀ slot, slot < slots → t.locals slot = s.locals slot

/-- A value is a list of as many elements as the first count says, each of them a grid for the other
counts, and a grid for no counts is `zero`. All lists in it are listed in `made`. -/
def IsGrid (world : P.World) (zero : Value P.Data) : List Nat → Value P.Data → List P.Data → Prop
  | [], value, made => value = zero ∧ made = []
  | count :: counts, value, made => ∃ list rows parts,
      value = .data list ∧ view.elements world list = some rows ∧ rows.length = count ∧
      List.Forall₂ (IsGrid world zero counts) rows parts ∧
      made = list :: parts.flatten

end ListView

structure Lists (P : Platform) extends ListView P where
  sized : ∀ (elem : Ty) (count : Nat) (world : P.World), count < 2 ^ 31 → ∃ list world',
    P.serve (.newList elem true) [.word (.ofNat count)] world = some (.data list, world') ∧
    elements world list = none ∧
    toListView.Puts world world' list (List.replicate count (P.zero elem))
  empty : ∀ (elem : Ty) (world : P.World), ∃ list world',
    P.serve (.newList elem false) [] world = some (.data list, world') ∧
    elements world list = none ∧ toListView.Puts world world' list []
  add : ∀ (elem : Ty) (world : P.World) (list row : P.Data) (items : List (Value P.Data)),
    elements world list = some items → elements world row ≠ none → ∃ given world',
    P.serve (.member .add elem) [.data list, .data row] world = some (given, world') ∧
    toListView.Puts world world' list (items ++ [.data row])

namespace ListView

variable {view : P.ListView} {s t u : P.State} {slots : Nat} {made more : List P.Data}

theorem Grown.refl (slots : Nat) (s : P.State) : view.Grown slots [] s s where
  fresh := by simp
  there := by simp
  once := List.nodup_nil
  others := fun _ _ => rfl
  rest := rfl
  args := rfl
  locals := fun _ _ => rfl

theorem Grown.mono {fewer : Nat} (grown : view.Grown slots made s t) (le : fewer ≤ slots) :
    view.Grown fewer made s t :=
  { grown with locals := fun slot below => grown.locals slot (below.trans_le le) }

theorem Grown.trans (first : view.Grown slots made s t) (second : view.Grown slots more t u) :
    view.Grown slots (made ++ more) s u := by
  have apart : ∀ list ∈ more, list ∉ made := by
    intro list later earlier
    exact first.there list earlier (second.fresh list later)
  constructor
  · intro list member
    rcases List.mem_append.mp member with member | member
    · exact first.fresh list member
    · rw [← first.others list (apart list member)]
      exact second.fresh list member
  · intro list member
    rcases List.mem_append.mp member with earlier | later
    · rw [second.others list fun later => apart list later earlier]
      exact first.there list earlier
    · exact second.there list later
  · exact List.nodup_append'.mpr ⟨first.once, second.once, fun list earlier later =>
      apart list later earlier⟩
  · intro list absent
    rw [List.mem_append, not_or] at absent
    rw [second.others list absent.2, first.others list absent.1]
  · exact second.rest.trans first.rest
  · exact second.args.trans first.args
  · intro slot below
    rw [second.locals slot below, first.locals slot below]

theorem Grown.single {list : P.Data} {items : List (Value P.Data)} {world : P.World}
    (fresh : view.elements s.world list = none) (puts : view.Puts s.world world list items) :
    view.Grown slots [list] s { s with world } where
  fresh := by simpa using fresh
  there := by simp [puts.put]
  once := List.nodup_singleton list
  others := fun other absent => puts.others other (by simpa using absent)
  rest := puts.rest
  args := rfl
  locals := fun _ _ => rfl

theorem Grown.put {list : P.Data} {items : List (Value P.Data)} {world : P.World}
    (grown : view.Grown slots made s t) (member : list ∈ made)
    (puts : view.Puts t.world world list items) : view.Grown slots made s { t with world } where
  fresh := grown.fresh
  there := by
    intro other inside
    by_cases same : other = list
    · rw [same, puts.put]
      simp
    · rw [puts.others other same]
      exact grown.there other inside
  once := grown.once
  others := by
    intro other absent
    rw [puts.others other fun same => absent (same ▸ member)]
    exact grown.others other absent
  rest := puts.rest.trans grown.rest
  args := grown.args
  locals := grown.locals

theorem Grown.keep {slot : Nat} {value : Value P.Data} (grown : view.Grown slots made s t)
    (beyond : slots ≤ slot) : view.Grown slots made s (t.keep slot value) :=
  { grown with
    locals := fun other below => by
      rw [t.keep_locals_of_ne value (by omega)]
      exact grown.locals other below }

theorem forall₂_of_flatten {α β : Type} {R S : α → List β → Prop} {holds : β → Prop} {rows : List α}
    {parts : List (List β)} (related : List.Forall₂ R rows parts)
    (all : ∀ inner ∈ parts.flatten, holds inner)
    (goesOver : ∀ row part, (∀ inner ∈ part, holds inner) → R row part → S row part) :
    List.Forall₂ S rows parts := by
  induction related with
  | nil => exact .nil
  | cons row _ ih =>
    rw [List.flatten_cons, List.forall_mem_append] at all
    exact .cons (goesOver _ _ all.1 row) (ih all.2)

theorem IsGrid.congr {world world' : P.World} {zero value : Value P.Data} {counts : List Nat}
    (same : ∀ list ∈ made, view.elements world' list = view.elements world list)
    (grid : view.IsGrid world zero counts value made) : view.IsGrid world' zero counts value made := by
  induction counts generalizing value made with
  | nil => exact grid
  | cons count counts ih =>
    obtain ⟨list, rows, parts, rfl, found, length, inside, rfl⟩ := grid
    refine ⟨list, rows, parts, rfl, ?_, length, ?_, rfl⟩
    · rw [same list List.mem_cons_self, found]
    · exact forall₂_of_flatten inside (fun inner member => same inner (List.mem_cons_of_mem list member))
        fun _ _ kept row => ih kept row

theorem forall₂_zeros (view : P.ListView) (world : P.World) (zero : Value P.Data) (count : Nat) :
    List.Forall₂ (view.IsGrid world zero []) (List.replicate count zero) (List.replicate count []) := by
  induction count with
  | zero => exact .nil
  | succ count ih => exact .cons ⟨rfl, rfl⟩ ih

theorem IsGrid.exists_list {world : P.World} {zero value : Value P.Data} {count : Nat}
    {counts : List Nat} (grid : view.IsGrid world zero (count :: counts) value made) :
    ∃ list, value = .data list ∧ view.elements world list ≠ none := by
  obtain ⟨list, rows, parts, rfl, found, _⟩ := grid
  exact ⟨list, rfl, by simp [found]⟩

end ListView

end Platform

end StackCode
