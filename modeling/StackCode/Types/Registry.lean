import StackCode.Types.Bracketed

namespace StackCode

/-- The tags of classes by their names, the names by the tags, and the tag that is given next. -/
structure ClassTags where
  tags : List (String × Tag) := []
  names : List (Tag × String) := []
  next : Int := Tag.firstClass
deriving DecidableEq, Repr, Inhabited

namespace ClassTags

def tag? (c : ClassTags) (name : String) : Option Tag := c.tags.lookup name

def name? (c : ClassTags) (t : Tag) : Option String := c.names.lookup t

/-- The tag of a class, which gets the next one if it has none. When all are taken it stays
unknown. -/
def register (c : ClassTags) (name : String) : Tag × ClassTags :=
  match c.tag? name with
  | some t => (t, c)
  | none =>
    if Tag.listStep ≤ c.next then (.unknown, c)
    else (⟨c.next⟩, ⟨(name, ⟨c.next⟩) :: c.tags, (⟨c.next⟩, name) :: c.names, c.next + 1⟩)

def isClass (c : ClassTags) (t : Tag) : Bool := (c.name? t).isSome

def isReference (c : ClassTags) (t : Tag) : Bool := t == .string || t.isList || c.isClass t

def baseName (c : ClassTags) (t : Tag) : String :=
  ((c.name? t).or t.keywordName?).getD "unknown"

def pretty (c : ClassTags) (t : Tag) : String :=
  if t.isList then
    c.baseName t.base ++ String.ofList (List.replicate t.dimensions ['[', ']']).flatten
  else c.baseName t

def capacity : Nat := 900

def nthTag (n : Nat) : Tag := ⟨Tag.firstClass + n⟩

/-- The maps hold the names of a list, with the tags that their places in it give. -/
structure Lists (c : ClassTags) (names : List String) : Prop where
  few : names.length ≤ capacity
  next : c.next = (nthTag names.length).code
  tag? : ∀ name tag, c.tag? name = some tag ↔ ∃ i, names[i]? = some name ∧ nthTag i = tag
  name? : ∀ name tag, c.name? tag = some name ↔ ∃ i, names[i]? = some name ∧ nthTag i = tag

def order (c : ClassTags) : List String := (c.names.map Prod.snd).reverse

theorem lists_empty : ({} : ClassTags).Lists [] :=
  ⟨Nat.zero_le _, rfl, fun _ _ => by simp [tag?], fun _ _ => by simp [name?]⟩

theorem placed_concat {names : List String} {new name : String} {tag : Tag} :
    (∃ i, (names ++ [new])[i]? = some name ∧ nthTag i = tag) ↔
      (∃ i, names[i]? = some name ∧ nthTag i = tag) ∨ new = name ∧ nthTag names.length = tag := by
  constructor
  · rintro ⟨i, found, same⟩
    rcases Nat.lt_trichotomy i names.length with before | rfl | behind
    · rw [List.getElem?_append_left before] at found
      exact .inl ⟨i, found, same⟩
    · rw [List.getElem?_concat_length] at found
      exact .inr ⟨Option.some.inj found, same⟩
    · rw [List.getElem?_eq_none (by simp; omega)] at found
      cases found
  · rintro (⟨i, found, same⟩ | ⟨rfl, same⟩)
    · have before := (List.getElem?_eq_some_iff.mp found).1
      exact ⟨i, by rw [List.getElem?_append_left before, found], same⟩
    · exact ⟨_, List.getElem?_concat_length, same⟩

variable {c : ClassTags} {names : List String}

theorem Lists.unplaced (lists : c.Lists names) {name : String} {tag : Tag} (fresh : c.next ≤ tag.code) :
    ¬ ∃ i, names[i]? = some name ∧ nthTag i = tag := by
  rintro ⟨i, found, rfl⟩
  have before := (List.getElem?_eq_some_iff.mp found).1
  rw [lists.next] at fresh
  simp only [nthTag] at fresh
  omega

/-- Both maps and the counter go on together. -/
theorem Lists.concat (lists : c.Lists names) {new : String} (fresh : c.tag? new = none)
    (room : c.next < Tag.listStep) :
    Lists ⟨(new, ⟨c.next⟩) :: c.tags, (⟨c.next⟩, new) :: c.names, c.next + 1⟩ (names ++ [new]) := by
  have here : nthTag names.length = ⟨c.next⟩ := by rw [lists.next]
  refine ⟨?_, ?_, fun name tag => ?_, fun name tag => ?_⟩
  · rw [lists.next] at room
    simp only [nthTag, Tag.firstClass, Tag.listStep] at room
    simp only [List.length_append, List.length_singleton, capacity]
    omega
  · simp only [lists.next, nthTag, List.length_append, List.length_singleton]
    omega
  · rw [placed_concat, here, ClassTags.tag?, List.lookup_cons]
    split
    · rename_i same
      obtain rfl := eq_of_beq same
      have none : ¬ ∃ i, names[i]? = some name ∧ nthTag i = tag := by
        rw [← lists.tag?, fresh]
        simp
      simp [none]
    · rename_i other
      have apart : new ≠ name := fun same => by simp [same] at other
      simpa [apart, ClassTags.tag?] using lists.tag? name tag
  · rw [placed_concat, here, ClassTags.name?, List.lookup_cons]
    split
    · rename_i same
      obtain rfl := eq_of_beq same
      have none : ¬ ∃ i, names[i]? = some name ∧ nthTag i = ⟨c.next⟩ :=
        lists.unplaced (Int.le_refl c.next)
      simp [none]
    · rename_i other
      have apart : (⟨c.next⟩ : Tag) ≠ tag := fun same => by simp [← same] at other
      simpa [apart, ClassTags.name?] using lists.name? name tag

/-- What registration can do. -/
theorem register_cases (c : ClassTags) (name : String) :
    (∃ tag, c.tag? name = some tag ∧ c.register name = (tag, c)) ∨
      c.tag? name = none ∧ Tag.listStep ≤ c.next ∧ c.register name = (.unknown, c) ∨
      c.tag? name = none ∧ c.next < Tag.listStep ∧ c.register name =
        (⟨c.next⟩, ⟨(name, ⟨c.next⟩) :: c.tags, (⟨c.next⟩, name) :: c.names, c.next + 1⟩) := by
  unfold register
  cases known : c.tag? name with
  | some tag => exact .inl ⟨tag, rfl, rfl⟩
  | none =>
    dsimp only
    split
    · rename_i full
      exact .inr (.inl ⟨rfl, full, rfl⟩)
    · rename_i room
      exact .inr (.inr ⟨rfl, Int.not_le.mp room, rfl⟩)

theorem Lists.register (lists : c.Lists c.order) (name : String) :
    (c.register name).2.Lists (c.register name).2.order := by
  rcases c.register_cases name with ⟨_, _, same⟩ | ⟨_, _, same⟩ | ⟨fresh, room, same⟩
  · rwa [same]
  · rwa [same]
  · rw [same, order, List.map_cons, List.reverse_cons]
    exact lists.concat fresh room

end ClassTags

/-- The classes that have a tag: two maps and a counter that agree on a list of names. -/
structure Registry where
  classes : ClassTags
  lists : classes.Lists classes.order
deriving DecidableEq, Repr

namespace Registry

instance : EmptyCollection Registry := ⟨⟨{}, ClassTags.lists_empty⟩⟩

instance : Inhabited Registry := ⟨{}⟩

def names (r : Registry) : List String := r.classes.order

def tag? (r : Registry) (name : String) : Option Tag := r.classes.tag? name

def name? (r : Registry) (t : Tag) : Option String := r.classes.name? t

def register (r : Registry) (name : String) : Tag × Registry :=
  ((r.classes.register name).1, ⟨(r.classes.register name).2, r.lists.register name⟩)

def isClass (r : Registry) (t : Tag) : Bool := r.classes.isClass t

def isReference (r : Registry) (t : Tag) : Bool := r.classes.isReference t

def baseName (r : Registry) (t : Tag) : String := r.classes.baseName t

def pretty (r : Registry) (t : Tag) : String := r.classes.pretty t

end Registry

end StackCode
