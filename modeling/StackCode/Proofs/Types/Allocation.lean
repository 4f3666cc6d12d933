import StackCode.Proofs.Typing.Tags

namespace StackCode

namespace ClassTags

def after (names : List String) : ClassTags :=
  names.foldl (fun classes name => (classes.register name).2) {}

def replies : ClassTags → List String → List Tag
  | _, [] => []
  | classes, name :: calls =>
    (classes.register name).1 :: replies (classes.register name).2 calls

def ordinalTag (k : Nat) : Tag := if k < capacity then nthTag k else .unknown

def sight (seen : List String) (name : String) : List String :=
  if name ∈ seen then seen else seen ++ [name]

/-- Some names have been seen: the maps hold the first of them, as far as the tags last. -/
def HasSeen (classes : ClassTags) (seen : List String) : Prop :=
  classes.Lists (seen.take capacity)

theorem eraseDups_sight (calls : List String) (name : String) :
    (calls ++ [name]).eraseDups = sight calls.eraseDups name := by
  have alone : [name].eraseDups = [name] := List.eraseDups_cons
  by_cases known : name ∈ calls <;>
    simp [sight, known, List.eraseDups_append, List.removeAll, List.mem_eraseDups, alone]

theorem idxOf_take_lt {seen : List String} {name : String} (known : name ∈ seen) :
    seen.idxOf name < capacity ↔ name ∈ seen.take capacity := by
  nth_rewrite 1 [← List.take_append_drop capacity seen]
  by_cases first : name ∈ seen.take capacity
  · rw [List.idxOf_append_of_mem first]
    have inside := List.idxOf_lt_length_of_mem first
    rw [List.length_take] at inside
    exact iff_of_true (by omega) first
  · rw [List.idxOf_append_of_notMem first]
    have full : capacity < seen.length := by
      by_contra short
      rw [List.take_of_length_le (by omega)] at first
      exact first known
    rw [List.length_take]
    exact iff_of_false (by omega) first

variable {classes : ClassTags} {seen : List String}

theorem Lists.tag?_of_mem {names : List String} (lists : classes.Lists names) {name : String}
    (member : name ∈ names) : classes.tag? name = some (nthTag (names.idxOf name)) :=
  (lists.tag? name _).mpr ⟨_, List.getElem?_idxOf member, rfl⟩

theorem Lists.tag?_of_notMem {names : List String} (lists : classes.Lists names) {name : String}
    (absent : name ∉ names) : classes.tag? name = none := by
  refine Option.eq_none_iff_forall_ne_some.mpr fun tag known => absent ?_
  obtain ⟨i, found, _⟩ := (lists.tag? name tag).mp known
  exact List.mem_of_getElem? found

theorem HasSeen.tag? (state : classes.HasSeen seen) {name : String} (known : name ∈ seen) :
    classes.tag? name =
      if seen.idxOf name < capacity then some (nthTag (seen.idxOf name)) else none := by
  split
  · rename_i early
    have first := (idxOf_take_lt known).mp early
    rw [state.tag?_of_mem first, ← List.idxOf_append_of_mem first, List.take_append_drop]
  · rename_i late
    rw [idxOf_take_lt known] at late
    exact state.tag?_of_notMem late

theorem HasSeen.next_eq (state : classes.HasSeen seen) :
    classes.next = 100 + (min 900 seen.length : Nat) := by
  rw [state.next, List.length_take]
  rfl

theorem HasSeen.register (state : classes.HasSeen seen) (name : String) :
    (classes.register name).1 = ordinalTag ((sight seen name).idxOf name) ∧
      (classes.register name).2.HasSeen (sight seen name) := by
  have next := state.next_eq
  by_cases known : name ∈ seen
  · have found := state.tag? known
    have place := List.idxOf_lt_length_of_mem known
    rw [sight, if_pos known]
    rcases classes.register_cases name with ⟨tag, given, same⟩ | ⟨none, _, same⟩ | ⟨none, room, same⟩
    · rw [given] at found
      rw [same, ordinalTag]
      split at found
      · rename_i early
        rw [if_pos early]
        exact ⟨Option.some.inj found, state⟩
      · cases found
    · rw [none] at found
      rw [same, ordinalTag, if_neg fun early => by rw [if_pos early] at found; cases found]
      exact ⟨rfl, state⟩
    · -- With a tag left, a name that was seen has got one.
      rw [none, if_pos (by simp only [Tag.listStep, capacity] at room ⊢; omega)] at found
      cases found
  · have fresh : classes.tag? name = none :=
      state.tag?_of_notMem fun member => known (List.mem_of_mem_take member)
    rw [sight, if_neg known, List.idxOf_append_of_notMem known, List.idxOf_cons_self,
      Nat.add_zero, ordinalTag]
    rcases classes.register_cases name with ⟨tag, given, _⟩ | ⟨_, full, same⟩ | ⟨_, room, same⟩
    · rw [fresh] at given
      cases given
    · simp only [Tag.listStep] at full
      have full : capacity ≤ seen.length := by
        simp only [capacity]
        omega
      rw [same, if_neg (by omega)]
      refine ⟨rfl, ?_⟩
      rw [HasSeen, List.take_append_of_le_length full]
      exact state
    · have more := state.concat fresh room
      simp only [Tag.listStep] at room
      have few : seen.length < capacity := by
        simp only [capacity]
        omega
      rw [same, if_pos few]
      constructor
      · rw [next, Nat.min_eq_right (by simpa [capacity] using few.le)]
        rfl
      · rw [List.take_of_length_le few.le] at more
        rwa [HasSeen, List.take_of_length_le (by simpa using few)]

theorem after_append (calls later : List String) :
    after (calls ++ later) = later.foldl (fun classes name => (classes.register name).2)
      (after calls) := by
  rw [after, List.foldl_append]
  rfl

theorem hasSeen_after (calls : List String) : (after calls).HasSeen calls.eraseDups := by
  induction calls using List.reverseRecOn with
  | nil => exact lists_empty
  | append_singleton calls name ih =>
    rw [eraseDups_sight, after_append]
    exact (ih.register name).2

theorem idxOf_eraseDups_append {calls : List String} {name : String} (member : name ∈ calls)
    (later : List String) : (calls ++ later).eraseDups.idxOf name = calls.eraseDups.idxOf name := by
  rw [List.eraseDups_append, List.idxOf_append_of_mem (List.mem_eraseDups.mpr member)]

theorem replies_after (calls later : List String) :
    replies (after calls) later =
      later.map fun name => ordinalTag ((calls ++ later).eraseDups.idxOf name) := by
  induction later generalizing calls with
  | nil => rfl
  | cons name later ih =>
    have first := ((hasSeen_after calls).register name).1
    have rest := ih (calls ++ [name])
    rw [after_append, List.foldl_cons, List.foldl_nil, List.append_assoc, List.singleton_append] at rest
    have place : (calls ++ name :: later).eraseDups.idxOf name =
        (calls ++ [name]).eraseDups.idxOf name := by
      rw [← List.singleton_append, ← List.append_assoc]
      exact idxOf_eraseDups_append (by simp) later
    rw [replies, List.map_cons, rest, first, place, eraseDups_sight]

theorem Lists.isClass_iff {names : List String} (lists : classes.Lists names) {tag : Tag} :
    classes.isClass tag = true ↔ 100 ≤ tag.code ∧ tag.code < classes.next := by
  rw [isClass, Option.isSome_iff_exists, lists.next]
  simp only [lists.name?]
  constructor
  · rintro ⟨name, i, found, rfl⟩
    have inside := (List.getElem?_eq_some_iff.mp found).1
    simp only [nthTag, Tag.firstClass]
    omega
  · rintro ⟨low, high⟩
    simp only [nthTag, Tag.firstClass] at high
    have inside : (tag.code - 100).toNat < names.length := by omega
    refine ⟨_, _, List.getElem?_eq_getElem inside, ?_⟩
    obtain ⟨code⟩ := tag
    simp only [nthTag, Tag.firstClass, Tag.mk.injEq] at low ⊢
    omega

theorem Lists.register_unknown {names : List String} (lists : classes.Lists names) {name : String}
    (unknown : (classes.register name).1 = .unknown) : (classes.register name).2 = classes := by
  rcases classes.register_cases name with ⟨_, _, same⟩ | ⟨_, _, same⟩ | ⟨_, _, same⟩
  · rw [same]
  · rw [same]
  · rw [same, lists.next] at unknown
    have code : Tag.firstClass + (names.length : Int) = 0 := congrArg Tag.code unknown
    simp only [Tag.firstClass] at code
    omega

/-- What is said of a tag below the next one stays when names are added behind the others. -/
theorem Lists.name?_of_prefix {names more : List String} {larger : ClassTags}
    (lists : classes.Lists names) (lists' : larger.Lists more) (grown : names <+: more) {tag : Tag}
    (given : tag.code < classes.next) : larger.name? tag = classes.name? tag := by
  refine Option.ext fun name => ?_
  rw [lists.name?, lists'.name?]
  refine exists_congr fun i => and_congr_left ?_
  rintro rfl
  rw [lists.next] at given
  have inside : i < names.length := by
    simp only [nthTag] at given
    omega
  obtain ⟨new, rfl⟩ := grown
  rw [List.getElem?_append_left inside]

theorem ordinalTag_lt_next {calls : List String} {name : String} (member : name ∈ calls) :
    (ordinalTag (calls.eraseDups.idxOf name)).code < (after calls).next := by
  have inside := List.idxOf_lt_length_of_mem (List.mem_eraseDups.mpr member)
  rw [(hasSeen_after calls).next_eq, ordinalTag]
  split
  · rename_i room
    simp only [nthTag, capacity, Tag.firstClass] at room ⊢
    omega
  · simp only [Tag.unknown]
    omega

theorem pretty_of_name? {larger : ClassTags} {tag : Tag} (low : tag.code < Tag.listStep)
    (same : larger.name? tag = classes.name? tag) : larger.pretty tag = classes.pretty tag := by
  have plain : ¬ tag.isList = true := by
    rw [Registry.isList_iff]
    exact not_le.mpr low
  rw [pretty, pretty, if_neg plain, if_neg plain, baseName, baseName, same]

/-- Tags of classes are given out injectively and for good: distinct names get the tags from 100 on in
the order in which they are first seen, 900 at most, and a name that is seen again gets the answer it got
first; the two maps are inverse to each other and their tags go up to the next one; where no tag is given
nothing changes; and what is said of a tag that was given out stays. -/
theorem tags_given_for_good (calls : List String) :
    let classes : ClassTags := after calls
    replies {} calls = calls.map (fun name =>
        if calls.eraseDups.idxOf name < 900 then ⟨100 + calls.eraseDups.idxOf name⟩ else .unknown) ∧
      (∀ name ∈ calls, classes.tag? name =
        if calls.eraseDups.idxOf name < 900 then some ⟨100 + calls.eraseDups.idxOf name⟩ else none) ∧
      (∀ name tag, classes.tag? name = some tag ↔ classes.name? tag = some name) ∧
      (∀ tag, classes.isClass tag = true ↔ 100 ≤ tag.code ∧ tag.code < classes.next) ∧
      classes.next = 100 + (min 900 calls.eraseDups.length : Nat) ∧ classes.next ≤ 1000 ∧
      (∀ name, (classes.register name).1 = .unknown → (classes.register name).2 = classes) ∧
      ∀ later, ∀ tag ∈ replies {} calls,
        (after (calls ++ later)).isClass tag = classes.isClass tag ∧
        (after (calls ++ later)).name? tag = classes.name? tag ∧
        (after (calls ++ later)).pretty tag = classes.pretty tag := by
  intro classes
  have answers : replies {} calls = calls.map fun name => ordinalTag (calls.eraseDups.idxOf name) :=
    replies_after [] calls
  have state : classes.HasSeen calls.eraseDups := hasSeen_after calls
  have bound : classes.next ≤ 1000 := by
    rw [state.next_eq]
    omega
  refine ⟨answers, fun name member => state.tag? (List.mem_eraseDups.mpr member),
    fun name tag => (Lists.tag? state name tag).trans (Lists.name? state name tag).symm,
    fun tag => state.isClass_iff, state.next_eq, bound, fun name => state.register_unknown, ?_⟩
  intro later tag given
  rw [answers] at given
  obtain ⟨name, member, rfl⟩ := List.mem_map.mp given
  have below := ordinalTag_lt_next member
  have longer : calls.eraseDups.take capacity <+: (calls ++ later).eraseDups.take capacity := by
    rw [List.eraseDups_append]
    exact (List.prefix_append _ _).take _
  have stays := state.name?_of_prefix (hasSeen_after (calls ++ later)) longer below
  exact ⟨by rw [isClass, isClass, stays], stays, pretty_of_name? (below.trans_le bound) stays⟩

def lengthening (count : Nat) : List String :=
  (List.range count).map fun length => String.ofList (List.replicate length 'x')

theorem lengthening_eraseDups (count : Nat) : (lengthening count).eraseDups = lengthening count := by
  induction count with
  | zero => rfl
  | succ count ih =>
    have longer : String.ofList (List.replicate count 'x') ∉ lengthening count := by
      intro member
      obtain ⟨length, short, same⟩ := List.mem_map.mp member
      have letters := congrArg (·.toList.length) same
      simp only [String.toList_ofList, List.length_replicate] at letters
      exact absurd (List.mem_range.mp short) (by omega)
    rw [lengthening, List.range_succ, List.map_append, List.map_singleton]
    change (lengthening count ++ _).eraseDups = lengthening count ++ _
    rw [eraseDups_sight, ih, sight, if_neg longer]

/-- Where 900 classes have a tag, the next name gets none and leaves the maps as they are, and the
first one keeps its tag. -/
theorem lengthening_given_for_good :
    ((after (lengthening 900)).register "Late").1 = .unknown ∧
      ((after (lengthening 900)).register "Late").2 = after (lengthening 900) ∧
      (⟨100⟩ : Tag) ∈ replies {} (lengthening 900) ∧
      (after (lengthening 900 ++ ["Late", ""])).name? ⟨100⟩ = some "" := by
  obtain ⟨answers, -, -, -, -, -, unchanged, kept⟩ := tags_given_for_good (lengthening 900)
  obtain ⟨others, start⟩ : ∃ others, lengthening 900 = "" :: others := by
    rw [lengthening, List.range_succ_eq_map, List.map_cons]
    exact ⟨_, rfl⟩
  have seen : (after (lengthening 900)).HasSeen (lengthening 900) := by
    have distinct := hasSeen_after (lengthening 900)
    rwa [lengthening_eraseDups] at distinct
  have late : ((after (lengthening 900)).register "Late").1 = .unknown := by
    have free : "Late" ∉ lengthening 900 := by
      intro member
      obtain ⟨length, -, same⟩ := List.mem_map.mp member
      have letters : 'L' ∈ (String.ofList (List.replicate length 'x')).toList := by
        rw [same]
        decide
      rw [String.toList_ofList] at letters
      exact absurd (List.eq_of_mem_replicate letters) (by decide)
    rw [(seen.register "Late").1, sight, if_neg free, List.idxOf_append_of_notMem free]
    simp [ordinalTag, lengthening, capacity]
  have first : (⟨100⟩ : Tag) ∈ replies {} (lengthening 900) := by
    rw [answers, lengthening_eraseDups, List.mem_map]
    refine ⟨"", by rw [start]; simp, ?_⟩
    rw [start, List.idxOf_cons_self]
    rfl
  refine ⟨late, unchanged "Late" late, first, ?_⟩
  rw [(kept ["Late", ""] _ first).2.1, seen.name?, start]
  exact ⟨0, rfl, rfl⟩

end ClassTags

end StackCode
