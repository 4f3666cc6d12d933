import Mathlib.Data.List.DropRight
import Mathlib.Logic.Relation
import StackCode.Types.Bracketed

namespace StackCode

open Text

def Blank (text : List Char) : Prop := ∀ c ∈ text, isBlank c = true

/-- Groups, each of some blanks and a bracket pair. -/
inductive Groups : Nat → List Char → Prop
  | nil : Groups 0 []
  | snoc {count : Nat} {groups blanks : List Char} (before : Groups count groups)
      (blank : Blank blanks) : Groups (count + 1) (groups ++ (blanks ++ ['[', ']']))

structure Ended (word : List Char) : Prop where
  last : ∀ c ∈ word.getLast?, isBlank c = false
  unpaired : ¬ ['[', ']'] <:+ word

def Text.trim (text : List Char) : List Char := (trimStart text).rdropWhile isBlank

/-- A text is, apart from blanks around it, a word and `dims` groups behind it. -/
structure Splits (text name : String) (dims : Nat) : Prop where
  first : ∀ c ∈ name.toList.head?, isBlank c = false
  ended : Ended name.toList
  spelled : ∃ groups, Groups dims groups ∧ trim text.toList = name.toList ++ groups

/-- Blanks are put around a text or in front of a bracket pair with only groups and blanks behind it. -/
inductive Padded : String → String → Prop
  | around {left right : List Char} (text : String) (l : Blank left) (r : Blank right) :
      Padded text (String.ofList (left ++ text.toList ++ right))
  | inside {count : Nat} {blanks groups right : List Char} (front : List Char) (blank : Blank blanks)
      (behind : Groups count groups) (r : Blank right) :
      Padded (String.ofList (front ++ ['[', ']'] ++ groups ++ right))
        (String.ofList (front ++ blanks ++ ['[', ']'] ++ groups ++ right))

section Stripping

theorem stripPairs_blank {blanks : List Char} (blank : Blank blanks) (rest : List Char) :
    stripPairs (blanks.reverse ++ rest) = stripPairs rest := by
  induction blanks using List.reverseRecOn with
  | nil => rfl
  | append_singleton blanks c ih =>
    obtain ⟨front, last⟩ := List.forall_mem_append.mp blank
    have white : isBlank c = true := last c (List.mem_singleton_self c)
    have other : c ≠ ']' := by
      rintro rfl
      exact absurd white (by decide)
    rw [List.reverse_append, List.reverse_singleton, List.singleton_append, List.cons_append, stripPairs,
      if_pos white, ih front]
    exact fun _ same => absurd same other

theorem stripPairs_groups {count : Nat} {groups : List Char} (paired : Groups count groups)
    (rest : List Char) : stripPairs (groups.reverse ++ rest) =
      ((stripPairs rest).1, (stripPairs rest).2 + count) := by
  induction paired with
  | nil => rfl
  | @snoc count groups blanks before blank ih =>
    simp only [List.reverse_append, List.append_assoc, List.reverse_cons, List.reverse_nil,
      List.nil_append, List.cons_append, stripPairs]
    rw [stripPairs_blank blank, ih, Nat.add_assoc]

theorem Ended.stripPairs_eq {word left : List Char} (ended : Ended word) (blank : Blank left)
    (some : word ≠ []) : stripPairs (word.reverse ++ left) = (word.reverse ++ left, 0) := by
  obtain ⟨front, c, rfl⟩ := List.eq_nil_or_concat' word |>.resolve_left some
  have solid : isBlank c = false := ended.last c (by simp)
  rw [List.reverse_append, List.reverse_singleton, List.singleton_append, List.cons_append]
  rw [stripPairs, if_neg (by simp [solid])]
  rintro rest rfl same
  rcases List.eq_nil_or_concat' front with rfl | ⟨front, d, rfl⟩
  · -- In front of a single bracket stand blanks only.
    exact absurd (blank '[' (by simp_all)) (by decide)
  · simp only [List.reverse_append, List.reverse_cons, List.reverse_nil, List.nil_append,
      List.cons_append, List.cons.injEq] at same
    exact ended.unpaired ⟨front, by simp [same.1]⟩

theorem stripPairs_takes (cs : List Char) : ∃ groups right, Groups (stripPairs cs).2 groups ∧
    Blank right ∧ cs.reverse = (stripPairs cs).1.reverse ++ groups ++ right ∧
    Ended (stripPairs cs).1.reverse := by
  fun_induction stripPairs cs with
  | case1 => exact ⟨[], [], .nil, by simp [Blank], rfl, by simp, by simp⟩
  | case2 rest name dims found ih =>
    obtain ⟨groups, right, paired, blank, spelled, ended⟩ := ih
    rw [found] at paired spelled ended
    exact ⟨_, [], paired.snoc blank, by simp [Blank], by simp [spelled], ended⟩
  | case3 c rest other white ih =>
    obtain ⟨groups, right, paired, blank, spelled, ended⟩ := ih
    refine ⟨groups, right ++ [c], paired, ?_, by simp [spelled], ended⟩
    exact List.forall_mem_append.mpr ⟨blank, by simpa using white⟩
  | case4 c rest other solid =>
    refine ⟨[], [], .nil, by simp [Blank], by simp, by simpa using solid, ?_⟩
    rintro ⟨front, same⟩
    have flipped := congrArg List.reverse same
    simp only [List.reverse_append, List.reverse_cons, List.reverse_nil, List.nil_append,
      List.cons_append, List.reverse_reverse, List.cons.injEq] at flipped
    exact other _ flipped.1.symm flipped.2.symm

end Stripping

section Trimming

theorem trimStart_blank {left : List Char} (blank : Blank left) (text : List Char) :
    trimStart (left ++ text) = trimStart text := by
  rw [trimStart, List.dropWhile_append_of_pos blank, trimStart]

theorem trimStart_of_first {text : List Char} (first : ∀ c ∈ text.head?, isBlank c = false) :
    trimStart text = text := by
  cases text with
  | nil => rfl
  | cons c rest => exact List.dropWhile_cons_of_neg (by simp [first c rfl])

theorem rdropWhile_blank {right : List Char} (blank : Blank right) (text : List Char) :
    (text ++ right).rdropWhile isBlank = text.rdropWhile isBlank := by
  rw [List.rdropWhile, List.reverse_append,
    List.dropWhile_append_of_pos (fun c member => blank c (List.mem_reverse.mp member)), List.rdropWhile]

theorem exists_trimStart (text : List Char) : ∃ left, Blank left ∧ text = left ++ trimStart text :=
  ⟨text.takeWhile isBlank, fun _ member => (List.mem_takeWhile_imp member :),
    List.takeWhile_append_dropWhile.symm⟩

theorem trim_blank {left right : List Char} (l : Blank left) (r : Blank right) (text : List Char) :
    trim (left ++ text ++ right) = trim text := by
  rw [trim, List.append_assoc, trimStart_blank l, trimStart, List.dropWhile_append]
  split
  · rename_i none
    rw [trim, trimStart, List.isEmpty_iff.mp none, List.dropWhile_eq_nil_iff.mpr r]
  · exact rdropWhile_blank r _

theorem exists_trim (text : List Char) :
    ∃ left right, Blank left ∧ Blank right ∧ text = left ++ trim text ++ right := by
  obtain ⟨left, l, split⟩ := exists_trimStart text
  obtain ⟨right, r, split'⟩ := exists_trimStart (trimStart text).reverse
  refine ⟨left, right.reverse, l, fun c member => r c (List.mem_reverse.mp member), ?_⟩
  have ends : trim text = (trimStart (trimStart text).reverse).reverse := rfl
  rw [List.append_assoc, ends, ← List.reverse_append, ← split', List.reverse_reverse]
  exact split

theorem Groups.trimStart {count : Nat} {groups : List Char} (paired : Groups count groups) :
    Groups count (trimStart groups) := by
  induction paired with
  | nil => exact .nil
  | @snoc count groups blanks before blank ih =>
    rw [Text.trimStart, List.dropWhile_append]
    split
    · rename_i none
      rw [Text.trimStart, List.isEmpty_iff.mp none] at ih
      rw [List.dropWhile_append_of_pos blank]
      have none : Blank [] := by simp [Blank]
      exact ih.snoc none
    · exact ih.snoc blank

theorem Groups.trimEnd {count : Nat} {groups word : List Char} (paired : Groups count groups)
    (ended : Ended word) : (word ++ groups).rdropWhile isBlank = word ++ groups := by
  rw [List.rdropWhile_eq_self_iff]
  intro some
  cases paired with
  | nil => simpa using ended.last _ (by simpa using List.getLast?_eq_some_getLast some)
  | snoc before blank => simp [← List.append_assoc, isBlank]

end Trimming

theorem Splits.splitDimensions_eq {text name : String} {dims : Nat} (splits : Splits text name dims) :
    splitDimensions text = (name, dims) := by
  obtain ⟨first, ended, groups, paired, spelled⟩ := splits
  obtain ⟨left, right, l, r, whole⟩ := exists_trim text.toList
  have stripped : stripPairs text.toList.reverse =
      ((stripPairs (name.toList.reverse ++ left.reverse)).1,
        (stripPairs (name.toList.reverse ++ left.reverse)).2 + dims) := by
    rw [whole, spelled]
    simp only [List.reverse_append, List.append_assoc]
    rw [stripPairs_blank r, stripPairs_groups paired]
  have back : Blank left.reverse := fun c member => l c (List.mem_reverse.mp member)
  rw [splitDimensions, stripped]
  by_cases none : name.toList = []
  · have alone := stripPairs_blank l []
    rw [List.append_nil] at alone
    rw [none, List.reverse_nil, List.nil_append, alone]
    simp [stripPairs, trimStart, String.toList_eq_nil_iff.mp none]
  · rw [ended.stripPairs_eq back none]
    simp [trimStart_blank l, trimStart_of_first first]

theorem splits_splitDimensions (text : String) :
    Splits text (splitDimensions text).1 (splitDimensions text).2 := by
  obtain ⟨groups, right, paired, r, whole, ended⟩ := stripPairs_takes text.toList.reverse
  rw [List.reverse_reverse] at whole
  simp only [splitDimensions]
  generalize stripPairs text.toList.reverse = found at paired whole ended ⊢
  obtain ⟨left, l, word⟩ := exists_trimStart found.1.reverse
  have first : ∀ c ∈ (trimStart found.1.reverse).head?, isBlank c = false := by
    intro c starts
    have solid := List.head?_dropWhile_not isBlank found.1.reverse
    rw [trimStart] at starts
    simpa [Option.mem_def.mp starts] using solid
  have trimmed : trim text.toList = trim (trimStart found.1.reverse ++ groups) := by
    have padded := trim_blank l r (trimStart found.1.reverse ++ groups)
    rw [← List.append_assoc, ← word] at padded
    rw [whole, padded]
  generalize trimStart found.1.reverse = name at word first trimmed
  have rest : Ended name := by
    rw [word] at ended
    refine ⟨fun c last => ended.last c ?_, fun pair => ended.unpaired (pair.trans (List.suffix_append _ _))⟩
    rw [List.getLast?_append, Option.mem_def.mp last]
    rfl
  rw [← String.toList_ofList (l := name)] at first rest
  cases name with
  | nil => exact ⟨first, rest, _, paired.trimStart, trimmed.trans (paired.trimStart.trimEnd rest)⟩
  | cons c name =>
    refine ⟨first, rest, groups, paired, trimmed.trans ?_⟩
    rw [trim, trimStart_of_first (by simpa using first), paired.trimEnd (by simpa using rest),
      String.toList_ofList]

theorem Splits.alone {text name : String} {dims : Nat} (splits : Splits text name dims) :
    Splits name name 0 := by
  refine ⟨splits.first, splits.ended, [], .nil, ?_⟩
  have trimmed := Groups.nil.trimEnd splits.ended
  rw [List.append_nil] at trimmed ⊢
  rw [trim, trimStart_of_first splits.first, trimmed]

theorem Padded.splitDimensions_eq {text padded : String} (pads : Padded text padded) :
    splitDimensions padded = splitDimensions text := by
  cases pads with
  | @around left right text l r =>
    obtain ⟨first, ended, groups, paired, spelled⟩ := splits_splitDimensions text
    have wider : trim (String.ofList (left ++ text.toList ++ right)).toList = trim text.toList := by
      rw [String.toList_ofList, trim_blank l r]
    exact Splits.splitDimensions_eq ⟨first, ended, groups, paired, wider.trans spelled⟩
  | inside front blank behind r =>
    simp only [splitDimensions, String.toList_ofList, List.reverse_append, List.append_assoc,
      stripPairs_blank r, stripPairs_groups behind, List.reverse_cons, List.nil_append, List.cons_append,
      stripPairs, stripPairs_blank blank]

/-- The word and the number of groups are what `splitDimensions` gives and nothing else, the word by
itself is split no further, and more blanks change nothing. -/
theorem splitDimensions_normal_form (text : String) :
    (∀ name dims, splitDimensions text = (name, dims) ↔ Splits text name dims) ∧
      splitDimensions (splitDimensions text).1 = ((splitDimensions text).1, 0) ∧
      ∀ padded, Relation.ReflTransGen Padded text padded →
        splitDimensions padded = splitDimensions text := by
  have splits := splits_splitDimensions text
  refine ⟨fun name dims => ⟨fun found => ?_, Splits.splitDimensions_eq⟩,
    splits.alone.splitDimensions_eq, fun padded pads => ?_⟩
  · rwa [found] at splits
  · induction pads with
    | refl => rfl
    | tail _ step ih => rw [step.splitDimensions_eq, ih]

end StackCode
