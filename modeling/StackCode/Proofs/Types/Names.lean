import StackCode.Proofs.Types.Brackets
import StackCode.Proofs.Typing.Outline

namespace StackCode

def bracketPairs (count : Nat) : List Char := (List.replicate count ['[', ']']).flatten

def bracketed (name : String) (count : Nat) : String := name ++ String.ofList (bracketPairs count)

theorem bracketed_zero (name : String) : bracketed name 0 = name := String.append_empty

theorem groups_bracketPairs (count : Nat) : Groups count (bracketPairs count) := by
  induction count with
  | zero => exact .nil
  | succ count ih =>
    have last : bracketPairs (count + 1) = bracketPairs count ++ ([] ++ ['[', ']']) := by
      simp [bracketPairs, List.replicate_succ']
    rw [last]
    exact ih.snoc (List.forall_mem_nil _)

theorem splitDimensions_bracketed (name : String) (count : Nat) :
    splitDimensions (bracketed name count) =
      ((splitDimensions name).1, (splitDimensions name).2 + count) := by
  simp only [splitDimensions, bracketed, String.toList_append, String.toList_ofList,
    List.reverse_append, stripPairs_groups (groups_bracketPairs count)]

theorem fitsInt32_iff {n : Int} : fitsInt32 n = true ↔ -2147483648 ≤ n ∧ n < 2147483648 := by
  rw [fitsInt32, Bool.and_eq_true, decide_eq_true_eq, decide_eq_true_eq]

theorem stripPairs32_eq (cs : List Char) :
    stripPairs32 cs = ((stripPairs cs).1, .ofNat (stripPairs cs).2) := by
  fun_induction stripPairs cs with
  | case1 => rfl
  | case2 rest name dims found ih =>
    rw [stripPairs32, ih, found, Int32.ofNat_add]
    rfl
  | case3 c rest other blank ih =>
    rw [stripPairs32, if_pos blank, ih]
    exact other
  | case4 c rest other solid =>
    rw [stripPairs32, if_neg solid]
    · rfl
    · exact other

theorem splitDimensions32_eq (text : String) :
    splitDimensions32 text = ((splitDimensions text).1, .ofNat (splitDimensions text).2) := by
  rw [splitDimensions32, stripPairs32_eq, splitDimensions]

namespace Tag

variable {classes : String → Option Tag} {text : String}

theorem addDimensions32_ofNat (tag : Tag) {dims : Nat} (few : dims < 2 ^ 31) :
    tag.addDimensions32 (.ofNat dims) = tag.addDimensions dims := by
  have room : (tag.code ≤ 0 || !fitsInt32 (dims * listStep) || !fitsInt32 (tag.code + dims * listStep)) =
      (tag.code ≤ 0 || decide (greatest < tag.code + dims * listStep)) := by
    have outside (n : Int) : (!fitsInt32 n) = true ↔ n < -2147483648 ∨ 2147483648 ≤ n := by
      rw [Bool.not_eq_true', ← Bool.not_eq_true, fitsInt32_iff]
      omega
    rw [Bool.eq_iff_iff]
    simp only [Bool.or_eq_true, decide_eq_true_eq, outside]
    simp only [greatest, listStep]
    omega
  rw [addDimensions32, addDimensions, Int32.toInt_ofNat_of_lt few]
  simp only [room]

/-- Below two to the 31 pairs the count does not run over. -/
theorem ofBracketed32_eq (few : (splitDimensions text).2 < 2 ^ 31) :
    ofBracketed32 classes text = ofBracketed classes text := by
  have none : (Int32.ofNat (splitDimensions text).2 = 0) ↔ (splitDimensions text).2 = 0 := by
    rw [← Int32.toInt_inj, Int32.toInt_ofNat_of_lt few]
    exact Int.natCast_eq_zero
  rw [ofBracketed32, splitDimensions32_eq, ofBracketed]
  simp only [none, addDimensions32_ofNat _ few]

theorem base_and_dimensions {root : Int} (dims : Nat) (low : 0 ≤ root) (high : root < listStep) :
    (⟨root + dims * listStep⟩ : Tag).base = ⟨root⟩ ∧
      (⟨root + dims * listStep⟩ : Tag).dimensions = dims := by
  rw [listStep] at high ⊢
  refine ⟨?_, ?_⟩
  · rw [base, if_neg (by simp only; omega), listStep]
    congr 1
    dsimp only
    omega
  · rw [dimensions, listStep]
    dsimp only
    omega

end Tag

namespace Registry

def after (names : List String) : Registry :=
  names.foldl (fun registry name => (registry.register name).2) {}

variable {registry : Registry} {tag : Tag} {name : String}

/-- The names of classes can be read as they are: none is a keyword or has blanks or brackets to take
off. -/
def Plain (registry : Registry) : Prop :=
  ∀ name ∈ registry.names, Tag.keyword? name = none ∧ splitDimensions32 name = (name, 0)

structure Names (registry : Registry) (name : String) (tag : Tag) : Prop where
  read : Tag.ofName registry.tag? name = tag
  written : registry.baseName tag = name
  alone : splitDimensions name = (name, 0)
  range : tag = .void ∨ 0 < tag.code ∧ tag.code < Tag.listStep

theorem pretty_eq (registry : Registry) (tag : Tag) : registry.pretty tag =
    if tag.isList then bracketed (registry.baseName tag.base) tag.dimensions
    else registry.baseName tag := rfl

section Plain

variable (plain : registry.Plain)

include plain

end Plain

/-- The word `name` with `dims` bracket pairs behind it names a type, the one with `dims` dimensions
above `root`. -/
structure Spells (registry : Registry) (name : String) (dims : Nat) (root : Tag) : Prop where
  word : registry.Names name root
  formed : dims ≠ 0 → root ≠ .void
  fits : root.code + dims * Tag.listStep ≤ Tag.greatest

variable {dims : Nat} {root : Tag}

theorem Spells.pretty (spells : registry.Spells name dims root) :
    registry.pretty ⟨root.code + dims * Tag.listStep⟩ = bracketed name dims := by
  obtain ⟨word, formed, -⟩ := spells
  rcases Nat.eq_zero_or_pos dims with rfl | some
  · have short : (⟨root.code + (0 : Nat) * Tag.listStep⟩ : Tag) = root := by simp
    have noList : ¬ root.isList = true := by
      rw [isList_iff]
      rcases word.range with rfl | range
      · decide
      · exact not_le.mpr range.2
    rw [short, pretty_eq, if_neg noList, word.written, bracketed_zero]
  · obtain ⟨positive, low⟩ := word.range.resolve_left (formed (by omega))
    obtain ⟨base, dimensions⟩ := Tag.base_and_dimensions dims positive.le low
    have isList : (⟨root.code + dims * Tag.listStep⟩ : Tag).isList = true := by
      rw [isList_iff]
      simp only [Tag.listStep]
      omega
    rw [pretty_eq, if_pos isList, base, dimensions, word.written]

theorem Spells.ofBracketed32 (spells : registry.Spells name dims root) :
    Tag.ofBracketed32 registry.tag? (bracketed name dims) = ⟨root.code + dims * Tag.listStep⟩ := by
  obtain ⟨word, formed, fits⟩ := spells
  have split : splitDimensions (bracketed name dims) = (name, dims) := by
    rw [splitDimensions_bracketed, word.alone, Nat.zero_add]
  have few : dims < 2 ^ 31 := by
    rcases word.range with rfl | range
    · simp only [Tag.void, Tag.greatest, Tag.listStep] at fits
      omega
    · simp only [Tag.greatest, Tag.listStep] at fits
      omega
  rw [Tag.ofBracketed32_eq (by rw [split]; exact few), Tag.ofBracketed, split]
  dsimp only
  rw [word.read]
  split
  · rename_i none
    simp [none]
  · rename_i some
    have positive := (word.range.resolve_left (formed some)).1
    rw [Tag.addDimensions, if_neg]
    rw [Bool.or_eq_true, decide_eq_true_eq, decide_eq_true_eq]
    omega

theorem Names.fitsInt32 (word : registry.Names name root) : fitsInt32 root.code = true := by
  rw [fitsInt32_iff]
  rcases word.range with rfl | range
  · decide
  · simp only [Tag.listStep] at range
    omega

section Plain

variable (plain : registry.Plain)

include plain

end Plain

end Registry

end StackCode
