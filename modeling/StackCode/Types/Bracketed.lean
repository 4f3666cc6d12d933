import StackCode.Text.Blank
import StackCode.Types.Tag

namespace StackCode

/-- Drops blanks and bracket pairs from the end of a text, given backwards, and counts the
pairs. -/
def stripPairs : List Char → List Char × Nat
  | [] => ([], 0)
  | ']' :: '[' :: rest =>
    let (name, dims) := stripPairs rest
    (name, dims + 1)
  | c :: rest => if Text.isBlank c then stripPairs rest else (c :: rest, 0)

/-- A type name as written, apart from the bracket pairs behind it, and their number. -/
def splitDimensions (text : String) : String × Nat :=
  let (name, dims) := stripPairs text.toList.reverse
  (String.ofList (Text.trimStart name.reverse), dims)

/-- The same with the pairs counted in 32 bits, where the count may run over. -/
def stripPairs32 : List Char → List Char × Int32
  | [] => ([], 0)
  | ']' :: '[' :: rest =>
    let (name, dims) := stripPairs32 rest
    (name, dims + 1)
  | c :: rest => if Text.isBlank c then stripPairs32 rest else (c :: rest, 0)

def splitDimensions32 (text : String) : String × Int32 :=
  let (name, dims) := stripPairs32 text.toList.reverse
  (String.ofList (Text.trimStart name.reverse), dims)

namespace Tag

def ofName (classes : String → Option Tag) (name : String) : Tag :=
  ((keyword? name).or (classes name)).getD unknown

def ofBracketed (classes : String → Option Tag) (text : String) : Tag :=
  let (name, dims) := splitDimensions text
  let base := ofName classes name
  if dims = 0 then base else base.addDimensions dims

def addDimensions32 (t : Tag) (dims : Int32) : Tag :=
  let offset := dims.toInt * listStep
  if t.code ≤ 0 || !fitsInt32 offset || !fitsInt32 (t.code + offset) then unknown
  else ⟨t.code + offset⟩

/-- The type of a text by the count of its pairs in 32 bits. -/
def ofBracketed32 (classes : String → Option Tag) (text : String) : Tag :=
  let (name, dims) := splitDimensions32 text
  let base := ofName classes name
  if dims = 0 then base else base.addDimensions32 dims

end Tag

end StackCode
