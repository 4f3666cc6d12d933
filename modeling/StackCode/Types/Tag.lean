import StackCode.Program.Literal

namespace StackCode

structure Tag where
  code : Int
deriving DecidableEq, Repr, Inhabited

namespace Tag

def void : Tag := ⟨-1⟩
def unknown : Tag := ⟨0⟩
def int : Tag := ⟨1⟩
def char : Tag := ⟨2⟩
def bool : Tag := ⟨3⟩
def float : Tag := ⟨4⟩
def string : Tag := ⟨5⟩
def double : Tag := ⟨6⟩

def listStep : Int := 1000

def firstClass : Int := 100

def greatest : Int := 0x7fffffff

def isUnknown (t : Tag) : Bool := t == unknown

def isNumeric (t : Tag) : Bool := t == int || t == float || t == double

def isPrimitive (t : Tag) : Bool := int.code ≤ t.code && t.code ≤ double.code

def isList (t : Tag) : Bool := listStep ≤ t.code

def dimensions (t : Tag) : Nat := (t.code / listStep).toNat

def base (t : Tag) : Tag := if t.code < 0 then t else ⟨t.code % listStep⟩

def element (t : Tag) : Tag := if t.isList then ⟨t.code - listStep⟩ else unknown

def addDimensions (t : Tag) (dims : Nat) : Tag :=
  if t.code ≤ 0 || greatest < t.code + dims * listStep then unknown
  else ⟨t.code + dims * listStep⟩

def listOf (t : Tag) : Tag := t.addDimensions 1

/-- The type of an arithmetic result: double wins over float, and float over int. -/
def promote (a b : Tag) : Option Tag :=
  if !a.isNumeric || !b.isNumeric then none
  else if a == double || b == double then some double
  else if a == float || b == float then some float
  else some int

def text (t : Tag) : String := s!"#{t.code}"

def isWritable (t : Tag) : Bool := t.isPrimitive

def isReadable (t : Tag) : Bool := t == int

def keywords : List (String × Tag) :=
  [("int", int), ("char", char), ("bool", bool), ("float", float), ("string", string),
    ("double", double), ("void", void)]

def keyword? (name : String) : Option Tag := keywords.lookup name

def keywordName? (t : Tag) : Option String := (keywords.find? (·.2 == t)).map (·.1)

end Tag

/-- The type of a literal; `null` has none of its own. -/
def Literal.tag : Literal → Tag
  | .int _ => .int
  | .float _ => .float
  | .double _ => .double
  | .char _ => .char
  | .str _ => .string
  | .bool _ => .bool
  | .null => .unknown

end StackCode
