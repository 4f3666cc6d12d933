import StackCode.Number.Shortest
import StackCode.Text.Quoted

namespace StackCode

/-- A JSON value. Objects keep the order of their members. -/
inductive Json where
  | null
  | bool (b : Bool)
  | int (n : Int)
  | float (x : Number.Double)
  | str (text : String)
  | arr (items : List Json)
  | obj (members : List (String × Json))

namespace Json

mutual

def compact : Json → String
  | .null => "null"
  | .bool b => if b then "true" else "false"
  | .int n => toString n
  | .float x => x.write .document
  | .str text => Text.json text
  | .arr items => "[" ++ compactItems items ++ "]"
  | .obj members => "\x7b" ++ compactMembers members ++ "\x7d"

def compactItems : List Json → String
  | [] => ""
  | [item] => item.compact
  | item :: items => item.compact ++ "," ++ compactItems items

def compactMembers : List (String × Json) → String
  | [] => ""
  | [(key, value)] => Text.json key ++ ":" ++ value.compact
  | (key, value) :: members =>
    Text.json key ++ ":" ++ value.compact ++ "," ++ compactMembers members

end

def newline (indent : Nat) : String := "\n" ++ String.ofList (List.replicate (2 * indent) ' ')

mutual

def pretty (indent : Nat) : Json → String
  | .null => "null"
  | .bool b => if b then "true" else "false"
  | .int n => toString n
  | .float x => x.write .document
  | .str text => Text.json text
  | .arr [] => "[]"
  | .arr (item :: items) =>
    "[" ++ newline (indent + 1) ++ item.pretty (indent + 1) ++ prettyItems indent items ++ "]"
  | .obj [] => "\x7b\x7d"
  | .obj ((key, value) :: members) =>
    "\x7b" ++ newline (indent + 1) ++ Text.json key ++ ": " ++ value.pretty (indent + 1) ++
      prettyMembers indent members ++ "\x7d"

def prettyItems (indent : Nat) : List Json → String
  | [] => newline indent
  | item :: items =>
    "," ++ newline (indent + 1) ++ item.pretty (indent + 1) ++ prettyItems indent items

def prettyMembers (indent : Nat) : List (String × Json) → String
  | [] => newline indent
  | (key, value) :: members =>
    "," ++ newline (indent + 1) ++ Text.json key ++ ": " ++ value.pretty (indent + 1) ++
      prettyMembers indent members

end

end Json

end StackCode
