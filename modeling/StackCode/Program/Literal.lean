import StackCode.Number.Shortest
import StackCode.Text.Quoted

namespace StackCode

inductive Literal where
  | int (n : Int64)
  | float (x : Number.Double)
  | double (x : Number.Double)
  | char (c : Char)
  | str (s : String)
  | bool (b : Bool)
  | null
deriving DecidableEq, Repr

namespace Literal

def text : Literal → String
  | .int n => toString n.toInt
  | .float x => x.write .plain ++ "f"
  | .double x => x.write .plain
  | .char c => "'" ++ String.ofList (Text.escapeChar c) ++ "'"
  | .str s => "\"" ++ String.ofList (Text.escape s.toList) ++ "\""
  | .bool b => if b then "true" else "false"
  | .null => "null"

def sameValue : Literal → Literal → Bool
  | .float x, .float y => x.sameValue y
  | .double x, .double y => x.sameValue y
  | a, b => decide (a = b)

end Literal

def fitsInt32 (n : Int) : Bool := -0x80000000 ≤ n && n < 0x80000000

end StackCode
