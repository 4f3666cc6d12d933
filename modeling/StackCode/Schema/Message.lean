import StackCode.Schema.Basic
import StackCode.Text.Quoted

namespace StackCode.Schema

def ticked (text : String) : String := "`" ++ text ++ "`"

def Found.describe : Found → String
  | .null => "null"
  | .bool b => "boolean " ++ ticked (if b then "true" else "false")
  | .int n => "integer " ++ ticked (toString n)
  | .float x => "floating point " ++ ticked (x.write .document)
  | .text s => "string " ++ Text.quote s
  | .sequence => "sequence"
  | .map => "map"
  | .unitVariant => "unit variant"

def oneOf : List String → String
  | [a] => ticked a
  | [a, b] => ticked a ++ " or " ++ ticked b
  | names => "one of " ++ ", ".intercalate (names.map ticked)

def Mistake.message : Mistake → String
  | .missing field => "missing field " ++ ticked field
  | .duplicate field => "duplicate field " ++ ticked field
  | .length found want size => s!"invalid length {found}, expected " ++ want.sized size
  | .variant found known => "unknown variant " ++ ticked found ++ ", expected " ++ oneOf known
  | .type found want => "invalid type: " ++ found.describe ++ ", expected " ++ want.describe
  | .value found want => "invalid value: " ++ found.describe ++ ", expected " ++ want.describe

end StackCode.Schema
