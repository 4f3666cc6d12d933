import StackCode.Json.Basic
import StackCode.Schema.Decode

namespace StackCode.Schema

variable {κ : Type}

mutual

/-- The JSON value of a datum: records are objects with all their fields as declared, a variant
without payload is its name. -/
def encode (schema : Schema κ) : View κ → Datum → Json
  | _, .int n => .int n
  | _, .float x => .float x
  | _, .bool b => .bool b
  | _, .char c => .str (String.singleton c)
  | _, .text s => .str s
  | _, .unit => .null
  | _, .absent => .null
  | .list item, .list items => .arr (encodeItems schema (item.view schema) items)
  | .pair first second, .list [a, b] =>
    .arr [encode schema (first.view schema) a, encode schema (second.view schema) b]
  | .record _ fields, .record values => .obj (encodeFields schema fields values)
  | .choice choice variants, .variant name payload =>
    match variants.find? (·.name == name) with
    | some ⟨_, .unit⟩ => .str name
    | some ⟨_, kind⟩ => .obj [(name, encode schema (kind.view schema choice name) payload)]
    | none => .null
  | _, .list _ => .null
  | _, .record _ => .null
  | _, .variant _ _ => .null

def encodeItems (schema : Schema κ) (view : View κ) : List Datum → List Json
  | [] => []
  | item :: items => encode schema view item :: encodeItems schema view items

def encodeFields (schema : Schema κ) : List (Field κ) → List Datum → List (String × Json)
  | field :: fields, value :: values =>
    (field.name, encode schema (field.shape.view schema) value) ::
      encodeFields schema fields values
  | _, _ => []

end

end StackCode.Schema
