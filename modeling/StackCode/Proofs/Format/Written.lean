import Mathlib
import StackCode.Program.Format

namespace StackCode

namespace Json

mutual

def depth : Json → Nat
  | .arr items => itemsDepth items + 1
  | .obj members => membersDepth members + 1
  | _ => 0

def itemsDepth : List Json → Nat
  | [] => 0
  | item :: items => max item.depth (itemsDepth items)

def membersDepth : List (String × Json) → Nat
  | [] => 0
  | (_, value) :: members => max value.depth (membersDepth members)

end

theorem itemsDepth_values (members : List (String × Json)) :
    itemsDepth (members.map Prod.snd) = membersDepth members := by
  induction members with
  | nil => rfl
  | cons member members ih => rw [List.map_cons, itemsDepth, membersDepth, ih]

def Items.ofList : List Document → Items
  | [] => .done
  | document :: rest => .item document (ofList rest)

def Members.ofList : List (String × Document) → Members
  | [] => .done
  | (key, document) :: rest => .member (.ok key) document (ofList rest)

/-- What a written value is read as: a string, an integer or a float that is met again as what was
written, whatever its text, and the same structure around it. -/
inductive ReadAs : Json → Document → Prop
  | null : ReadAs .null .null
  | bool (b : Bool) : ReadAs (.bool b) (.bool b)
  | int {n : Int} {numeral : Numeral} :
      numeral.quantity = some (.int n) → ReadAs (.int n) (.number numeral)
  | float {x : Number.Double} {numeral : Numeral} :
      numeral.float = some x → ReadAs (.float x) (.number numeral)
  | str (text : String) : ReadAs (.str text) (.string (.ok text))
  | arr {items : List Json} {documents : List Document} :
      List.Forall₂ ReadAs items documents → ReadAs (.arr items) (.array (.ofList documents))
  | obj {members : List (String × Json)} {documents : List Document} :
      List.Forall₂ ReadAs (members.map Prod.snd) documents →
      ReadAs (.obj members) (.object (.ofList ((members.map Prod.fst).zip documents)))

end Json

namespace Schema

variable {κ : Type}

def Leaf.Admits : Leaf → Datum → Prop
  | .int64, .int n => -0x8000000000000000 ≤ n ∧ n ≤ 0x7fffffffffffffff
  | .word32, .int n => 0 ≤ n ∧ n ≤ 0xffffffff
  | .float, .float _ => True
  | .bool, .bool _ => True
  | .char, .char _ => True
  | .text, .text _ => True
  | .unit, .unit => True
  | _, _ => False

/-- The value of a datum without parts. -/
def Datum.scalar : Datum → Json
  | .int n => .int n
  | .float x => .float x
  | .bool b => .bool b
  | .char c => .str (String.singleton c)
  | .text s => .str s
  | _ => .null

theorem Datum.depth_scalar (datum : Datum) : datum.scalar.depth = 0 := by
  cases datum <;> rfl

inductive ItemsWritten (writes : View κ → Datum → Json → Prop) :
    List Datum → List Json → View κ → Prop
  | nil {view : View κ} : ItemsWritten writes [] [] view
  | cons {view : View κ} {item : Datum} {items : List Datum} {value : Json} {values : List Json} :
      writes view item value → ItemsWritten writes items values view →
      ItemsWritten writes (item :: items) (value :: values) view

/-- A field. One that is nullable is `null` when it holds nothing, and not when it holds something. -/
inductive FieldWritten (schema : Schema κ) (writes : View κ → Datum → Json → Prop) :
    Datum → Json → Field κ → Prop
  | absent {field : Field κ} : field.nullable = true →
      FieldWritten schema writes .absent .null field
  | value {field : Field κ} {value : Datum} {json : Json} :
      writes (field.shape.view schema) value json → (field.nullable = true → json ≠ .null) →
      FieldWritten schema writes value json field

inductive FieldsWritten (schema : Schema κ) (writes : View κ → Datum → Json → Prop) :
    List (Field κ) → List Datum → List (String × Json) → Prop
  | nil : FieldsWritten schema writes [] [] []
  | cons {field : Field κ} {fields : List (Field κ)} {value : Datum} {values : List Datum}
      {json : Json} {members : List (String × Json)} : FieldWritten schema writes value json field →
      FieldsWritten schema writes fields values members →
      FieldsWritten schema writes (field :: fields) (value :: values) ((field.name, json) :: members)

/-- The JSON values that a datum may be written as. -/
inductive Written (schema : Schema κ) : View κ → Datum → Json → Prop
  | leaf {leaf : Leaf} {datum : Datum} : leaf.Admits datum →
      Written schema (.leaf leaf) datum datum.scalar
  | list {item : Shape κ} {items : List Datum} {values : List Json} :
      ItemsWritten (Written schema) items values (item.view schema) →
      Written schema (.list item) (.list items) (.arr values)
  | pair {first second : Shape κ} {a b : Datum} {x y : Json} :
      Written schema (first.view schema) a x → Written schema (second.view schema) b y →
      Written schema (.pair first second) (.list [a, b]) (.arr [x, y])
  | object {want : Want} {fields : List (Field κ)} {values : List Datum}
      {members : List (String × Json)} : FieldsWritten schema (Written schema) fields values members →
      Written schema (.record want fields) (.record values) (.obj members)
  | array {want : Want} {fields : List (Field κ)} {values : List Datum}
      {members : List (String × Json)} : FieldsWritten schema (Written schema) fields values members →
      Written schema (.record want fields) (.record values) (.arr (members.map Prod.snd))
  | name {choice name : String} {variants : List (Variant κ)} {variant : Variant κ} :
      variants.find? (·.name == name) = some variant → variant.payload = .unit →
      Written schema (.choice choice variants) (.variant name .unit) (.str name)
  | payload {choice name : String} {variants : List (Variant κ)} {variant : Variant κ}
      {payload : Datum} {json : Json} : variants.find? (·.name == name) = some variant →
      Written schema (variant.payload.view schema choice name) payload json →
      Written schema (.choice choice variants) (.variant name payload) (.obj [(name, json)])

variable {schema : Schema κ}

theorem Written.ne_null {view : View κ} {datum : Datum} {json : Json}
    (written : Written schema view datum json) (valued : view ≠ .leaf .unit) : json ≠ .null := by
  intro null
  cases written with
  | @leaf kind datum admits => cases kind <;> cases datum <;> simp_all [Leaf.Admits, Datum.scalar]
  | _ => cases null

theorem FieldsWritten.names {fields : List (Field κ)} {values : List Datum}
    {members : List (String × Json)} (written : FieldsWritten schema (Written schema) fields values members) :
    members.map Prod.fst = fields.map (·.name) ∧ fields.length = values.length := by
  induction written with
  | nil => exact ⟨rfl, rfl⟩
  | cons _ _ ih => simp [ih]

theorem FieldsWritten.length_eq {fields : List (Field κ)} {values : List Datum}
    {members : List (String × Json)} {documents : List Json.Document}
    (written : FieldsWritten schema (Written schema) fields values members)
    (read : List.Forall₂ Json.ReadAs (members.map Prod.snd) documents) :
    fields.length = documents.length := by
  have count := read.length_eq
  rwa [List.length_map, ← List.length_map Prod.fst, written.names.1, List.length_map] at count

end Schema

end StackCode
