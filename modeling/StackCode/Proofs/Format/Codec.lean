import StackCode.Proofs.Format.Written

namespace StackCode.Schema

open Json (Document ReadAs itemsDepth membersDepth)

variable {κ : Type} {schema : Schema κ}

/-- A field that may be `null` holds nothing then; or else it holds what its shape reads. -/
def FieldReads (schema : Schema κ) (decode : View κ → Document → Except Fault Datum) (field : Field κ)
    (document : Document) (value : Datum) : Prop :=
  (field.nullable = true ∧ document = .null ∧ value = .absent) ∨
    (field.nullable = true → document ≠ .null) ∧ decode (field.shape.view schema) document = .ok value

def FieldsRead (schema : Schema κ) (decode : View κ → Document → Except Fault Datum) :
    List (Field κ) → List Document → List Datum → Prop
  | [], [], [] => True
  | field :: fields, document :: documents, value :: values =>
    FieldReads schema decode field document value ∧ FieldsRead schema decode fields documents values
  | _, _, _ => False

/-- What is taken of the code behind a format: the value that it writes for a datum, the datum that it
reads from a document with some brackets left to open, and how many these are at first. Each way to write
a datum is read as the datum, if its parts are. -/
structure Codec (schema : Schema κ) where
  encode : View κ → Datum → Json
  decode : (depth : Nat) → View κ → Document → Except Fault Datum
  limit : Nat
  encode_leaf : ∀ {leaf datum}, leaf.Admits datum → encode (.leaf leaf) datum = datum.scalar
  encode_absent : ∀ view, encode view .absent = .null
  encode_list : ∀ item items, encode (.list item) (.list items) =
    .arr (items.map (encode (item.view schema)))
  encode_pair : ∀ first second a b, encode (.pair first second) (.list [a, b]) =
    .arr [encode (first.view schema) a, encode (second.view schema) b]
  encode_record : ∀ want {fields values}, fields.length = values.length →
    encode (.record want fields) (.record values) = .obj (List.zipWith (fun field value =>
      (field.name, encode (field.shape.view schema) value)) fields values)
  encode_name : ∀ choice {variants name variant} payload,
    variants.find? (·.name == name) = some variant → variant.payload = .unit →
    encode (.choice choice variants) (.variant name payload) = .str name
  encode_payload : ∀ choice {variants name variant} payload,
    variants.find? (·.name == name) = some variant → variant.payload ≠ .unit →
    encode (.choice choice variants) (.variant name payload) =
      .obj [(name, encode (variant.payload.view schema choice name) payload)]
  decode_leaf : ∀ depth {leaf datum document}, leaf.Admits datum → datum.scalar.ReadAs document →
    decode depth (.leaf leaf) document = .ok datum
  decode_name : ∀ depth choice {variants name variant},
    variants.find? (·.name == name) = some variant → variant.payload = .unit →
    decode depth (.choice choice variants) (.string (.ok name)) = .ok (.variant name .unit)
  shut_array : ∀ view items datum, decode 0 view (.array items) ≠ .ok datum
  shut_object : ∀ view members datum, decode 0 view (.object members) ≠ .ok datum
  decode_list : ∀ depth item documents datum,
    decode (depth + 1) (.list item) (.array (.ofList documents)) = .ok datum ↔
      ∃ items, List.Forall₂ (fun document item' => decode depth (item.view schema) document = .ok item')
        documents items ∧ datum = .list items
  decode_pair : ∀ depth first second x y datum,
    decode (depth + 1) (.pair first second) (.array (.ofList [x, y])) = .ok datum ↔
      ∃ a b, decode depth (first.view schema) x = .ok a ∧ decode depth (second.view schema) y = .ok b ∧
        datum = .list [a, b]
  decode_array : ∀ depth want {fields documents} datum, fields.length = documents.length →
    (decode (depth + 1) (.record want fields) (.array (.ofList documents)) = .ok datum ↔
      ∃ values, FieldsRead schema (decode depth) fields documents values ∧ datum = .record values)
  decode_object : ∀ depth want {fields documents} datum, fields.length = documents.length →
    (fields.map (·.name)).Nodup →
    (decode (depth + 1) (.record want fields)
        (.object (.ofList ((fields.map (·.name)).zip documents))) = .ok datum ↔
      ∃ values, FieldsRead schema (decode depth) fields documents values ∧ datum = .record values)
  decode_payload : ∀ depth choice {variants name variant} document datum,
    variants.find? (·.name == name) = some variant →
    (decode (depth + 1) (.choice choice variants) (.object (.ofList [(name, document)])) = .ok datum ↔
      ∃ payload, decode depth (variant.payload.view schema choice name) document = .ok payload ∧
        datum = .variant name payload)

def Payload.Distinct : Payload κ → Prop
  | .fields list => (list.map (·.name)).Nodup
  | _ => True

def View.Distinct : View κ → Prop
  | .record _ fields => (fields.map (·.name)).Nodup
  | .choice _ variants => ∀ variant ∈ variants, variant.payload.Distinct
  | _ => True

theorem View.Distinct.payload (named : ∀ shape : Shape κ, (shape.view schema).Distinct)
    {choice name : String} {variants : List (Variant κ)} {variant : Variant κ}
    (distinct : (View.choice choice variants).Distinct)
    (found : variants.find? (·.name == name) = some variant) :
    (variant.payload.view schema choice name).Distinct := by
  have known := distinct variant (List.mem_of_find?_eq_some found)
  cases kind : variant.payload with
  | unit => exact trivial
  | value shape => exact named shape
  | fields list =>
    rw [kind] at known
    exact known

section Reading

variable {codec : Codec schema} {depth : Nat} (named : ∀ shape : Shape κ, (shape.view schema).Distinct)
  (ih : ∀ {view : View κ} {datum other : Datum} {json : Json} {document : Document}, view.Distinct →
    Written schema view datum json → json.ReadAs document →
    (codec.decode depth view document = .ok other ↔ json.depth ≤ depth ∧ other = datum))

include ih

theorem ItemsWritten.decode_iff {view : View κ} {items : List Datum} {values : List Json}
    (written : ItemsWritten (Written schema) items values view) (distinct : view.Distinct) :
    ∀ {documents : List Document} {others : List Datum}, List.Forall₂ ReadAs values documents →
      (List.Forall₂ (fun document datum => codec.decode depth view document = .ok datum)
        documents others ↔ itemsDepth values ≤ depth ∧ others = items) := by
  induction written with
  | nil =>
    intro documents others read
    cases read
    simp [itemsDepth]
  | cons head _ rest =>
    intro documents others read
    cases read with
    | cons first read =>
      simp only [List.forall₂_cons_left_iff, ih distinct head first, rest distinct read, itemsDepth,
        max_le_iff]
      constructor
      · rintro ⟨_, _, ⟨low, rfl⟩, ⟨below, rfl⟩, rfl⟩
        exact ⟨⟨low, below⟩, rfl⟩
      · rintro ⟨⟨low, below⟩, rfl⟩
        exact ⟨_, _, ⟨low, rfl⟩, ⟨below, rfl⟩, rfl⟩

include named

theorem FieldWritten.reads_iff {value other : Datum} {json : Json} {field : Field κ} {document : Document}
    (written : FieldWritten schema (Written schema) value json field) (read : json.ReadAs document) :
    FieldReads schema (codec.decode depth) field document other ↔ json.depth ≤ depth ∧ other = value := by
  cases written with
  | absent nullable =>
    cases read
    simp [FieldReads, nullable, Json.depth]
  | value written valued =>
    have present : field.nullable = true → document ≠ .null := by
      rintro nullable rfl
      cases read
      exact valued nullable rfl
    rw [← ih (named field.shape) written read, FieldReads, and_iff_right present]
    exact or_iff_right fun ⟨nullable, null, _⟩ => present nullable null

theorem FieldsWritten.reads_iff {fields : List (Field κ)} {values : List Datum}
    {members : List (String × Json)} (written : FieldsWritten schema (Written schema) fields values members) :
    ∀ {documents : List Document} {others : List Datum},
      List.Forall₂ ReadAs (members.map Prod.snd) documents →
      (FieldsRead schema (codec.decode depth) fields documents others ↔
        membersDepth members ≤ depth ∧ others = values) := by
  induction written with
  | nil =>
    intro documents others read
    cases read
    cases others <;> simp [FieldsRead, membersDepth]
  | cons head _ rest =>
    intro documents others read
    cases read with
    | cons first read =>
      cases others with
      | nil => simp [FieldsRead]
      | cons other others =>
        rw [FieldsRead, membersDepth, max_le_iff, head.reads_iff named ih first, rest read,
          List.cons.injEq, and_and_and_comm]

end Reading

/-- What is written for a datum is read if its brackets are not too deep, and as that datum only. -/
theorem Codec.decode_iff (codec : Codec schema) (named : ∀ shape : Shape κ, (shape.view schema).Distinct)
    {depth : Nat} {view : View κ} {datum other : Datum} {json : Json} {document : Document}
    (distinct : view.Distinct) (written : Written schema view datum json) (read : json.ReadAs document) :
    codec.decode depth view document = .ok other ↔ json.depth ≤ depth ∧ other = datum := by
  have leaf (depth : Nat) {leaf : Leaf} {datum other : Datum} {document : Document}
      (admits : leaf.Admits datum) (read : datum.scalar.ReadAs document) :
      codec.decode depth (.leaf leaf) document = .ok other ↔
        datum.scalar.depth ≤ depth ∧ other = datum := by
    rw [codec.decode_leaf depth admits read, datum.depth_scalar]
    simp [eq_comm]
  -- Each bracket takes one from what is left of the depth.
  induction depth generalizing view datum other json document with
  | zero =>
    cases written with
    | leaf admits => exact leaf 0 admits read
    | name found bare =>
      cases read
      rw [codec.decode_name 0 _ found bare]
      simp [Json.depth, eq_comm]
    | list | pair | array =>
      cases read
      exact iff_of_false (codec.shut_array _ _ _) fun low => Nat.not_succ_le_zero _ low.1
    | object | payload =>
      cases read
      exact iff_of_false (codec.shut_object _ _ _) fun low => Nat.not_succ_le_zero _ low.1
  | succ depth ih =>
    cases written with
    | leaf admits => exact leaf _ admits read
    | name found bare =>
      cases read
      rw [codec.decode_name _ _ found bare]
      simp [Json.depth, eq_comm]
    | list items =>
      cases read with
      | arr read =>
        simp only [codec.decode_list, items.decode_iff ih (named _) read, Json.depth,
          Nat.add_le_add_iff_right, and_assoc, exists_and_left, exists_eq_left]
    | pair left right =>
      cases read with
      | arr read =>
        obtain ⟨_, _, one, more, rfl⟩ := List.forall₂_cons_left_iff.mp read
        obtain ⟨_, _, two, none, rfl⟩ := List.forall₂_cons_left_iff.mp more
        cases none
        simp only [codec.decode_pair, ih (named _) left one, ih (named _) right two, Json.depth,
          itemsDepth, Nat.max_zero, Nat.add_le_add_iff_right, max_le_iff]
        constructor
        · rintro ⟨_, _, ⟨low, rfl⟩, ⟨below, rfl⟩, rfl⟩
          exact ⟨⟨low, below⟩, rfl⟩
        · rintro ⟨⟨low, below⟩, rfl⟩
          exact ⟨_, _, ⟨low, rfl⟩, ⟨below, rfl⟩, rfl⟩
    | array fields =>
      cases read with
      | arr read =>
        have count := fields.length_eq read
        simp only [codec.decode_array _ _ _ count, fields.reads_iff named ih read, Json.depth,
          Json.itemsDepth_values, Nat.add_le_add_iff_right, and_assoc, exists_and_left, exists_eq_left]
    | object fields =>
      cases read with
      | obj read =>
        have count := fields.length_eq read
        simp only [fields.names.1, codec.decode_object _ _ _ count distinct,
          fields.reads_iff named ih read, Json.depth, Nat.add_le_add_iff_right, and_assoc,
          exists_and_left, exists_eq_left]
    | payload found held =>
      cases read with
      | obj read =>
        obtain ⟨_, _, first, none, rfl⟩ := List.forall₂_cons_left_iff.mp read
        cases none
        change codec.decode (depth + 1) _ (.object (.ofList [(_, _)])) = _ ↔ _
        simp only [codec.decode_payload _ _ _ _ found, ih (distinct.payload named found) held first,
          Json.depth, membersDepth, Nat.max_zero, Nat.add_le_add_iff_right, and_assoc, exists_and_left,
          exists_eq_left]

section Encoding

variable {codec : Codec schema}

def Codec.Encodes (codec : Codec schema) (view : View κ) (datum : Datum) : Prop :=
  Written schema view datum (codec.encode view datum)

def Codec.FieldsEncode (codec : Codec schema) (fields : List (Field κ)) (values : List Datum) : Prop :=
  FieldsWritten schema (Written schema) fields values (List.zipWith (fun field value =>
    (field.name, codec.encode (field.shape.view schema) value)) fields values)

namespace Codec

theorem encodes_leaf {leaf : Leaf} {datum : Datum} (admits : leaf.Admits datum) :
    codec.Encodes (.leaf leaf) datum := by
  rw [Encodes, codec.encode_leaf admits]
  exact .leaf admits

theorem itemsWritten {view : View κ} {items : List Datum}
    (each : ∀ item ∈ items, codec.Encodes view item) :
    ItemsWritten (Written schema) items (items.map (codec.encode view)) view := by
  induction items with
  | nil => exact .nil
  | cons item items ih =>
    exact .cons (each item List.mem_cons_self)
      (ih fun other member => each other (List.mem_cons_of_mem _ member))

theorem encodes_list {item : Shape κ} {items : List Datum}
    (each : ∀ datum ∈ items, codec.Encodes (item.view schema) datum) :
    codec.Encodes (.list item) (.list items) := by
  rw [Encodes, codec.encode_list]
  exact .list (itemsWritten each)

theorem encodes_pair {first second : Shape κ} {a b : Datum}
    (left : codec.Encodes (first.view schema) a) (right : codec.Encodes (second.view schema) b) :
    codec.Encodes (.pair first second) (.list [a, b]) := by
  rw [Encodes, codec.encode_pair]
  exact .pair left right

theorem encodes_record {want : Want} {fields : List (Field κ)} {values : List Datum}
    (each : codec.FieldsEncode fields values) : codec.Encodes (.record want fields) (.record values) := by
  rw [Encodes, codec.encode_record want each.names.2]
  exact .object each

theorem encodes_variant {choice name : String} {variants : List (Variant κ)} {variant : Variant κ}
    {payload : Datum} (found : variants.find? (·.name == name) = some variant)
    (held : codec.Encodes (variant.payload.view schema choice name) payload) :
    codec.Encodes (.choice choice variants) (.variant name payload) := by
  by_cases bare : variant.payload = .unit
  · rw [Encodes, codec.encode_name _ _ found bare]
    rw [bare, Encodes] at held
    generalize codec.encode _ payload = json at held
    cases held with
    | leaf admits =>
      cases payload with
      | unit => exact .name found bare
      | _ => exact admits.elim
  · rw [Encodes, codec.encode_payload _ _ found bare]
    exact .payload found held

namespace FieldsEncode

theorem nil : codec.FieldsEncode [] [] := FieldsWritten.nil

theorem value {field : Field κ} {fields : List (Field κ)} {value : Datum}
    {values : List Datum} (held : codec.Encodes (field.shape.view schema) value)
    (others : codec.FieldsEncode fields values)
    (valued : field.nullable = true → field.shape.view schema ≠ .leaf .unit := by nofun) :
    codec.FieldsEncode (field :: fields) (value :: values) :=
  .cons (.value held fun nullable => held.ne_null (valued nullable)) others

theorem absent {field : Field κ} {fields : List (Field κ)} {values : List Datum}
    (nullable : field.nullable = true) (others : codec.FieldsEncode fields values) :
    codec.FieldsEncode (field :: fields) (.absent :: values) := by
  rw [FieldsEncode, List.zipWith_cons_cons, codec.encode_absent]
  exact .cons (.absent nullable) others

theorem option {α : Type} {toDatum : α → Datum} {content : Option α} {field : Field κ}
    {fields : List (Field κ)} {values : List Datum} (nullable : field.nullable = true)
    (valued : field.shape.view schema ≠ .leaf .unit)
    (held : ∀ a, content = some a → codec.Encodes (field.shape.view schema) (toDatum a))
    (others : codec.FieldsEncode fields values) :
    codec.FieldsEncode (field :: fields) (optionDatum toDatum content :: values) := by
  cases content with
  | none => exact .absent nullable others
  | some a => exact .value (held a rfl) others fun _ => valued

end FieldsEncode

end Codec

end Encoding

end StackCode.Schema
