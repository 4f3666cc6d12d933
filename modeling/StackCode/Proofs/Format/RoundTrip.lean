import StackCode.Proofs.Format.Data
import StackCode.Proofs.Format.Decoding
import StackCode.Proofs.Format.Numerals

namespace StackCode

namespace Json

mutual

def document : Json → Document
  | .null => .null
  | .bool b => .bool b
  | .int n => .number (intNumeral n)
  | .float x => .number (floatNumeral x)
  | .str text => .string (.ok text)
  | .arr items => .array (.ofList (itemDocuments items))
  | .obj members => .object (.ofList ((members.map Prod.fst).zip (memberDocuments members)))

def itemDocuments : List Json → List Document
  | [] => []
  | item :: items => item.document :: itemDocuments items

def memberDocuments : List (String × Json) → List Document
  | [] => []
  | (_, value) :: members => value.document :: memberDocuments members

end

end Json

namespace Schema

open Json (ReadAs itemDocuments memberDocuments)

variable {κ : Type} {schema : Schema κ}

def Stands (schema : Schema κ) (json : Json) : Prop :=
  json = .null ∨ ∃ view datum, Written schema view datum json

theorem ItemsWritten.stands {view : View κ} {items : List Datum} {values : List Json}
    (written : ItemsWritten (Written schema) items values view) : ∀ value ∈ values, Stands schema value := by
  induction written with
  | nil => exact List.forall_mem_nil _
  | cons head _ ih => exact List.forall_mem_cons.mpr ⟨.inr ⟨_, _, head⟩, ih⟩

theorem FieldsWritten.stands {fields : List (Field κ)} {values : List Datum} {members : List (String × Json)}
    (written : FieldsWritten schema (Written schema) fields values members) :
    ∀ member ∈ members, Stands schema member.2 := by
  induction written with
  | nil => exact List.forall_mem_nil _
  | cons head _ ih =>
    refine List.forall_mem_cons.mpr ⟨?_, ih⟩
    cases head with
    | absent => exact .inl rfl
    | value written => exact .inr ⟨_, _, written⟩

theorem Stands.items {items : List Json} (stands : Stands schema (.arr items)) :
    ∀ item ∈ items, Stands schema item := by
  obtain null | ⟨view, datum, written⟩ := stands
  · cases null
  · generalize same : Json.arr items = json at written
    cases written with
    | @leaf kind datum admits => cases kind <;> cases datum <;> simp_all [Datum.scalar]
    | list written =>
      cases same
      exact written.stands
    | pair left right =>
      cases same
      exact List.forall_mem_cons.mpr ⟨.inr ⟨_, _, left⟩, List.forall_mem_singleton.mpr (.inr ⟨_, _, right⟩)⟩
    | array fields =>
      cases same
      exact List.forall_mem_map.mpr fields.stands
    | object | name | payload => cases same

theorem Stands.members {members : List (String × Json)} (stands : Stands schema (.obj members)) :
    ∀ member ∈ members, Stands schema member.2 := by
  obtain null | ⟨view, datum, written⟩ := stands
  · cases null
  · generalize same : Json.obj members = json at written
    cases written with
    | @leaf kind datum admits => cases kind <;> cases datum <;> simp_all [Datum.scalar]
    | object fields =>
      cases same
      exact fields.stands
    | payload found held =>
      cases same
      exact List.forall_mem_singleton.mpr (.inr ⟨_, _, held⟩)
    | list | pair | array | name => cases same

theorem Stands.int {n : Int} (stands : Stands schema (.int n)) :
    -0x8000000000000000 ≤ n ∧ n ≤ 0xffffffffffffffff := by
  obtain null | ⟨view, datum, written⟩ := stands
  · cases null
  · generalize same : Json.int n = json at written
    cases written with
    | @leaf kind datum admits =>
      cases kind <;> cases datum <;> simp_all [Datum.scalar, Leaf.Admits]
      all_goals omega
    | _ => cases same

mutual

theorem readAs_document : ∀ json : Json, Stands schema json → json.ReadAs json.document
  | .null, _ => .null
  | .bool b, _ => .bool b
  | .int _, stands => .int (Json.quantity_intNumeral stands.int.1 stands.int.2)
  | .float x, _ => .float (Json.float_floatNumeral x)
  | .str text, _ => .str text
  | .arr items, stands => .arr (readAs_itemDocuments items stands.items)
  | .obj members, stands => .obj (readAs_memberDocuments members stands.members)

theorem readAs_itemDocuments : ∀ items : List Json, (∀ item ∈ items, Stands schema item) →
    List.Forall₂ ReadAs items (itemDocuments items)
  | [], _ => .nil
  | item :: items, each =>
    .cons (readAs_document item (each item List.mem_cons_self))
      (readAs_itemDocuments items fun other member => each other (List.mem_cons_of_mem _ member))

theorem readAs_memberDocuments : ∀ members : List (String × Json),
    (∀ member ∈ members, Stands schema member.2) →
      List.Forall₂ ReadAs (members.map Prod.snd) (memberDocuments members)
  | [], _ => .nil
  | (key, value) :: members, each =>
    .cons (readAs_document value (each (key, value) List.mem_cons_self))
      (readAs_memberDocuments members fun other member => each other (List.mem_cons_of_mem _ member))

end

end Schema

namespace Program

open Schema (Written Shape View Codec)

def WrittenAs (program : Program) (json : Json) : Prop :=
  Written schema (Shape.view schema (.named .program)) program.toDatum json

theorem schema_distinct (shape : Shape Kind) : (shape.view schema).Distinct := by
  cases shape with
  | leaf kind => trivial
  | list item => trivial
  | pair first second => trivial
  | named kind =>
    cases kind <;>
      simp [Shape.view, schema, View.Distinct, Schema.Payload.Distinct, Kind.stmtVariants,
        Kind.factorVariants, Kind.literalVariants, Kind.required, Kind.optional, Kind.listOf,
        Kind.requiredList, Kind.spanField, Kind.idField, Kind.nameField, Kind.unitVariant,
        Kind.valueVariant, Kind.fieldsVariant]

/-- What some code writes for a program. -/
def writtenBy (program : Program) (codec : Codec schema) : Json :=
  codec.encode (Shape.view schema (.named .program)) program.toDatum

/-- The program that some code reads from a document. -/
def readBy (codec : Codec schema) (document : Json.Document) : Except Schema.Fault Program :=
  codec.decode codec.limit (Shape.view schema (.named .program)) document >>= ofChecked Program.ofDatum?

theorem readBy_codec (document : Json.Document) :
    readBy (Schema.codec schema) document = Program.ofDocument document := rfl

variable {program : Program} {json : Json} {document : Json.Document}

theorem WrittenAs.readBy_iff (written : program.WrittenAs json) (codec : Codec schema)
    (read : json.ReadAs document) : readBy codec document = .ok program ↔ json.depth ≤ codec.limit := by
  have reads (datum : Schema.Datum) :
      codec.decode codec.limit (Shape.view schema (.named .program)) document = .ok datum ↔
        json.depth ≤ codec.limit ∧ datum = program.toDatum :=
    codec.decode_iff schema_distinct (schema_distinct (.named .program)) written read
  have next (datum : Schema.Datum) (f : Schema.Datum → Except Schema.Fault Program) :
      Except.ok datum >>= f = f datum := rfl
  rw [readBy]
  cases decoded : codec.decode codec.limit (Shape.view schema (.named .program)) document with
  | error fault =>
    refine iff_of_false nofun fun low => ?_
    rw [(reads _).mpr ⟨low, rfl⟩] at decoded
    cases decoded
  | ok datum =>
    obtain ⟨low, rfl⟩ := (reads datum).mp decoded
    refine iff_of_true ?_ low
    rw [next, ofChecked, program.ofDatum?_toDatum]

/-- A program is read again as itself from every way to write it, and from what is written for a
program that was read, exactly if the brackets are not too deep; and there is something to read. -/
theorem decoding_undoes_encoding (codec : Codec schema) (program : Program) :
    program.WrittenAs (program.writtenBy codec) ∧
    (∀ json, program.WrittenAs json → json.ReadAs json.document ∧ ∀ document, json.ReadAs document →
      (readBy codec document = .ok program ↔ json.depth ≤ codec.limit)) ∧
    ∀ first, readBy codec first = .ok program → (program.writtenBy codec).depth ≤ codec.limit →
      ∀ again, (program.writtenBy codec).ReadAs again → readBy codec again = .ok program := by
  have own : program.WrittenAs (program.writtenBy codec) := program.encodes
  refine ⟨own, fun json written => ⟨?_, fun document => written.readBy_iff codec⟩, ?_⟩
  · exact Schema.readAs_document json (.inr ⟨_, _, written⟩)
  · intro first _ low again read
    exact (own.readBy_iff codec read).mpr low

end Program

namespace Sample

open Json (Document)

def single (key : String) (value : Document) : Document := .object (.member (.ok key) value .done)

def bareName (name : String) : Document := single "name" (.string (.ok name))

def bareValue (kind : Document) : Document := single "head" (single "head" (single "kind" kind))

def parens : Nat → Document
  | 0 => bareValue (single "Designator" (single "base" (bareName "x")))
  | n + 1 => bareValue (single "Paren" (parens n))

def nested (n : Nat) : Document :=
  let result := single "Stmt" (single "Return" (single "value" (parens n)))
  let body := single "items" (.array (.item result .done))
  .object (.member (.ok "name") (bareName "P") (.member (.ok "items") (.array (.item (single "Method"
    (.object (.member (.ok "name") (bareName "Main") (.member (.ok "body") body .done)))) .done)) .done))

def depthAgain (read : Except Schema.Fault Program) : Nat :=
  match read with
  | .ok program => program.toJson.depth
  | .error _ => 0

end Sample

theorem Sample.exists_of_depthAgain {read : Except Schema.Fault Program} {depth : Nat}
    (known : Sample.depthAgain read = depth + 1) :
    ∃ program, read = .ok program ∧ program.toJson.depth = depth + 1 := by
  cases read with
  | ok program => exact ⟨program, rfl, known⟩
  | error fault => cases known

/-- A program that is read, but not from what is written for it. -/
theorem nested_not_read_again : ∃ first program, Program.ofDocument first = .ok program ∧
    program.toJson.ReadAs program.toJson.document ∧
    Program.ofDocument program.toJson.document ≠ .ok program := by
  have depth : Sample.depthAgain (Program.ofDocument (Sample.nested 28)) = 127 + 1 := by decide +kernel
  obtain ⟨program, decoded, deep⟩ := Sample.exists_of_depthAgain depth
  have written : program.WrittenAs program.toJson := @Program.encodes (Schema.codec Program.schema) program
  have read := Schema.readAs_document program.toJson (.inr ⟨_, _, written⟩)
  refine ⟨Sample.nested 28, program, decoded, read, fun again => ?_⟩
  have low := (written.readBy_iff (Schema.codec Program.schema) read).mp again
  rw [deep] at low
  exact absurd low (by decide)

theorem nested_read_again : ∃ first program, Program.ofDocument first = .ok program ∧
    program.toJson.depth = 124 ∧ Program.ofDocument program.toJson.document = .ok program := by
  have depth : Sample.depthAgain (Program.ofDocument (Sample.nested 27)) = 123 + 1 := by decide +kernel
  obtain ⟨program, decoded, deep⟩ := Sample.exists_of_depthAgain depth
  obtain ⟨written, ways, again⟩ :=
    Program.decoding_undoes_encoding (Schema.codec Program.schema) program
  refine ⟨Sample.nested 27, program, decoded, deep, ?_⟩
  rw [← Program.readBy_codec] at decoded ⊢
  exact again _ decoded (deep.le.trans (by decide)) _ (ways _ written).1

end StackCode
