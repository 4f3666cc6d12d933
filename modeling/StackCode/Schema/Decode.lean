import StackCode.Schema.Basic

namespace StackCode.Schema

open Json (Document Items Members)

variable {κ : Type}

inductive View (κ : Type) where
  | leaf (leaf : Leaf)
  | list (item : Shape κ)
  | pair (first second : Shape κ)
  | record (want : Want) (fields : List (Field κ))
  | choice (name : String) (variants : List (Variant κ))

def Shape.view (schema : Schema κ) : Shape κ → View κ
  | .leaf kind => .leaf kind
  | .list item => .list item
  | .pair first second => .pair first second
  | .named name =>
    match schema name with
    | .record name fields => .record (.record name) fields
    | .choice name variants => .choice name variants

def malformed : Fault := .flaw .malformed

def found : Document → Except Json.Flaw Found
  | .null => .ok .null
  | .bool b => .ok (.bool b)
  | .number n =>
    match n.quantity with
    | some (.int n) => .ok (.int n)
    | some (.float x) => .ok (.float x)
    | none => .error .malformed
  | .string (.ok text) => .ok (.text text)
  | .string (.error flaw) => .error flaw
  | .array _ => .ok .sequence
  | .object _ => .ok .map
  | .broken what => .error what.reading

def mistaken (want : Want) (document : Document) : Fault :=
  match found document with
  | .ok found => .mistake (.type found want)
  | .error flaw => .flaw flaw

def decodeInt (leaf : Leaf) (least most : Int) (n : Json.Numeral) : Except Fault Datum :=
  match n.quantity with
  | some (.int i) =>
    if least ≤ i ∧ i ≤ most then .ok (.int i)
    else .error (.mistake (.value (.int i) (.leaf leaf)))
  | some (.float x) => .error (.mistake (.type (.float x) (.leaf leaf)))
  | none => .error malformed

def decodeChar (text : String) : Except Fault Datum :=
  match text.toList with
  | [c] => .ok (.char c)
  | _ => .error (.mistake (.value (.text text) (.leaf .char)))

def decodeLeaf : Leaf → Document → Except Fault Datum
  | .int64, .number n => decodeInt .int64 (-0x8000000000000000) 0x7fffffffffffffff n
  | .word32, .number n => decodeInt .word32 0 0xffffffff n
  | .float, .number n =>
    match n.float with
    | some x => .ok (.float x)
    | none => .error malformed
  | .bool, .bool b => .ok (.bool b)
  | .char, .string (.ok text) => decodeChar text
  | .text, .string (.ok text) => .ok (.text text)
  | .unit, .null => .ok .unit
  | leaf, document => .error (mistaken (.leaf leaf) document)

def decodeAbsent (want : Want) (size : Nat) : (position : Nat) → List (Field κ) →
    Except Fault (List Datum)
  | _, [] => .ok []
  | position, field :: fields =>
    match field.fallback with
    | some value => return value :: (← decodeAbsent want size (position + 1) fields)
    | none => .error (.mistake (.length position want size))

def assemble (found : List (String × Datum)) : List (Field κ) → Except Fault (List Datum)
  | [] => .ok []
  | field :: fields =>
    match (found.lookup field.name).or field.fallback with
    | some value => return value :: (← assemble found fields)
    | none => .error (.mistake (.missing field.name))

def decodeName (variants : List (Variant κ)) (name : String) : Except Fault Datum :=
  match variants.find? (·.name == name) with
  | none => .error (.mistake (.variant name (variants.map (·.name))))
  | some ⟨_, .unit⟩ => .ok (.variant name .unit)
  | some ⟨_, .value _⟩ => .error (.mistake (.type .unitVariant .valuePayload))
  | some ⟨_, .fields _⟩ => .error (.mistake (.type .unitVariant .fieldsPayload))

def decodeFlat : View κ → Document → Except Fault Datum
  | .leaf leaf, document => decodeLeaf leaf document
  | .choice _ variants, .string (.ok name) => decodeName variants name
  | .choice _ _, .string (.error flaw) => .error (.flaw flaw)
  | .choice _ _, .broken what => .error (.flaw what.choosing)
  | .choice _ _, _ => .error malformed
  | .list _, document => .error (mistaken .sequence document)
  | .pair _ _, document => .error (mistaken .pair document)
  | .record want _, document => .error (mistaken want document)

def Payload.view (schema : Schema κ) (choice name : String) : Payload κ → View κ
  | .unit => .leaf .unit
  | .value shape => shape.view schema
  | .fields list => .record (.variant choice name) list

/-- What a nullable field gives for a document that starts as `null` does. -/
def decodeNull : Document → Option (Except Fault Datum)
  | .null => some (.ok .absent)
  | .broken (.null flaw) => some (.error (.flaw flaw))
  | _ => none

def closeChoice : Members → Except Fault Unit
  | .done => .ok ()
  | .cut flaw => .error (.flaw flaw)
  | .stray _ | .member .. => .error malformed

mutual

/-- The datum of a document. `depth` is how many brackets may still be opened. -/
def decode (schema : Schema κ) : (depth : Nat) → View κ → Document → Except Fault Datum
  | depth, view, .array items =>
    match depth, view with
    | depth + 1, .list item => return .list (← decodeItems schema depth (item.view schema) items)
    | depth + 1, .pair first second =>
      return .list (← decodeFields schema depth .pair 2 0 [⟨"", first, false, none⟩,
        ⟨"", second, false, none⟩] items)
    | depth + 1, .record want fields =>
      return .record (← decodeFields schema depth want fields.length 0 fields items)
    | 0, .list _ | 0, .pair _ _ | 0, .record _ _ => .error malformed
    | _, view => decodeFlat view (.array items)
  | depth, view, .object members =>
    match depth, view with
    | depth + 1, .record _ fields => do
      return .record (← assemble (← decodeMembers schema depth fields [] members) fields)
    | depth + 1, .choice name variants => decodeChoice schema depth name variants members
    | 0, .record _ _ | 0, .choice _ _ => .error malformed
    | _, view => decodeFlat view (.object members)
  | _, view, document => decodeFlat view document

def decodeItems (schema : Schema κ) (depth : Nat) (view : View κ) :
    Items → Except Fault (List Datum)
  | .done => .ok []
  | .cut flaw => .error (.flaw flaw)
  | .item value rest => do
    let first ← decode schema depth view value
    return first :: (← decodeItems schema depth view rest)

def decodeFields (schema : Schema κ) (depth : Nat) (want : Want) (size : Nat) :
    (position : Nat) → List (Field κ) → Items → Except Fault (List Datum)
  | position, fields, .done => decodeAbsent want size position fields
  | _, _, .cut flaw => .error (.flaw flaw)
  | _, [], .item _ _ => .error malformed
  | position, field :: fields, .item value rest => do
    let first ←
      match field.nullable, decodeNull value with
      | true, some result => result
      | _, _ => decode schema depth (field.shape.view schema) value
    return first :: (← decodeFields schema depth want size (position + 1) fields rest)

def decodeMembers (schema : Schema κ) (depth : Nat) (fields : List (Field κ)) :
    List (String × Datum) → Members → Except Fault (List (String × Datum))
  | found, .done => .ok found
  | _, .cut flaw => .error (.flaw flaw)
  | _, .stray document => .error (.flaw document.keyReading)
  | _, .member (.error flaw) _ _ => .error (.flaw flaw)
  | found, .member (.ok key) value rest =>
    match fields.find? (·.name == key) with
    | none =>
      match value.flaw? with
      | some flaw => .error (.flaw flaw)
      | none => decodeMembers schema depth fields found rest
    | some field =>
      if found.any (·.1 == key) then .error (.mistake (.duplicate key))
      else do
        let first ←
          match field.nullable, decodeNull value with
          | true, some result => result
          | _, _ => decode schema depth (field.shape.view schema) value
        decodeMembers schema depth fields ((key, first) :: found) rest

def decodeChoice (schema : Schema κ) (depth : Nat) (choice : String)
    (variants : List (Variant κ)) : Members → Except Fault Datum
  | .done => .error malformed
  | .cut flaw => .error (.flaw flaw)
  | .stray document => .error (.flaw document.keyReading)
  | .member (.error flaw) _ _ => .error (.flaw flaw)
  | .member (.ok name) value rest =>
    match variants.find? (·.name == name) with
    | none => .error (.mistake (.variant name (variants.map (·.name))))
    | some variant => do
      let payload ← decode schema depth (variant.payload.view schema choice name) value
      closeChoice rest
      return .variant name payload

end

def depthLimit : Nat := 127

def ofDocument (schema : Schema κ) (shape : Shape κ) (document : Document) : Except Fault Datum :=
  decode schema depthLimit (shape.view schema) document

end StackCode.Schema
