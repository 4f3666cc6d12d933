import StackCode.Json.Document

namespace StackCode.Schema

inductive Leaf where
  | int64
  | word32
  | float
  | bool
  | char
  | text
  | unit
deriving DecidableEq, Repr

/-- The types of a format whose named types are listed by `κ`. -/
inductive Shape (κ : Type) where
  | leaf (leaf : Leaf)
  | list (item : Shape κ)
  | pair (first second : Shape κ)
  | named (name : κ)

inductive Datum where
  | int (n : Int)
  | float (x : Number.Double)
  | bool (b : Bool)
  | char (c : Char)
  | text (s : String)
  | unit
  | absent
  | list (items : List Datum)
  | record (fields : List Datum)
  | variant (name : String) (payload : Datum)

structure Field (κ : Type) where
  name : String
  shape : Shape κ
  nullable : Bool := false
  fallback : Option Datum := none

inductive Payload (κ : Type) where
  | unit
  | value (shape : Shape κ)
  | fields (fields : List (Field κ))

structure Variant (κ : Type) where
  name : String
  payload : Payload κ

inductive Definition (κ : Type) where
  | record (name : String) (fields : List (Field κ))
  | choice (name : String) (variants : List (Variant κ))

end Schema

abbrev Schema (κ : Type) := κ → Schema.Definition κ

namespace Schema

inductive Want where
  | leaf (leaf : Leaf)
  | sequence
  | pair
  | record (name : String)
  | variant (choice name : String)
  | valuePayload
  | fieldsPayload
deriving DecidableEq, Repr

inductive Found where
  | null
  | bool (b : Bool)
  | int (n : Int)
  | float (x : Number.Double)
  | text (s : String)
  | sequence
  | map
  | unitVariant
deriving DecidableEq, Repr

inductive Mistake where
  | missing (field : String)
  | duplicate (field : String)
  | length (found : Nat) (want : Want) (size : Nat)
  | variant (found : String) (known : List String)
  | type (found : Found) (want : Want)
  | value (found : Found) (want : Want)
deriving DecidableEq, Repr

inductive Fault where
  | flaw (flaw : Json.Flaw)
  | mistake (mistake : Mistake)
deriving DecidableEq, Repr

def Leaf.describe : Leaf → String
  | .int64 => "i64"
  | .word32 => "u32"
  | .float => "f64"
  | .bool => "a boolean"
  | .char => "a character"
  | .text => "a string"
  | .unit => "unit"

def Want.describe : Want → String
  | .leaf kind => kind.describe
  | .sequence => "a sequence"
  | .pair => "a tuple of size 2"
  | .record name => s!"struct {name}"
  | .variant choice name => s!"struct variant {choice}::{name}"
  | .valuePayload => "newtype variant"
  | .fieldsPayload => "struct variant"

def Want.sized (want : Want) (size : Nat) : String :=
  match want with
  | .pair => want.describe
  | _ => want.describe ++ s!" with {size} element" ++ if size = 1 then "" else "s"

end Schema

end StackCode
