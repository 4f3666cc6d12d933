import StackCode.Json.Reader
import StackCode.Program.OfDatum
import StackCode.Program.Schema
import StackCode.Program.ToDatum
import StackCode.Schema.Encode

namespace StackCode

open Json (Document)
open Schema (Datum Fault)

def ofChecked {α : Type} (ofDatum? : Datum → Option α) (datum : Datum) : Except Fault α :=
  match ofDatum? datum with
  | some value => .ok value
  | none => .error Schema.malformed

def readAs {α : Type} (kind : Program.Kind) (ofDatum? : Datum → Option α) (document : Document) :
    Except Fault α := do
  ofChecked ofDatum? (← Schema.ofDocument Program.schema (.named kind) document)

def readText {α : Type} (kind : Program.Kind) (ofDatum? : Datum → Option α) (text : String) :
    Except Fault α := do
  let (document, trailing) := Document.ofText text
  let value ← readAs kind ofDatum? document
  match trailing with
  | some flaw => .error (.flaw flaw)
  | none => return value

def Program.ofDocument (document : Document) : Except Fault Program :=
  readAs .program Program.ofDatum? document

def Program.ofText (text : String) : Except Fault Program :=
  readText .program Program.ofDatum? text

def Literal.ofDocument (document : Document) : Except Fault Literal :=
  readAs .literal Literal.ofDatum? document

def Literal.ofText (text : String) : Except Fault Literal :=
  readText .literal Literal.ofDatum? text

def Program.toJson (program : Program) : Json :=
  Schema.encode Program.schema (Schema.Shape.view Program.schema (.named .program)) program.toDatum

end StackCode
