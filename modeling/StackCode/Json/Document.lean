import StackCode.Number.Shortest

namespace StackCode.Json

inductive Flaw where
  | malformed
  | truncated
deriving DecidableEq, Repr

inductive Break where
  | nothing
  | stray
  | null (flaw : Flaw)
  | bool (flaw : Flaw)
  | number (flaw : Flaw)
  | string (reading passing : Flaw)
  | colon (flaw : Flaw)
deriving DecidableEq, Repr

def Break.reading : Break → Flaw
  | .nothing => .truncated
  | .stray => .malformed
  | .null flaw | .bool flaw | .number flaw | .string flaw _ | .colon flaw => flaw

def Break.passing : Break → Flaw
  | .nothing => .truncated
  | .stray | .number _ => .malformed
  | .null flaw | .bool flaw | .string _ flaw | .colon flaw => flaw

def Break.choosing : Break → Flaw
  | .nothing => .truncated
  | .string flaw _ | .colon flaw => flaw
  | .stray | .null _ | .bool _ | .number _ => .malformed

/-- A number as written: all its digits, and the power of ten that they are multiplied by. -/
structure Numeral where
  negative : Bool
  digits : Nat
  exponent : Int
  integral : Bool
deriving DecidableEq, Repr

/-- The text of a string, or the flaw when it holds a surrogate without its partner. -/
abbrev Spelling := Except Flaw String

mutual

inductive Document where
  | null
  | bool (b : Bool)
  | number (n : Numeral)
  | string (text : Spelling)
  | array (items : Items)
  | object (members : Members)
  | broken (what : Break)

inductive Items where
  | done
  | cut (flaw : Flaw)
  | item (value : Document) (rest : Items)

inductive Members where
  | done
  | cut (flaw : Flaw)
  | stray (found : Document)
  | member (key : Spelling) (value : Document) (rest : Members)

end

inductive Quantity where
  | int (n : Int)
  | float (x : Number.Double)
deriving DecidableEq, Repr

/-- A number is an integer when it is written as one, is not `-0`, and lies in the range of the
signed or unsigned 64-bit words. Any other number is a float, if it is not too large for one. -/
def Numeral.quantity (n : Numeral) : Option Quantity :=
  if n.integral && (if n.negative then n.digits ≠ 0 && n.digits ≤ 0x8000000000000000
      else n.digits < 0x10000000000000000) then
    some (.int (if n.negative then -n.digits else n.digits))
  else match Number.Format.double.ofDecimal n.negative n.digits n.exponent with
    | .finite x => some (.float x)
    | .infinite _ => none

def Numeral.float (n : Numeral) : Option Number.Double :=
  match Number.Format.double.ofDecimal n.negative n.digits n.exponent with
  | .finite x => some x
  | .infinite _ => none

def Document.keyReading : Document → Flaw
  | .broken what => what.choosing
  | _ => .malformed

def Document.keyPassing : Document → Flaw
  | .broken .nothing => .truncated
  | .broken (.string _ flaw) => flaw
  | _ => .malformed

mutual

def Document.flaw? : Document → Option Flaw
  | .null | .bool _ | .number _ | .string _ => none
  | .array items => items.flaw?
  | .object members => members.flaw?
  | .broken what => some what.passing

def Items.flaw? : Items → Option Flaw
  | .done => none
  | .cut flaw => some flaw
  | .item value rest =>
    match value.flaw? with
    | some flaw => some flaw
    | none => rest.flaw?

def Members.flaw? : Members → Option Flaw
  | .done => none
  | .cut flaw => some flaw
  | .stray found => some found.keyPassing
  | .member _ value rest =>
    match value.flaw? with
    | some flaw => some flaw
    | none => rest.flaw?

end

end StackCode.Json
