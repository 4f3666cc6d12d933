import StackCode.Check.Annotations
import StackCode.Code.Module
import StackCode.Emit.Unsupported
import StackCode.Symbols.Table

namespace StackCode

open Code

structure Env where
  table : SymbolTable
  annotations : Annotations
  constants : List (String × Literal) := []

structure Frame where
  locals : List Slot := []
  labelCount : Nat := 0
  /-- The slots and types of the names that each open block declares, the innermost block and the
  newest name first. -/
  scopes : List (List (String × Nat × Tag)) := []
  breakLabels : List Label := []
  tempCount : Nat := 0

/-- Generation keeps its frame also when it fails. -/
abbrev Emit := ExceptT Unsupported (StateM Frame)

def slotLimit : Nat := 65536

namespace Env

def baseType (env : Env) (tag : Tag) : Except Unsupported Ty :=
  if tag = .void then .ok .void
  else if tag = .int then .ok .int32
  else if tag = .char then .ok .char
  else if tag = .bool then .ok .bool
  else if tag = .float then .ok .float32
  else if tag = .double then .ok .float64
  else if tag = .string then .ok .string
  else match env.table.registry.name? tag with
    | some name => .ok (.classType name)
    | none => .error (.noTargetType tag)

def type (env : Env) (tag : Tag) : Except Unsupported Ty :=
  if tag.isList then return Nat.repeat Ty.list tag.dimensions (← env.baseType tag.base)
  else env.baseType tag

def writtenType (env : Env) (type : TypeName) : Except Unsupported Tag :=
  let tag := env.table.typeOf type.name
  if tag.isUnknown then .error (.unresolvedType type.name) else .ok tag

def nodeType (env : Env) (id : NodeId) : Except Unsupported Tag :=
  match env.annotations.type? id with
  | some tag => .ok tag
  | none => .error (.untypedNode id)

def classNamed (env : Env) (tag : Tag) : Except Unsupported String :=
  match env.table.registry.name? tag with
  | some name => .ok name
  | none => .error (.notClass tag)

def memberType (env : Env) (tag : Tag) (field : String) : Except Unsupported Tag :=
  match env.table.lookupField? tag field with
  | some symbol => .ok symbol.type
  | none => .error (.noField field tag)

end Env

namespace Emit

def newLabel : Emit Label :=
  modifyGet fun frame => (⟨frame.labelCount⟩, { frame with labelCount := frame.labelCount + 1 })

def newSlot (env : Env) (name : String) (tag : Tag) : Emit Nat := do
  let slot := (← get).locals.length
  if slotLimit ≤ slot then throw .tooManyLocals
  let type ← env.type tag
  modify fun frame => { frame with locals := frame.locals ++ [⟨name, type⟩] }
  return slot

def temp (env : Env) (tag : Tag) : Emit Nat := do
  let slot ← newSlot env s!"$t{(← get).tempCount}" tag
  modify fun frame => { frame with tempCount := frame.tempCount + 1 }
  return slot

def newLocal (env : Env) (name : String) (tag : Tag) : Emit Nat := do
  let slot ← newSlot env name tag
  modify fun frame =>
    match frame.scopes with
    | scope :: scopes => { frame with scopes := ((name, slot, tag) :: scope) :: scopes }
    | [] => { frame with scopes := [[(name, slot, tag)]] }
  return slot

/-- Runs an action in a changed frame and changes it back, whether the action fails or not. -/
def within {α : Type} (enter leave : Frame → Frame) (action : Emit α) : Emit α :=
  ExceptT.mk fun frame =>
    let (result, frame) := action.run.run (enter frame)
    (result, leave frame)

def breakingTo {α : Type} (label : Label) (action : Emit α) : Emit α :=
  within (fun frame => { frame with breakLabels := label :: frame.breakLabels })
    (fun frame => { frame with breakLabels := frame.breakLabels.tail }) action

def inBlock {α : Type} (action : Emit α) : Emit α :=
  within (fun frame => { frame with scopes := [] :: frame.scopes })
    (fun frame => { frame with scopes := frame.scopes.tail }) action

end Emit

inductive Home where
  | slot (slot : Nat) (tag : Tag)
  | static (name : String) (tag : Tag)
  | constant (value : Literal)

/-- Locals hide constants, and constants hide all else. -/
def Env.home (env : Env) (frame : Frame) (name : String) : Except Unsupported Home :=
  match frame.scopes.findSome? (·.lookup name) with
  | some (slot, tag) => .ok (.slot slot tag)
  | none =>
    match env.constants.lookup name with
    | some value => .ok (.constant value)
    | none =>
      match env.table.lookup? name with
      | some symbol =>
        if symbol.isVariable then .ok (.static name symbol.type)
        else .error (.unresolvedDesignator name)
      | none => .error (.unresolvedDesignator name)

end StackCode
