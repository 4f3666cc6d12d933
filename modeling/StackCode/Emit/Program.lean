import StackCode.Check.Program
import StackCode.Emit.Stmt

namespace StackCode

open Code Emit

/-- The value of a method that runs off its end. -/
def Code.Ty.defaultCode : Ty → Piece
  | .void => []
  | .int32 | .char | .bool => [.ldcI4 0]
  | .float32 => [.ldcR4 (.finite Number.Finite.zero)]
  | .float64 => [.ldcR8 Number.Finite.zero]
  | .string | .classType _ | .list _ => [.ldnull]

def Env.params (env : Env) : List Param → Except Unsupported (List (String × Tag) × List Slot)
  | [] => return ([], [])
  | param :: params => do
    let tag ← env.writtenType param.type
    let type ← env.type tag
    let (tags, slots) ← env.params params
    return ((param.name.name, tag) :: tags, ⟨param.name.name, type⟩ :: slots)

def emitParams (env : Env) : (i : Nat) → List (String × Tag) → Emit Piece
  | _, [] => return []
  | i, (name, tag) :: params => do
    let slot ← newLocal env name tag
    return [.ldarg i, .stloc slot] ++ (← emitParams env (i + 1) params)

def emitBody (env : Env) (params : List (String × Tag)) (result : Ty) (items : List BlockItem) :
    Emit Piece := do
  let entry ← emitParams env 0 params
  let code := entry ++ (← emitItems env items)
  if code.getLast? = some .ret then return code
  else return code ++ result.defaultCode ++ [.ret]

def Env.resultTag (env : Env) : Option TypeName → Except Unsupported Tag
  | some type => env.writtenType type
  | none => .ok .void

/-- A method starts with the `break` labels that the one before has left, and leaves its own. -/
def Env.methodFrom (env : Env) (breaks : List Label) (decl : MethodDecl) :
    Except Unsupported (Method × List Label) := do
  let resultTag ← env.resultTag decl.result
  let (tags, params) ← env.params decl.params
  let result ← env.type resultTag
  let (code, frame) := (emitBody env tags result decl.body.items).run.run
    { scopes := [[]], breakLabels := breaks }
  let method : Method :=
    { name := decl.name.name, params, result, locals := frame.locals, code := ← code
      labelCount := frame.labelCount }
  if method.isResolved then return (method, frame.breakLabels)
  else throw (.unresolvedBranch decl.name.name)

def Env.methodsFrom (env : Env) : (breaks : List Label) → List Item → Except Unsupported (List Method)
  | _, [] => return []
  | breaks, .method decl :: rest => do
    let (method, left) ← env.methodFrom breaks decl
    return method :: (← env.methodsFrom left rest)
  | breaks, _ :: rest => env.methodsFrom breaks rest

def Env.fields (env : Env) : List Symbol → Except Unsupported (List Slot)
  | [] => return []
  | symbol :: rest => do
    let type ← env.type symbol.type
    return ⟨symbol.name, type⟩ :: (← env.fields rest)

def Env.data (env : Env) : List Item → Except Unsupported (List Code.Class × List Slot)
  | [] => return ([], [])
  | .classDecl decl :: rest => do
    let fields ← env.fields (env.table.fieldsOf decl.name.name)
    let (classes, statics) ← env.data rest
    return (.plain decl.name.name fields :: classes, statics)
  | .vars decl :: rest => do
    let type ← env.type (← env.writtenType decl.type)
    let (classes, statics) ← env.data rest
    return (classes, decl.names.map (⟨·.name, type⟩) ++ statics)
  | _ :: rest => env.data rest

def constantsOf (items : List Item) : List (String × Literal) :=
  (items.filterMap fun
    | .const decl => some (decl.name.name, decl.value)
    | _ => none).reverse

def Program.generate (program : Program) (table : SymbolTable) (annotations : Annotations)
    (entry : String) : Except Unsupported Module := do
  let env : Env := { table, annotations, constants := constantsOf program.items }
  let (classes, statics) ← env.data program.items
  let methods ← env.methodsFrom [] program.items
  return { name := program.name.name, classes, statics, methods
           entry := if methods.any (·.name == entry) then some entry else none }

inductive Rejection where
  | diagnostics (found : Array Diagnostic)
  | unsupported (cause : Unsupported)

/-- The module of a program that has been checked. Nothing is generated for one with errors. -/
def Program.build (program : Program) (checked : CheckState) (entry : String) :
    Except Rejection Module :=
  if checked.errors.isEmpty then
    (program.generate checked.table checked.annotations entry).mapError .unsupported
  else .error (.diagnostics checked.errors)

end StackCode
