import StackCode.Diagnostic.Basic
import StackCode.Emit.Expr

namespace StackCode

open Code Emit

def StepOp.instr : StepOp → Instr
  | .increment => .add
  | .decrement => .sub

def emitPut (env : Env) (name : String) (constant : Unsupported) : Emit Instr := do
  match ← env.home (← get) name with
  | .slot slot _ => return .stloc slot
  | .static field _ => return .stsfld field
  | .constant _ => throw constant

def Designator.emitContainer (env : Env) (target : Designator) : Emit (Piece × Tag) := do
  let (value, tag) ← emitBase env target.base.name
  let (selected, tag) ← emitSelectors env tag target.selectors.dropLast
  return (value ++ selected, tag)

/-- The code that stores a value. A variable is looked up behind the value, all other places are
found before it. -/
def Designator.emitStore (env : Env) (target : Designator) (value : Emit Piece) : Emit Piece := do
  match target.selectors.getLast? with
  | none =>
    let code ← value
    return code ++ [← emitPut env target.base.name (.constantStore target.base.name)]
  | some (.field field) =>
    let (container, tag) ← target.emitContainer env
    let className ← env.classNamed tag
    let code ← value
    return container ++ code ++ [.stfld className field.name]
  | some (.index index) =>
    let (container, tag) ← target.emitContainer env
    let position ← index.emit env
    let code ← value
    return container ++ position ++ code ++ [.callvirt .setItem (← env.type tag.element)]

/-- The code that adds one to a place or takes one from it. The list and the index of an element
are kept in slots, so that each is evaluated once. -/
def Designator.emitStep (env : Env) (op : StepOp) (target : Designator) : Emit Piece := do
  match target.selectors.getLast? with
  | none =>
    let (value, _) ← emitBase env target.base.name
    let put ← emitPut env target.base.name (.constantStep target.base.name)
    return value ++ [.ldcI4 1, op.instr, put]
  | some (.field field) =>
    let (container, tag) ← target.emitContainer env
    let className ← env.classNamed tag
    return container ++ [.dup, .ldfld className field.name, .ldcI4 1, op.instr,
      .stfld className field.name]
  | some (.index index) =>
    let (container, tag) ← target.emitContainer env
    let elem ← env.type tag.element
    let list ← temp env tag
    let position ← index.emit env
    let i ← temp env .int
    return container ++ [.stloc list] ++ position ++ [.stloc i, .ldloc list, .ldloc i, .ldloc list,
      .ldloc i, .callvirt .getItem elem, .ldcI4 1, op.instr, .callvirt .setItem elem]

def emitWrite (env : Env) (value : Expr) (width : Option Int64) : Emit Piece := do
  let code ← value.emit env
  let type ← env.type (← env.nodeType value.id)
  match width with
  | none => return code ++ [.callHost (.write type)]
  | some width =>
    if fitsInt32 width.toInt then
      return code ++ [.ldcI4 (Int32.ofInt width.toInt), .callHost (.writePadded type)]
    else throw .widthRange

def newLabels : (count : Nat) → Emit (List Label)
  | 0 => return []
  | count + 1 => do
    let label ← newLabel
    return label :: (← newLabels count)

def emitDispatch (slot : Nat) : List (SwitchCase × Label) → Emit Piece
  | [] => return []
  | (case, label) :: rest => do
    let value ← literalInstr case.label
    return [.ldloc slot, value, .beq label] ++ (← emitDispatch slot rest)

def emitLocals (env : Env) (tag : Tag) : List Ident → Emit Unit
  | [] => return ()
  | name :: names => do
    discard (newLocal env name.name tag)
    emitLocals env tag names

mutual

def Stmt.emit (env : Env) : Stmt → Emit Piece
  | .assign target value _ => target.emitStore env (value.emit env)
  | .read target _ => target.emitStore env (return [.callHost .readLine, .callHost .parseInt])
  | .increment target _ => target.emitStep env .increment
  | .decrement target _ => target.emitStep env .decrement
  | .call callee args _ => do
    let (code, result) ← callee.emitCall env args
    return code ++ (if result = .void then [] else [.pop])
  | .write value width _ => emitWrite env value width
  | .branch cond onTrue (some onFalse) _ => do
    let finish ← newLabel
    let otherwise ← newLabel
    let test ← cond.emit env
    let yes ← onTrue.emit env
    let no ← onFalse.emit env
    return test ++ [.brfalse otherwise] ++ yes ++ [.br finish, .mark otherwise] ++ no ++
      [.mark finish]
  | .branch cond onTrue none _ => do
    let finish ← newLabel
    let test ← cond.emit env
    let yes ← onTrue.emit env
    return test ++ [.brfalse finish] ++ yes ++ [.mark finish]
  | .whileLoop cond body _ => do
    let start ← newLabel
    let finish ← newLabel
    let test ← cond.emit env
    let code ← breakingTo finish (body.emit env)
    return [.mark start] ++ test ++ [.brfalse finish] ++ code ++ [.br start, .mark finish]
  | .forLoop init cond update body _ => do
    let start ← newLabel
    let check ← newLabel
    let finish ← newLabel
    let first ← emitOptional env init
    let code ← breakingTo finish (body.emit env)
    let next ← emitOptional env update
    let again ← match cond with
      | some cond => do pure ((← cond.emit env) ++ [.brtrue start])
      | none => pure [.br start]
    return first ++ [.br check, .mark start] ++ code ++ next ++ [.mark check] ++ again ++
      [.mark finish]
  | .breakStmt _ => do
    match (← get).breakLabels.head? with
    | some target => return [.br target]
    | none => throw .strayBreak
  | .returnStmt value _ => do
    match value with
    | some value => return (← value.emit env) ++ [.ret]
    | none => return [.ret]
  | .switch selector cases default _ => do
    let tag ← env.nodeType selector.id
    let value ← selector.emit env
    let slot ← temp env tag
    let finish ← newLabel
    let labels ← newLabels cases.length
    let fallback ← if default.isSome then newLabel else pure finish
    let dispatch ← emitDispatch slot (cases.zip labels)
    let bodies ← breakingTo finish do
      let code ← emitCases env labels cases
      return code ++ (← emitDefault env fallback default)
    return value ++ [.stloc slot] ++ dispatch ++ [.br fallback] ++ bodies ++ [.mark finish]
  | .block ⟨items, _⟩ => inBlock (emitItems env items)
  | .empty _ => return []

def emitOptional (env : Env) : Option Stmt → Emit Piece
  | some stmt => stmt.emit env
  | none => return []

def emitStmts (env : Env) : List Stmt → Emit Piece
  | [] => return []
  | stmt :: rest => do
    let code ← stmt.emit env
    return code ++ (← emitStmts env rest)

def emitCases (env : Env) : List Label → List SwitchCase → Emit Piece
  | label :: labels, ⟨_, body, _⟩ :: cases => do
    let code ← emitStmts env body
    return [.mark label] ++ code ++ (← emitCases env labels cases)
  | _, _ => return []

def emitDefault (env : Env) (label : Label) : Option DefaultCase → Emit Piece
  | some ⟨body, _⟩ => return [.mark label] ++ (← emitStmts env body)
  | none => return []

def emitItems (env : Env) : List BlockItem → Emit Piece
  | [] => return []
  | .var decl :: rest => do
    let tag ← env.writtenType decl.type
    emitLocals env tag decl.names
    emitItems env rest
  | .stmt stmt :: rest => do
    let code ← stmt.emit env
    return code ++ (← emitItems env rest)

end

end StackCode
