import StackCode.Check.Stmt

namespace StackCode

open Checking

def declareClasses : List Item → Checking (List ClassDecl)
  | [] => return []
  | .classDecl decl :: rest => do
    let fresh ← introduce decl.name (·.declareClass? decl.name decl.span)
    let classes ← declareClasses rest
    return if fresh then decl :: classes else classes
  | _ :: rest => declareClasses rest

def declareFieldNames (className : String) (type : Tag) (decl : Span) :
    List Ident → Checking Unit
  | [] => return ()
  | name :: names => do
    discard (introduce name (·.declareField? className name type decl))
    declareFieldNames className type decl names

def declareMembers (className : String) : List VarDecl → Checking Unit
  | [] => return ()
  | decl :: rest => do
    let type ← note (·.namedValueType decl.type)
    declareFieldNames className type decl.span decl.names
    declareMembers className rest

def ClassDecl.declareFields (decl : ClassDecl) : Checking Unit :=
  declareMembers decl.name.name decl.fields

def ConstDecl.declaredType (table : SymbolTable) (decl : ConstDecl) : Noting Tag := do
  let type ← table.namedValueType decl.type
  let value ← decl.value.check decl.name.span
  if !type.isUnknown && !table.registry.accepts type value then
    Noting.mismatch (.constantValue decl.name.name type decl.value) decl.name.span
  return type

def ConstDecl.declare (decl : ConstDecl) : Checking Unit := do
  let type ← note fun table => decl.declaredType table
  discard (introduce decl.name (·.declareVar? decl.name type true .constant decl.span))

def namedParams (table : SymbolTable) : List Param → Noting (List Tag)
  | [] => return []
  | param :: params => do
    let type ← table.namedValueType param.type
    return type :: (← namedParams table params)

def MethodDecl.signature (table : SymbolTable) (decl : MethodDecl) : Noting (Tag × List Tag) := do
  let result ← match decl.result with
    | some type => table.namedType type
    | none => pure Tag.void
  return (result, ← namedParams table decl.params)

/-- Declares a method; what is wrong with its signature is said here, once. -/
def MethodDecl.declare (decl : MethodDecl) : Checking Unit := do
  let signature ← note fun table => decl.signature table
  discard (introduce decl.name (·.declareMethod? decl.name signature.1 signature.2 decl.span))

def Item.declare : Item → Checking Unit
  | .const decl => decl.declare
  | .vars decl => decl.declare .global
  | .method decl => decl.declare
  | .classDecl _ => return ()

def SymbolTable.paramType (table : SymbolTable) (type : TypeName) : Tag :=
  let tag := table.typeOf type.name
  if tag == .void then .unknown else tag

def SymbolTable.resultType (table : SymbolTable) : Option TypeName → Tag
  | some type => table.typeOf type.name
  | none => .void

def declareParams : List Param → Checking Unit
  | [] => return ()
  | param :: params => do
    let type := (← get).table.paramType param.type
    let decl := param.type.span.orElse param.name.span
    discard (introduce param.name (·.declareVar? param.name type false .param decl))
    declareParams params

def MethodDecl.check (decl : MethodDecl) : Checking Unit := do
  modify fun state => { state with expectedResult := state.table.resultType decl.result }
  openScope
  declareParams decl.params
  checkItems decl.body.items
  closeScope
  modify fun state => { state with expectedResult := .void }

def checkMethods : List Item → Checking Unit
  | [] => return ()
  | .method decl :: rest => do
    decl.check
    checkMethods rest
  | _ :: rest => checkMethods rest

def SymbolTable.hasEntry (table : SymbolTable) (entry : String) : Bool :=
  match table.lookupCurrent? entry with
  | some symbol => symbol.kind == .method .void []
  | none => false

def checkEntry (entry : String) (span : Span) : Checking Unit := do
  if !(← get).table.hasEntry entry then report (.missingEntry entry) span

def Program.checking (program : Program) (entry : String) : Checking Unit := do
  openScope
  let classes ← declareClasses program.items
  classes.forM ClassDecl.declareFields
  program.items.forM Item.declare
  checkMethods program.items
  checkEntry entry program.span

def Program.check (program : Program) (entry : String) : CheckState :=
  (program.checking entry |>.run {}).2

end StackCode
