import StackCode.Symbols.Symbol

namespace StackCode

structure SymbolTable where
  registry : Registry := {}
  /-- Every symbol ever declared, in that order. -/
  history : Array Symbol := #[]
  /-- The visible symbols as positions in the history, the newest first. -/
  active : List Nat := []
  /-- For every open scope, the innermost first, how many symbols were visible before it. -/
  boundaries : List Nat := []
  /-- The fields of every class as positions in the history, the oldest first. -/
  fields : List (String × List Nat) := []
deriving Repr, Inhabited

namespace SymbolTable

variable (table : SymbolTable)

/-- The number of the innermost scope, or -1; with less than two to the 31 scopes open, one of 32 bits. -/
def level : Int := table.boundaries.length - 1

theorem level_eq_toInt (few : table.boundaries.length < 2147483648) :
    table.level = (Int32.ofNat table.boundaries.length - 1).toInt := by
  rw [Int32.toInt_sub, Int32.toInt_ofNat_of_lt few, level]
  exact (Int.bmod_eq_of_le (by omega) (by omega)).symm

def openScope : SymbolTable :=
  { table with boundaries := table.active.length :: table.boundaries }

def closeScope? : Option SymbolTable :=
  match table.boundaries with
  | [] => none
  | start :: rest =>
    some { table with
      active := table.active.drop (table.active.length - start), boundaries := rest }

def symbolsAt (ids : List Nat) : List Symbol := ids.filterMap (table.history[·]?)

def visible : List Symbol := table.symbolsAt table.active

def current : List Symbol :=
  table.symbolsAt (table.active.take (table.active.length - table.boundaries.headD 0))

def lookup? (name : String) : Option Symbol := table.visible.find? (·.name == name)

def lookupCurrent? (name : String) : Option Symbol := table.current.find? (·.name == name)

def fieldsOf (className : String) : List Symbol :=
  table.symbolsAt ((table.fields.lookup className).getD [])

def lookupField? (tag : Tag) (name : String) : Option Symbol := do
  let className ← table.registry.name? tag
  (table.fieldsOf className).find? (·.name == name)

def classTag? (name : String) : Option Tag :=
  match table.lookup? name with
  | some symbol => if symbol.isClass then some symbol.type else none
  | none => none

def typeNamed (name : String) : Tag := Tag.ofName table.classTag? name

def typeOf (text : String) : Tag := Tag.ofBracketed table.classTag? text

def pretty (tag : Tag) : String := table.registry.pretty tag

def push (name : Ident) (type : Tag) (site : Site) (kind : SymbolKind) (decl : Span) :
    SymbolTable :=
  { table with
    history := table.history.push
      ⟨name.name, name.span, decl, type, table.level, site, kind⟩
    active := table.history.size :: table.active }

def declareVar? (name : Ident) (type : Tag) (constant : Bool) (site : Site) (decl : Span) :
    Option SymbolTable :=
  if (table.lookupCurrent? name.name).isSome then none
  else some (table.push name type site (.var constant) decl)

def declareMethod? (name : Ident) (result : Tag) (params : List Tag) (decl : Span) :
    Option SymbolTable :=
  if (table.lookupCurrent? name.name).isSome then none
  else some (table.push name result .method (.method result params) decl)

def withClass (fields : List (String × List Nat)) (className : String) :
    List (String × List Nat) :=
  if (fields.lookup className).isSome then fields else fields ++ [(className, [])]

def declareClass? (name : Ident) (decl : Span) : Option SymbolTable :=
  if (table.lookupCurrent? name.name).isSome then none
  else
    let (tag, registry) := table.registry.register name.name
    let table := table.push name tag .classDecl .classType decl
    some { table with registry, fields := withClass table.fields name.name }

def withField (fields : List (String × List Nat)) (className : String) (id : Nat) :
    List (String × List Nat) :=
  (withClass fields className).map fun (name, ids) =>
    if name == className then (name, ids ++ [id]) else (name, ids)

/-- Declares a field of a class, unless the class has one of that name. Scopes have no part in
it. -/
def declareField? (className : String) (name : Ident) (type : Tag) (decl : Span) :
    Option SymbolTable :=
  if (table.fieldsOf className).any (·.name == name.name) then none
  else some { table with
    history := table.history.push
      ⟨name.name, name.span, decl, type, table.level, .field, .var false⟩
    fields := withField table.fields className table.history.size }

def dump : String := String.join (table.history.toList.map (·.line table.registry))

end SymbolTable

end StackCode
