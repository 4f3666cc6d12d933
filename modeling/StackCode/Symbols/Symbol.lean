import StackCode.Program.Span
import StackCode.Types.Registry

namespace StackCode

inductive Site where
  | global
  | localVar
  | param
  | field
  | constant
  | method
  | classDecl
deriving DecidableEq, Repr

inductive SymbolKind where
  | var (constant : Bool)
  | method (result : Tag) (params : List Tag)
  | classType
deriving DecidableEq, Repr

structure Symbol where
  name : String
  span : Span
  decl : Span
  type : Tag
  level : Int
  site : Site
  kind : SymbolKind
deriving DecidableEq, Repr

namespace Symbol

def isConstant (s : Symbol) : Bool := s.kind == .var true

def isVariable (s : Symbol) : Bool :=
  match s.kind with
  | .var _ => true
  | _ => false

def isMethod (s : Symbol) : Bool :=
  match s.kind with
  | .method _ _ => true
  | _ => false

def isClass (s : Symbol) : Bool := s.kind == .classType

def detail (s : Symbol) (registry : Registry) : String :=
  match s.kind with
  | .var true => "const"
  | .var false =>
    match s.site with
    | .param => "param"
    | .field => "field"
    | .global => "global"
    | _ => "var"
  | .method result params =>
    "(" ++ ", ".intercalate (params.map registry.pretty) ++ ") -> " ++ registry.pretty result
  | .classType => "class"

def line (s : Symbol) (registry : Registry) : String :=
  Text.padRight 16 s.name ++ " " ++ Text.padLeft 3 (toString s.level) ++ "  " ++
    Text.padRight 12 (registry.pretty s.type) ++ " " ++ s.detail registry ++ "\n"

end Symbol

end StackCode
