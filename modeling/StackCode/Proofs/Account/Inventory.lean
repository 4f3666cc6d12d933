import StackCode.Proofs.Typing.Reports

namespace StackCode

section Breaks

mutual

def Stmt.strays : Stmt → List Span
  | .breakStmt span => [span]
  | .branch _ onTrue onFalse _ => onTrue.strays ++ optionStrays onFalse
  | .forLoop init _ update _ _ => optionStrays init ++ optionStrays update
  | .block ⟨items, _⟩ => itemsStrays items
  | .assign .. | .call .. | .increment .. | .decrement .. | .whileLoop .. | .returnStmt .. | .read ..
  | .write .. | .switch .. | .empty _ => []

def optionStrays : Option Stmt → List Span
  | none => []
  | some stmt => stmt.strays

def itemsStrays : List BlockItem → List Span
  | [] => []
  | .var _ :: rest => itemsStrays rest
  | .stmt stmt :: rest => stmt.strays ++ itemsStrays rest

end

def Item.strays : Item → List Span
  | .method decl => itemsStrays decl.body.items
  | _ => []

def Program.strays (program : Program) : List Span := program.items.flatMap Item.strays

end Breaks

section Literals

def testLiterals : Option Condition → List Literal
  | none => []
  | some cond => cond.literals

mutual

/-- The literals of a statement, apart from the least integer behind its sign. Labels and the widths
of outputs are among them. -/
def Stmt.literals : Stmt → List Literal
  | .assign target value _ => target.literals ++ value.literals
  | .call _ args _ => exprsLiterals args
  | .increment target _ | .decrement target _ | .read target _ => target.literals
  | .branch cond onTrue onFalse _ => cond.literals ++ (onTrue.literals ++ optionLiterals onFalse)
  | .whileLoop cond body _ => cond.literals ++ body.literals
  | .forLoop init cond update body _ =>
    optionLiterals init ++ (testLiterals cond ++ (optionLiterals update ++ body.literals))
  | .returnStmt (some value) _ => value.literals
  | .write value width _ => value.literals ++ width.toList.map Literal.int
  | .switch selector cases default _ =>
    selector.literals ++ (casesLiterals cases ++ defaultLiterals default)
  | .block ⟨items, _⟩ => itemsLiterals items
  | .returnStmt none _ | .breakStmt _ | .empty _ => []

def optionLiterals : Option Stmt → List Literal
  | none => []
  | some stmt => stmt.literals

def stmtsLiterals : List Stmt → List Literal
  | [] => []
  | stmt :: rest => stmt.literals ++ stmtsLiterals rest

def casesLiterals : List SwitchCase → List Literal
  | [] => []
  | ⟨label, body, _⟩ :: rest => label :: (stmtsLiterals body ++ casesLiterals rest)

def defaultLiterals : Option DefaultCase → List Literal
  | none => []
  | some ⟨body, _⟩ => stmtsLiterals body

def itemsLiterals : List BlockItem → List Literal
  | [] => []
  | .var _ :: rest => itemsLiterals rest
  | .stmt stmt :: rest => stmt.literals ++ itemsLiterals rest

end

def Item.constants : Item → List Literal
  | .const decl => [decl.value]
  | _ => []

def Item.literals : Item → List Literal
  | .method decl => itemsLiterals decl.body.items
  | _ => []

def Program.literals (program : Program) : List Literal :=
  program.items.flatMap Item.constants ++ program.items.flatMap Item.literals

end Literals

section Declarations

structure Declaration where
  name : Ident
  site : Site
  decl : Span
deriving DecidableEq, Repr

def Symbol.declaration (symbol : Symbol) : Declaration :=
  ⟨⟨symbol.name, symbol.span⟩, symbol.site, symbol.decl⟩

def accept (decls : List Declaration) (decl : Declaration) : List Declaration :=
  if decls.any (·.name.name == decl.name.name) then decls else decls ++ [decl]

def sift (decls : List Declaration) : List Declaration → List (Declaration × Bool)
  | [] => []
  | decl :: rest =>
    (decl, !decls.any (·.name.name == decl.name.name)) :: sift (accept decls decl) rest

def VarDecl.declarations (decl : VarDecl) (site : Site) : List Declaration :=
  decl.names.map (⟨·, site, decl.span⟩)

def Param.declaration (param : Param) : Declaration :=
  ⟨param.name, .param, param.type.span.orElse param.name.span⟩

def BlockItem.declarations : BlockItem → List Declaration
  | .var decl => decl.declarations .localVar
  | .stmt _ => []

mutual

def Stmt.sifted : Stmt → List (Declaration × Bool)
  | .branch _ onTrue onFalse _ => onTrue.sifted ++ optionSifted onFalse
  | .whileLoop _ body _ => body.sifted
  | .forLoop init _ update body _ => optionSifted init ++ (optionSifted update ++ body.sifted)
  | .switch _ cases default _ => casesSifted cases ++ defaultSifted default
  | .block ⟨items, _⟩ => itemsSifted [] items
  | .assign .. | .call .. | .increment .. | .decrement .. | .breakStmt _ | .returnStmt .. | .read ..
  | .write .. | .empty _ => []

def optionSifted : Option Stmt → List (Declaration × Bool)
  | none => []
  | some stmt => stmt.sifted

def stmtsSifted : List Stmt → List (Declaration × Bool)
  | [] => []
  | stmt :: rest => stmt.sifted ++ stmtsSifted rest

def casesSifted : List SwitchCase → List (Declaration × Bool)
  | [] => []
  | ⟨_, body, _⟩ :: rest => stmtsSifted body ++ casesSifted rest

def defaultSifted : Option DefaultCase → List (Declaration × Bool)
  | none => []
  | some ⟨body, _⟩ => stmtsSifted body

def itemsSifted : List Declaration → List BlockItem → List (Declaration × Bool)
  | _, [] => []
  | decls, .var decl :: rest => sift decls (decl.declarations .localVar) ++
    itemsSifted ((decl.declarations .localVar).foldl accept decls) rest
  | decls, .stmt stmt :: rest => stmt.sifted ++ itemsSifted decls rest

end

def MethodDecl.sifted (decl : MethodDecl) : List (Declaration × Bool) :=
  sift [] (decl.params.map Param.declaration) ++
    itemsSifted ((decl.params.map Param.declaration).foldl accept []) decl.body.items

def Item.sifted : Item → List (Declaration × Bool)
  | .method decl => decl.sifted
  | _ => []

def ClassDecl.members (decl : ClassDecl) : List Declaration :=
  decl.fields.flatMap (·.declarations .field)

def Item.classDeclarations : Item → List Declaration
  | .classDecl decl => [⟨decl.name, .classDecl, decl.span⟩]
  | _ => []

def Item.valueDeclarations : Item → List Declaration
  | .const decl => [⟨decl.name, .constant, decl.span⟩]
  | .vars decl => decl.names.map (⟨·, .global, decl.span⟩)
  | .method decl => [⟨decl.name, .method, decl.span⟩]
  | .classDecl _ => []

def Program.declarations (program : Program) : List Declaration :=
  program.items.flatMap Item.classDeclarations ++ program.items.flatMap Item.valueDeclarations

end Declarations

end StackCode
