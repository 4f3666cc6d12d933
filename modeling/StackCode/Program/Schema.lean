import StackCode.Schema.Basic

namespace StackCode.Program

open Schema

inductive Kind where
  | program
  | item
  | ident
  | typeName
  | constDecl
  | varDecl
  | classDecl
  | methodDecl
  | param
  | block
  | blockItem
  | stmt
  | switchCase
  | defaultCase
  | expr
  | term
  | factor
  | factorKind
  | literal
  | designator
  | selector
  | condition
  | condTerm
  | condFact
  | factKind
  | addOp
  | mulOp
  | relOp
  | span
deriving DecidableEq, Repr

namespace Kind

def unknownSpan : Datum := .record [.int 0, .int 0]

def required (name : String) (kind : Kind) : Schema.Field Kind := { name, shape := .named kind }

def optional (name : String) (shape : Shape Kind) : Schema.Field Kind :=
  { name, shape, nullable := true, fallback := some .absent }

def listOf (name : String) (shape : Shape Kind) : Schema.Field Kind :=
  { name, shape := .list shape, fallback := some (.list []) }

def requiredList (name : String) (kind : Kind) : Schema.Field Kind :=
  { name, shape := .list (.named kind) }

def spanField : Schema.Field Kind :=
  { name := "span", shape := .named .span, fallback := some unknownSpan }

def idField : Schema.Field Kind :=
  { name := "id", shape := .leaf .word32, fallback := some (.int 0) }

def nameField : Schema.Field Kind := { name := "name", shape := .leaf .text }

def unitVariant (name : String) : Variant Kind := ⟨name, .unit⟩

def valueVariant (name : String) (shape : Shape Kind) : Variant Kind := ⟨name, .value shape⟩

def fieldsVariant (name : String) (fields : List (Schema.Field Kind)) : Variant Kind :=
  ⟨name, .fields fields⟩

def stmtVariants : List (Variant Kind) :=
  [ fieldsVariant "Assign" [required "target" .designator, required "value" .expr, spanField],
    fieldsVariant "Call" [required "callee" .designator, listOf "args" (.named .expr), spanField],
    fieldsVariant "Increment" [required "target" .designator, spanField],
    fieldsVariant "Decrement" [required "target" .designator, spanField],
    fieldsVariant "If" [required "cond" .condition, required "then_branch" .stmt,
      optional "else_branch" (.named .stmt), spanField],
    fieldsVariant "While" [required "cond" .condition, required "body" .stmt, spanField],
    fieldsVariant "For" [optional "init" (.named .stmt), optional "cond" (.named .condition),
      optional "update" (.named .stmt), required "body" .stmt, spanField],
    fieldsVariant "Break" [spanField],
    fieldsVariant "Return" [optional "value" (.named .expr), spanField],
    fieldsVariant "Read" [required "target" .designator, spanField],
    fieldsVariant "Write" [required "value" .expr, optional "width" (.leaf .int64), spanField],
    fieldsVariant "Switch" [required "selector" .expr, listOf "cases" (.named .switchCase),
      optional "default" (.named .defaultCase), spanField],
    valueVariant "Block" (.named .block),
    fieldsVariant "Empty" [spanField] ]

def factorVariants : List (Variant Kind) :=
  [ valueVariant "Literal" (.named .literal),
    valueVariant "Designator" (.named .designator),
    fieldsVariant "Call" [required "callee" .designator, listOf "args" (.named .expr)],
    fieldsVariant "New" [required "class" .ident],
    fieldsVariant "NewArray" [required "elem" .typeName, requiredList "sizes" .expr],
    valueVariant "Paren" (.named .expr),
    valueVariant "List" (.list (.named .expr)) ]

def literalVariants : List (Variant Kind) :=
  [ valueVariant "Int" (.leaf .int64),
    valueVariant "Float" (.leaf .float),
    valueVariant "Double" (.leaf .float),
    valueVariant "Char" (.leaf .char),
    valueVariant "Str" (.leaf .text),
    valueVariant "Bool" (.leaf .bool),
    unitVariant "Null" ]

end Kind

open Kind in
def schema : Schema Kind
  | .program => .record "Program"
      [required "name" .ident, listOf "items" (.named .item), spanField]
  | .item => .choice "Item"
      [valueVariant "Const" (.named .constDecl), valueVariant "Var" (.named .varDecl),
        valueVariant "Class" (.named .classDecl), valueVariant "Method" (.named .methodDecl)]
  | .ident => .record "Ident" [nameField, spanField]
  | .typeName => .record "TypeName" [nameField, spanField]
  | .constDecl => .record "ConstDecl"
      [required "ty" .typeName, required "name" .ident, required "value" .literal, spanField]
  | .varDecl => .record "VarDecl"
      [required "ty" .typeName, requiredList "names" .ident, spanField]
  | .classDecl => .record "ClassDecl"
      [required "name" .ident, listOf "fields" (.named .varDecl), spanField]
  | .methodDecl => .record "MethodDecl"
      [required "name" .ident, optional "ret" (.named .typeName), listOf "params" (.named .param),
        required "body" .block, spanField]
  | .param => .record "Param" [required "ty" .typeName, required "name" .ident]
  | .block => .record "Block" [listOf "items" (.named .blockItem), spanField]
  | .blockItem => .choice "BlockItem"
      [valueVariant "Var" (.named .varDecl), valueVariant "Stmt" (.named .stmt)]
  | .stmt => .choice "Stmt" stmtVariants
  | .switchCase => .record "SwitchCase"
      [required "label" .literal, listOf "body" (.named .stmt), spanField]
  | .defaultCase => .record "DefaultCase" [listOf "body" (.named .stmt), spanField]
  | .expr => .record "Expr"
      [idField, { name := "neg", shape := .leaf .bool, fallback := some (.bool false) },
        optional "cast" (.named .typeName), required "head" .term,
        listOf "tail" (.pair (.named .addOp) (.named .term)), spanField]
  | .term => .record "Term"
      [idField, required "head" .factor, listOf "tail" (.pair (.named .mulOp) (.named .factor)),
        spanField]
  | .factor => .record "Factor" [idField, required "kind" .factorKind, spanField]
  | .factorKind => .choice "FactorKind" factorVariants
  | .literal => .choice "Literal" literalVariants
  | .designator => .record "Designator"
      [idField, required "base" .ident, listOf "selectors" (.named .selector), spanField]
  | .selector => .choice "Selector"
      [valueVariant "Field" (.named .ident), valueVariant "Index" (.named .expr)]
  | .condition => .record "Condition" [idField, requiredList "terms" .condTerm, spanField]
  | .condTerm => .record "CondTerm" [idField, requiredList "facts" .condFact, spanField]
  | .condFact => .record "CondFact" [idField, required "kind" .factKind, spanField]
  | .factKind => .choice "CondFactKind"
      [fieldsVariant "Relation" [required "left" .expr, required "op" .relOp,
          required "right" .expr],
        valueVariant "Expr" (.named .expr)]
  | .addOp => .choice "AddOp" [unitVariant "Add", unitVariant "Sub"]
  | .mulOp => .choice "MulOp" [unitVariant "Mul", unitVariant "Div", unitVariant "Rem"]
  | .relOp => .choice "RelOp"
      [unitVariant "Eq", unitVariant "Ne", unitVariant "Lt", unitVariant "Le", unitVariant "Gt",
        unitVariant "Ge"]
  | .span => .record "Span"
      [{ name := "line", shape := .leaf .word32 }, { name := "column", shape := .leaf .word32 }]

end StackCode.Program
