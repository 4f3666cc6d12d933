import StackCode.Diagnostic.Basic

namespace StackCode

def Mismatch.message (pretty : Tag → String) : Mismatch → String
  | .voidVariable => "'void' is not a valid variable type"
  | .constantValue name type value =>
    s!"constant '{name}' of type " ++ pretty type ++ " cannot hold " ++ value.text
  | .assign value target => "cannot assign " ++ pretty value ++ " to " ++ pretty target
  | .step op found => "'" ++ op.symbol ++ "' requires an int designator, found " ++ pretty found
  | .read found => "read requires an int designator, found " ++ pretty found
  | .write found => "cannot write a value of type " ++ pretty found
  | .writeWidth width => "write width " ++ toString width.toInt ++ " is out of range for int"
  | .missingResult expected => "missing return value of type " ++ pretty expected
  | .voidResult => "a void method cannot return a value"
  | .result found expected =>
    "return type " ++ pretty found ++ " does not match declared " ++ pretty expected
  | .selector found => "switch selector must be int or char, found " ++ pretty found
  | .caseLabel label type =>
    "case label " ++ label.text ++ " does not match selector type " ++ pretty type
  | .notVariable name => s!"'{name}' is not a variable"
  | .index found => "index must be int, found " ++ pretty found
  | .indexed found => "cannot index a value of type " ++ pretty found
  | .argument position method expected found =>
    s!"argument {position} of '{method}' expects " ++ pretty expected ++ ", found " ++ pretty found
  | .listArgument intrinsic found =>
    "'" ++ intrinsic.name ++ "' expects a list, found " ++ pretty found
  | .addElement value list => "cannot add " ++ pretty value ++ " to " ++ pretty list
  | .delIndex found => "'del' index must be int, found " ++ pretty found
  | .ordArgument found => "'ord' expects char, found " ++ pretty found
  | .chrArgument found => "'chr' expects int, found " ++ pretty found
  | .castTarget found => "cast target must be numeric, found " ++ pretty found
  | .cast source target => "cannot cast " ++ pretty source ++ " to " ++ pretty target
  | .negation found => "unary '-' requires a numeric operand, found " ++ pretty found
  | .operator symbol left right =>
    s!"operator '{symbol}' cannot be applied to " ++ pretty left ++ " and " ++ pretty right
  | .intRange n => "integer literal " ++ toString n.toInt ++ " is out of range for int"
  | .charRange c => "character literal " ++ (Literal.char c).text ++ " does not fit in a char"
  | .noValue method => s!"'{method}' does not return a value"
  | .arraySize found => "array size must be int, found " ++ pretty found
  | .emptyList => "the type of '[]' cannot be inferred here"
  | .listElements first other =>
    "list elements must share one type: " ++ pretty first ++ " and " ++ pretty other
  | .condition found => "condition must be bool, found " ++ pretty found
  | .comparison left op right =>
    "cannot compare " ++ pretty left ++ " " ++ op.symbol ++ " " ++ pretty right

def Problem.message (pretty : Tag → String) : Problem → String
  | .redeclaration name => s!"'{name}' is already declared in this scope"
  | .duplicateLabel label => "duplicate case label " ++ label.text
  | .undeclared name => s!"'{name}' is not declared"
  | .unknownType name => s!"unknown type '{name}'"
  | .unknownField field type => s!"field '{field}' not found in type " ++ pretty type
  | .mismatch what => what.message pretty
  | .constantAssignment name => s!"'{name}' is a constant and cannot be modified"
  | .notCallable name => s!"'{name}' is not a method"
  | .arity name expected found => s!"'{name}' expects {expected} argument(s) but got {found}"
  | .strayBreak => "'break' outside of a loop or switch"
  | .missingEntry name => s!"program has no 'void {name}()' entry method"

end StackCode
