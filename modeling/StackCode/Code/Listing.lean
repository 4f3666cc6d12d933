import StackCode.Code.Module

namespace StackCode.Code

def Slot.text (slot : Slot) : String := slot.type.text ++ " " ++ slot.name

namespace Method

def headline (m : Method) : String :=
  "method " ++ (match m.kind with
    | .static => "static "
    | .constructor => "") ++
    m.result.text ++ " " ++ m.name ++ "(" ++ ", ".intercalate (m.params.map Slot.text) ++ ") \x7b"

def instrLine : Instr → String
  | .mark label => " " ++ (Instr.mark label).text
  | instr => "    " ++ instr.text

def localLines : (slot : Nat) → List Slot → List String
  | _, [] => []
  | n, slot :: slots => ("  .local " ++ toString n ++ " " ++ slot.text) :: localLines (n + 1) slots

def lines (m : Method) : List String :=
  [m.headline] ++ localLines 0 m.locals ++ m.code.map instrLine ++ ["\x7d"]

end Method

def indented (indent : String) (lines : List String) : List String := lines.map (indent ++ ·)

def Class.lines (c : Class) : List String :=
  ["  class " ++ c.name ++ " \x7b"] ++ c.fields.map (fun field => "    field " ++ field.text) ++
    indented "    " c.ctor.lines ++ ["  \x7d", ""]

namespace Module

def lines (m : Module) : List String :=
  ["; Module: " ++ m.name,
    s!"; Classes: {m.classes.length}, Methods: {m.methods.length}"] ++
    (m.entry.map ("; Entry: " ++ ·)).toList ++
    ["", "class " ++ m.name ++ " \x7b"] ++
    m.classes.flatMap Class.lines ++
    m.statics.map (fun field => "  static field " ++ field.text) ++
    m.methods.flatMap (fun method => "" :: indented "  " method.lines) ++ ["\x7d"]

def listing (m : Module) : String := String.join (m.lines.map (· ++ "\n"))

end Module

end StackCode.Code
