import StackCode.Number.Shortest
import StackCode.Text.Quoted

namespace StackCode.Code

inductive Ty where
  | void
  | int32
  | char
  | bool
  | float32
  | float64
  | string
  | classType (name : String)
  | list (elem : Ty)
deriving DecidableEq, Repr, Inhabited

def Ty.text : Ty → String
  | .void => "void"
  | .int32 => "int32"
  | .char => "char"
  | .bool => "bool"
  | .float32 => "float32"
  | .float64 => "float64"
  | .string => "string"
  | .classType name => "class " ++ name
  | .list elem => "List<" ++ elem.text ++ ">"

structure Label where
  number : Nat
deriving DecidableEq, Repr, Inhabited

def Label.text (label : Label) : String := s!"L{label.number}"

inductive ListMethod where
  | getItem
  | setItem
  | count
  | add
  | removeAt
deriving DecidableEq, Repr

def ListMethod.text : ListMethod → String
  | .getItem => "get_Item"
  | .setItem => "set_Item"
  | .count => "get_Count"
  | .add => "Add"
  | .removeAt => "RemoveAt"

inductive HostCall where
  | readLine
  | parseInt
  | write (type : Ty)
  | writePadded (type : Ty)
  | stringEquals
deriving DecidableEq, Repr

def HostCall.text : HostCall → String
  | .readLine => "Console::ReadLine()"
  | .parseInt => "Int32::Parse(string)"
  | .write type => "Console::Write(" ++ type.text ++ ")"
  | .writePadded type => "Console::WritePadded(" ++ type.text ++ ", int32)"
  | .stringEquals => "String::Equals(string, string)"

inductive Instr where
  | ldcI4 (value : Int32)
  | ldcR4 (value : Number.Rounded .single)
  | ldcR8 (value : Number.Double)
  | ldstr (text : String)
  | ldnull
  | ldloc (slot : Nat)
  | stloc (slot : Nat)
  | ldarg (index : Nat)
  | ldsfld (name : String)
  | stsfld (name : String)
  | ldfld (className field : String)
  | stfld (className field : String)
  | newobj (className : String)
  | newlist (elem : Ty) (sized : Bool)
  | add
  | sub
  | mul
  | div
  | rem
  | neg
  | and
  | or
  | ceq
  | cgt
  | clt
  | convI4
  | convR4
  | convR8
  | convU2
  | br (target : Label)
  | brtrue (target : Label)
  | brfalse (target : Label)
  | beq (target : Label)
  | mark (label : Label)
  | ret
  | call (method : String) (argc : Nat)
  | callvirt (method : ListMethod) (elem : Ty)
  | callHost (host : HostCall)
  | callBaseCtor
  | dup
  | pop
deriving DecidableEq, Repr

namespace Instr

def target? : Instr → Option Label
  | .br label | .brtrue label | .brfalse label | .beq label => some label
  | _ => none

def text : Instr → String
  | .ldcI4 value => "ldc.i4 " ++ toString value.toInt
  | .ldcR4 value => "ldc.r4 " ++ value.write .listing
  | .ldcR8 value => "ldc.r8 " ++ value.write .listing
  | .ldstr text => "ldstr \"" ++ String.ofList (Text.escape text.toList) ++ "\""
  | .ldnull => "ldnull"
  | .ldloc slot => s!"ldloc {slot}"
  | .stloc slot => s!"stloc {slot}"
  | .ldarg index => s!"ldarg {index}"
  | .ldsfld name => "ldsfld " ++ name
  | .stsfld name => "stsfld " ++ name
  | .ldfld className field => "ldfld " ++ className ++ "::" ++ field
  | .stfld className field => "stfld " ++ className ++ "::" ++ field
  | .newobj className => "newobj " ++ className ++ "::.ctor()"
  | .newlist elem sized => "newlist List<" ++ elem.text ++ ">" ++ if sized then "(int32)" else "()"
  | .add => "add"
  | .sub => "sub"
  | .mul => "mul"
  | .div => "div"
  | .rem => "rem"
  | .neg => "neg"
  | .and => "and"
  | .or => "or"
  | .ceq => "ceq"
  | .cgt => "cgt"
  | .clt => "clt"
  | .convI4 => "conv.i4"
  | .convR4 => "conv.r4"
  | .convR8 => "conv.r8"
  | .convU2 => "conv.u2"
  | .br target => "br " ++ target.text
  | .brtrue target => "brtrue " ++ target.text
  | .brfalse target => "brfalse " ++ target.text
  | .beq target => "beq " ++ target.text
  | .mark label => label.text ++ ":"
  | .ret => "ret"
  | .call method argc => s!"call {method}/{argc}"
  | .callvirt method elem => "callvirt List<" ++ elem.text ++ ">::" ++ method.text
  | .callHost host => "call " ++ host.text
  | .callBaseCtor => "call Object::.ctor()"
  | .dup => "dup"
  | .pop => "pop"

end Instr

end StackCode.Code
