import StackCode.Code.Instr

namespace StackCode.Code

inductive MethodKind where
  | static
  | constructor
deriving DecidableEq, Repr

structure Slot where
  name : String
  type : Ty
deriving DecidableEq, Repr

structure Method where
  name : String
  kind : MethodKind := .static
  params : List Slot := []
  result : Ty := .void
  locals : List Slot := []
  code : List Instr := []
  labelCount : Nat := 0
deriving DecidableEq, Repr

namespace Method

def newLabel (m : Method) : Label × Method :=
  (⟨m.labelCount⟩, { m with labelCount := m.labelCount + 1 })

def emit (m : Method) (instr : Instr) : Method := { m with code := m.code ++ [instr] }

def isResolved (m : Method) : Bool :=
  m.code.all fun instr =>
    match instr with
    | .mark label => label.number < m.labelCount
    | instr => instr.target?.all fun label => m.code.count (.mark label) == 1

end Method

structure Class where
  name : String
  fields : List Slot
  ctor : Method
deriving DecidableEq, Repr

def Class.plain (name : String) (fields : List Slot) : Class :=
  { name, fields
    ctor := { name := ".ctor", kind := .constructor, code := [.ldarg 0, .callBaseCtor, .ret] } }

structure Module where
  name : String
  classes : List Class := []
  statics : List Slot := []
  methods : List Method := []
  entry : Option String := none
deriving DecidableEq, Repr

namespace Module

def method? (m : Module) (name : String) : Option Method := m.methods.find? (·.name == name)

def size (m : Module) : Nat :=
  (m.classes.map (·.ctor.code) ++ m.methods.map (·.code)).foldr (·.length + ·) 0

end Module

end StackCode.Code
