import Mathlib
import StackCode.Emit.Expr

namespace StackCode

open Code

inductive Service where
  | call (method : String)
  | member (method : ListMethod) (elem : Ty)
  | host (call : HostCall)
  | getStatic (name : String)
  | setStatic (name : String)
  | getField (className field : String)
  | setField (className field : String)
  | newObject (className : String)
  | newList (elem : Ty) (sized : Bool)

inductive Value (Data : Type) where
  | word (n : Int32)
  | data (d : Data)

inductive Arith where
  | add
  | sub
  | mul
  | div
  | rem

def AddOp.arith : AddOp → Arith
  | .add => .add
  | .sub => .sub

def MulOp.arith : MulOp → Arith
  | .mul => .mul
  | .div => .div
  | .rem => .rem

/-- Sums, differences and products wrap around; a division by zero or out of range is an error. -/
def Arith.words (a b : Int32) : Arith → Option Int32
  | .add => some (a + b)
  | .sub => some (a - b)
  | .mul => some (a * b)
  | .div => if b = 0 ∨ (a = Int32.minValue ∧ b = -1) then none else some (a / b)
  | .rem => if b = 0 ∨ (a = Int32.minValue ∧ b = -1) then none else some (a % b)

/-- What is left open about the machine. An operation without a result is an error at run time. -/
structure Platform where
  Data : Type
  World : Type
  single : Number.Rounded .single → Data
  double : Number.Double → Data
  text : String → Data
  null : Data
  arith : Arith → Data → Data → Option Data
  negate : Data → Option Data
  equal : Data → Data → Option Bool
  less : Data → Data → Option Bool
  greater : Data → Data → Option Bool
  sameText : Data → Data → World → Option Bool
  toInt : Data → Option Int32
  toChar : Data → Option Int32
  toSingle : Value Data → Option Data
  toDouble : Value Data → Option Data
  serve : Service → List (Value Data) → World → Option (Value Data × World)

def Value.truth {Data : Type} (b : Bool) : Value Data := .word (if b then 1 else 0)

namespace Platform

variable (P : Platform)

structure State where
  locals : Nat → Value P.Data
  args : List (Value P.Data)
  world : P.World

abbrev Action (α : Type) := StateT P.State Option α

def serving (service : Service) (args : List (Value P.Data)) : P.Action (Value P.Data) := do
  let state ← get
  let (value, world) ← P.serve service args state.world
  set { state with world }
  return value

def compute (op : Arith) : Value P.Data → Value P.Data → Option (Value P.Data)
  | .word a, .word b => (op.words a b).map .word
  | .data a, .data b => (P.arith op a b).map .data
  | _, _ => none

def negated : Value P.Data → Option (Value P.Data)
  | .word a => some (.word (-a))
  | .data a => (P.negate a).map .data

def comparing (words : Int32 → Int32 → Bool) (others : P.Data → P.Data → Option Bool) :
    Value P.Data → Value P.Data → Option (Value P.Data)
  | .word a, .word b => some (.truth (words a b))
  | .data a, .data b => (others a b).map .truth
  | _, _ => none

def joined (bits : Int32 → Int32 → Int32) : Value P.Data → Value P.Data → Option (Value P.Data)
  | .word a, .word b => some (.word (bits a b))
  | _, _ => none

def asInt : Value P.Data → Option (Value P.Data)
  | .word a => some (.word a)
  | .data a => (P.toInt a).map .word

def asChar : Value P.Data → Option (Value P.Data)
  | .word a => some (.word (a &&& 0xFFFF))
  | .data a => (P.toChar a).map .word

def asSingle (value : Value P.Data) : Option (Value P.Data) := (P.toSingle value).map .data

def asDouble (value : Value P.Data) : Option (Value P.Data) := (P.toDouble value).map .data

def sameTexts : Value P.Data → Value P.Data → P.Action Bool
  | .data a, .data b => do P.sameText a b (← get).world
  | _, _ => failure

end Platform

def Code.ListMethod.operands : ListMethod → Nat
  | .count => 1
  | .getItem | .add | .removeAt => 2
  | .setItem => 3

def Code.ListMethod.gives : ListMethod → Bool
  | .getItem | .count => true
  | .setItem | .add | .removeAt => false

def Code.HostCall.operands : HostCall → Nat
  | .readLine => 0
  | .parseInt | .write _ => 1
  | .writePadded _ | .stringEquals => 2

def Code.HostCall.gives : HostCall → Bool
  | .readLine | .parseInt | .stringEquals => true
  | .write _ | .writePadded _ => false

def Code.Module.gives (built : Module) (name : String) : Bool :=
  (built.method? name).any (·.result != .void)

def Code.Instr.operands : Instr → Nat
  | .stloc _ | .stsfld _ | .ldfld _ _ | .newlist _ true | .neg | .convI4 | .convR4 | .convR8
  | .convU2 | .callBaseCtor | .dup | .pop => 1
  | .stfld _ _ | .add | .sub | .mul | .div | .rem | .and | .or | .ceq | .cgt | .clt => 2
  | .call _ argc => argc
  | .callvirt method _ => method.operands
  | .callHost host => host.operands
  | _ => 0

namespace Platform

variable (P : Platform) (built : Module)

def result (gives : Bool) (service : Service) (args : List (Value P.Data)) :
    P.Action (List (Value P.Data)) := do
  let value ← P.serving service args
  return if gives then [value] else []

/-- What an instruction puts in the place of its operands, of which the last is the first in the
list. Branches are not done here. -/
def act : Instr → List (Value P.Data) → P.Action (List (Value P.Data))
  | .ldcI4 n, [] => return [.word n]
  | .ldcR4 x, [] => return [.data (P.single x)]
  | .ldcR8 x, [] => return [.data (P.double x)]
  | .ldstr s, [] => return [.data (P.text s)]
  | .ldnull, [] => return [.data P.null]
  | .ldloc slot, [] => return [(← get).locals slot]
  | .stloc slot, [value] => do
    modify fun state => { state with locals := Function.update state.locals slot value }
    return []
  | .ldarg index, [] => return [← (← get).args[index]?]
  | .ldsfld name, [] => P.result true (.getStatic name) []
  | .stsfld name, [value] => P.result false (.setStatic name) [value]
  | .ldfld className field, [object] => P.result true (.getField className field) [object]
  | .stfld className field, [value, object] =>
    P.result false (.setField className field) [object, value]
  | .newobj className, [] => P.result true (.newObject className) []
  | .newlist elem sized, sizes => P.result true (.newList elem sized) sizes
  | .add, [b, a] => return [← P.compute .add a b]
  | .sub, [b, a] => return [← P.compute .sub a b]
  | .mul, [b, a] => return [← P.compute .mul a b]
  | .div, [b, a] => return [← P.compute .div a b]
  | .rem, [b, a] => return [← P.compute .rem a b]
  | .neg, [a] => return [← P.negated a]
  | .and, [b, a] => return [← P.joined (· &&& ·) a b]
  | .or, [b, a] => return [← P.joined (· ||| ·) a b]
  | .ceq, [b, a] => return [← P.comparing (fun a b => a == b) P.equal a b]
  | .cgt, [b, a] => return [← P.comparing (fun a b => b < a) P.greater a b]
  | .clt, [b, a] => return [← P.comparing (fun a b => a < b) P.less a b]
  | .convI4, [a] => return [← P.asInt a]
  | .convR4, [a] => return [← P.asSingle a]
  | .convR8, [a] => return [← P.asDouble a]
  | .convU2, [a] => return [← P.asChar a]
  | .call method _, args => P.result (built.gives method) (.call method) args.reverse
  | .callvirt method elem, args => P.result method.gives (.member method elem) args.reverse
  | .callHost .stringEquals, [b, a] => return [.truth (← P.sameTexts a b)]
  | .callHost host, args => P.result host.gives (.host host) args.reverse
  | .dup, [a] => return [a, a]
  | .pop, [_] | .callBaseCtor, [_] => return []
  | _, _ => failure

def step (instr : Instr) : List (Value P.Data) × P.State → Option (List (Value P.Data) × P.State)
  | (stack, state) =>
    if instr.operands ≤ stack.length then
      (P.act built instr (stack.take instr.operands) state).map fun (top, state) =>
        (top ++ stack.drop instr.operands, state)
    else none

def exec : Piece → List (Value P.Data) × P.State → Option (List (Value P.Data) × P.State)
  | [], config => some config
  | instr :: rest, config => (P.step built instr config).bind (exec rest)

/-- Code that takes `below` from the stack, whatever is under it, and does what `action` does. The
values that are then in their place are those of which the result consists. -/
def Runs {α : Type} (code : Piece) (below : List (Value P.Data)) (action : P.Action α)
    (shape : α → List (Value P.Data)) : Prop :=
  ∀ stack state, P.exec built code (below ++ stack, state) =
    (action state).map fun (a, state) => (shape a ++ stack, state)

def Gives (code : Piece) (action : P.Action (Value P.Data)) : Prop :=
  P.Runs built code [] action ([·])

end Platform

namespace Platform

variable {P : Platform} {built : Module} {α β : Type} {x y : Piece} {below : List (Value P.Data)}

theorem exec_append (config : List (Value P.Data) × P.State) :
    P.exec built (x ++ y) config = (P.exec built x config).bind (P.exec built y) := by
  induction x generalizing config with
  | nil => rfl
  | cons instr rest ih =>
    rw [List.cons_append, exec, exec, Option.bind_assoc]
    exact congrArg _ (funext ih)

variable {shape : α → List (Value P.Data)}

theorem runs_nil {a : α} (same : shape a = below) : P.Runs built [] below (pure a) shape :=
  fun _ _ => by rw [← same]; rfl

theorem Runs.seq_of {first : P.Action α} {second : α → P.Action β} {shape' : β → List (Value P.Data)}
    (begins : P.Runs built x below first shape)
    (goesOn : ∀ a state state', first state = some (a, state') → P.Runs built y (shape a) (second a) shape') :
    P.Runs built (x ++ y) below (first >>= second) shape' := by
  intro stack state
  rw [exec_append, begins]
  change _ = Option.map _ ((first state).bind fun (a, state) => second a state)
  cases given : first state with
  | none => rfl
  | some result => exact goesOn _ _ _ given stack result.2

theorem Runs.seq {first : P.Action α} {second : α → P.Action β} {shape' : β → List (Value P.Data)}
    (begins : P.Runs built x below first shape) (goesOn : ∀ a, P.Runs built y (shape a) (second a) shape') :
    P.Runs built (x ++ y) below (first >>= second) shape' :=
  begins.seq_of fun a _ _ _ => goesOn a

theorem Runs.above {top : List (Value P.Data)} {action : P.Action α}
    (runs : P.Runs built x top action shape) (under : List (Value P.Data)) :
    P.Runs built x (top ++ under) action fun a => shape a ++ under := by
  intro stack state
  rw [List.append_assoc, runs]
  simp only [List.append_assoc]

theorem Runs.map {action : P.Action α} {f : α → β} {shape : β → List (Value P.Data)}
    (runs : P.Runs built x below action fun a => shape (f a)) :
    P.Runs built x below (do return f (← action)) shape := by
  intro stack state
  rw [runs]
  change _ = Option.map _ ((action state).bind fun (a, state) => some (f a, state))
  rw [Option.map_bind, Option.map_eq_bind]
  rfl

theorem runs_instr {instr : Instr} (operands : instr.operands = below.length) :
    P.Runs built [instr] below (P.act built instr below) id := by
  intro stack state
  simp [exec, step, operands]

theorem runs_value {instr : Instr} {action : P.Action α} (operands : instr.operands = below.length)
    (acts : P.act built instr below = do return shape (← action)) :
    P.Runs built [instr] below action shape := by
  intro stack state
  rw [runs_instr operands, acts]
  change Option.map _ ((action state).bind fun (a, state) => some (shape a, state)) = _
  rw [Option.map_bind, Option.map_eq_bind]
  rfl

theorem Action.lift_comm {γ : Type} (o : Option α) (action : P.Action β) (f : α → β → P.Action γ) :
    (do let a ← o; let b ← action; f a b : P.Action γ) =
      (do let b ← action; let a ← o; f a b) := by
  cases o with
  | some a => rfl
  | none =>
    funext state
    change none = (action state).bind fun _ => none
    rw [Option.bind_fun_none]

end Platform

end StackCode
