import StackCode.Proofs.Arrays.Creation
import StackCode.Proofs.Evaluation.Pieces

namespace StackCode

open Code Emit

namespace Platform

/-- A place outside of the slots of a method. -/
inductive Spot (Data : Type) where
  | static (name : String)
  | field (object : Data) (className name : String)
  | item (list : Data) (elem : Ty) (index : Int32)
deriving DecidableEq

inductive Place (Data : Type) where
  | slot (slot : Nat)
  | spot (spot : Spot Data)

namespace Spot

variable {Data : Type}

def getter : Spot Data → Service
  | .static name => .getStatic name
  | .field _ className name => .getField className name
  | .item _ elem _ => .member .getItem elem

def setter : Spot Data → Service
  | .static name => .setStatic name
  | .field _ className name => .setField className name
  | .item _ elem _ => .member .setItem elem

def operands : Spot Data → List (Value Data)
  | .static _ => []
  | .field object _ _ => [.data object]
  | .item list _ index => [.data list, .word index]

end Spot

/-- What is expected of a machine about statics, fields and the elements of lists. A place that there is
not, such as an element behind the end of its list, has no content; which values a place takes is up to
the machine. -/
structure Memory (P : Platform) where
  content : P.World → Spot P.Data → Option (Value P.Data)
  Takes : P.World → Spot P.Data → Value P.Data → Prop
  Rest : Type
  rest : P.World → Rest
  gets : ∀ spot world value, content world spot = some value →
    P.serve spot.getter spot.operands world = some (value, world)
  sets : ∀ spot world value, Takes world spot value → ∃ given world',
    P.serve spot.setter (spot.operands ++ [value]) world = some (given, world') ∧
    content world' spot = some value ∧
    (∀ other, other ≠ spot → content world' other = content world other) ∧ rest world' = rest world

/-- An expression is evaluated as its own code does it. A frame tells which: it is the one in which
generation comes to the expression. -/
def Evaluates (P : Platform) (built : Module) (env : Env) (frame : Frame) (e : Expr) (s : P.State)
    (value : Value P.Data) (s' : P.State) (after : Frame) : Prop :=
  ∃ code, (e.emit env).Yields frame code after ∧ P.Passes built code s [value] s'

/-- How far the selectors of a designator have been followed. -/
structure Cursor (P : Platform) where
  frame : Frame
  tag : Tag
  value : Value P.Data
  state : P.State

end Platform

def Home.place (Data : Type) : Home → Option (Platform.Place Data)
  | .slot i _ => some (.slot i)
  | .static name _ => some (.spot (.static name))
  | .constant _ => none

def StepOp.stepped (n : Int32) : StepOp → Int32
  | .increment => n + 1
  | .decrement => n - 1

namespace Platform.Memory

variable {P : Platform} (M : P.Memory) (built : Module) (env : Env)

def read (state : P.State) : Place P.Data → Option (Value P.Data)
  | .slot slot => some (state.locals slot)
  | .spot spot => M.content state.world spot

def takes (state : P.State) : Place P.Data → Value P.Data → Prop
  | .slot _, _ => True
  | .spot spot, value => M.Takes state.world spot value

/-- From one state to the other, a place has got a value and nothing else has changed, the slots from
`slots` on apart. -/
structure Writes (slots : Nat) (place : Place P.Data) (value : Value P.Data) (s t : P.State) : Prop where
  written : M.read t place = some value
  spots : ∀ spot, place ≠ .spot spot → M.content t.world spot = M.content s.world spot
  locals : ∀ slot, place ≠ .slot slot → slot < slots → t.locals slot = s.locals slot
  rest : M.rest t.world = M.rest s.world
  args : t.args = s.args

def held (state : P.State) : Home → Option (Value P.Data)
  | .slot i _ => some (state.locals i)
  | .static name _ => M.content state.world (.static name)
  | .constant value => some (P.literal value)

/-- Selectors are followed from left to right, and the index of an element is evaluated when its list
is known. -/
inductive Selects : P.Cursor → List Selector → P.Cursor → Prop
  | nil {here} : Selects here [] here
  | field {frame tag object s name className member value rest there}
      (named : env.classNamed tag = .ok className) (typed : env.memberType tag name.name = .ok member)
      (found : M.content s.world (.field object className name.name) = some value)
      (goesOn : Selects ⟨frame, member, value, s⟩ rest there) :
      Selects ⟨frame, tag, .data object, s⟩ (.field name :: rest) there
  | index {frame mid tag list s s₁ e i elem value rest there}
      (indexed : P.Evaluates built env frame e s (.word i) s₁ mid)
      (typed : env.type tag.element = .ok elem)
      (found : M.content s₁.world (.item list elem i) = some value)
      (goesOn : Selects ⟨mid, tag.element, value, s₁⟩ rest there) :
      Selects ⟨frame, tag, .data list, s⟩ (.index e :: rest) there

/-- The object or list behind all selectors but the last. -/
def Contains (frame : Frame) (target : Designator) (s : P.State) (there : P.Cursor) : Prop :=
  ∃ home value, env.home frame target.base.name = .ok home ∧ M.held s home = some value ∧
    M.Selects built env ⟨frame, home.tag, value, s⟩ target.selectors.dropLast there

/-- A target designates a place once what is in it has been evaluated. If it is to be `kept`, because
its content is read as well, the list is put into a slot before the index is evaluated. -/
inductive Designates (frame : Frame) (target : Designator) (s : P.State) :
    (kept : Bool) → Place P.Data → Frame → P.State → Prop
  | name {kept home place} (bare : target.selectors.getLast? = none)
      (found : env.home frame target.base.name = .ok home) (placed : home.place P.Data = some place) :
      Designates frame target s kept place frame s
  | field {kept name mid tag object className s'}
      (last : target.selectors.getLast? = some (.field name))
      (contained : M.Contains built env frame target s ⟨mid, tag, .data object, s'⟩)
      (named : env.classNamed tag = .ok className) :
      Designates frame target s kept (.spot (.field object className name.name)) mid s'
  | item {e mid tag list elem i after s₁ s'} (last : target.selectors.getLast? = some (.index e))
      (contained : M.Contains built env frame target s ⟨mid, tag, .data list, s₁⟩)
      (typed : env.type tag.element = .ok elem)
      (indexed : P.Evaluates built env mid e s₁ (.word i) s' after) :
      Designates frame target s false (.spot (.item list elem i)) after s'
  | keptItem {e mid tag list elem type i after s₁ s'}
      (last : target.selectors.getLast? = some (.index e))
      (contained : M.Contains built env frame target s ⟨mid, tag, .data list, s₁⟩)
      (typed : env.type tag.element = .ok elem) (held : env.type tag = .ok type)
      (indexed : P.Evaluates built env (mid.withTemp type) e
        (s₁.keep mid.locals.length (.data list)) (.word i) s' after) :
      Designates frame target s true (.spot (.item list elem i)) after s'

/-- A statement that writes designates a place and finds the value for it, in this order. That is done
in the last state, in which the place takes the value. -/
inductive Prepares (frame : Frame) (s : P.State) : Stmt → Place P.Data → Value P.Data → P.State → Prop
  | assign {target e span place mid after value s₁ s'}
      (designated : M.Designates built env frame target s false place mid s₁)
      (evaluated : P.Evaluates built env mid e s₁ value s' after) (taken : M.takes s' place value) :
      Prepares frame s (.assign target e span) place value s'
  | read {target span place mid value s₁ s'}
      (designated : M.Designates built env frame target s false place mid s₁)
      (input : P.Passes built readCode s₁ [value] s') (taken : M.takes s' place value) :
      Prepares frame s (.read target span) place value s'
  | increment {target span place mid n s'}
      (designated : M.Designates built env frame target s true place mid s')
      (found : M.read s' place = some (.word n)) (taken : M.takes s' place (.word (n + 1))) :
      Prepares frame s (.increment target span) place (.word (n + 1)) s'
  | decrement {target span place mid n s'}
      (designated : M.Designates built env frame target s true place mid s')
      (found : M.read s' place = some (.word n)) (taken : M.takes s' place (.word (n - 1))) :
      Prepares frame s (.decrement target span) place (.word (n - 1)) s'

end Platform.Memory

end StackCode
