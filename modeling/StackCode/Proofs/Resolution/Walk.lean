import StackCode.Proofs.Generation.Contract
import StackCode.Proofs.Strict.Statements
import StackCode.Proofs.Typing.Reports

namespace StackCode

open Checking Emit

/-- A point of a method: the table in which the check looks names up there, the frame in which
generation does, and what is looked up. -/
structure Spot where
  table : SymbolTable
  frame : Frame
  uses : List Use

/-- What is met on the way through a method. A declaration is the position of its symbol in the
history and the slot that generation takes for it. -/
structure Walk where
  declared : List (Nat × Nat) := []
  spots : List Spot := []

namespace Walk

instance : Append Walk := ⟨fun v w => ⟨v.declared ++ w.declared, v.spots ++ w.spots⟩⟩

def here (state : CheckState) (frame : Frame) (uses : List Use) : Walk :=
  { spots := [⟨state.table, frame, uses⟩] }

/-- The walk behind a part for which code is generated; there is none if generation fails. -/
def behind {α : Type} (part : Emit α) (frame : Frame) (next : Frame → Walk) : Walk :=
  match part.outcome frame with
  | (.ok _, after) => next after
  | (.error _, _) => {}

def declaring : List (Checking Unit × Emit Nat) → CheckState → Frame →
    (CheckState → Frame → Walk) → Walk
  | [], state, frame, next => next state frame
  | (declare, allocate) :: rest, state, frame, next => behind allocate frame fun after =>
    { declared := [(state.table.history.size, frame.locals.length)] } ++
      declaring rest (declare.outcome state).2 after next

end Walk

def checkTest : Option Condition → Checking Unit
  | some cond => note fun table => cond.check table
  | none => pure ()

def testUses : Option Condition → List Use
  | some cond => cond.uses
  | none => []

def emitSelector (env : Env) (selector : Expr) : Emit Nat := do
  let tag ← env.nodeType selector.id
  discard (selector.emit env)
  temp env tag

def VarDecl.steps (env : Env) (decl : VarDecl) (type tag : Tag) : List (Checking Unit × Emit Nat) :=
  decl.names.map fun name => (declareNames type .localVar decl.span [name], newLocal env name.name tag)

def paramSteps (env : Env) (params : List Param) (tags : List (String × Tag)) :
    List (Checking Unit × Emit Nat) :=
  (params.zip tags).map fun (param, name, tag) => (declareParams [param], newLocal env name tag)

open Walk

mutual

def Stmt.walk (env : Env) : Stmt → CheckState → Frame → Walk
  | .assign target value _, state, frame => here state frame (target.uses ++ value.uses)
  | .call _ args _, state, frame => here state frame (exprsUses args)
  | .increment target _, state, frame | .decrement target _, state, frame
  | .read target _, state, frame => here state frame target.uses
  | .write value _ _, state, frame => here state frame value.uses
  | .returnStmt (some value) _, state, frame => here state frame value.uses
  | .returnStmt none _, _, _ | .breakStmt _, _, _ | .empty _, _, _ => {}
  | .branch cond onTrue onFalse _, state, frame =>
    let labelled := frame.withLabels (if onFalse.isSome then 2 else 1)
    let tested := ((note fun table => cond.check table).outcome state).2
    here state labelled cond.uses ++ behind (cond.emit env) labelled fun frame =>
      onTrue.walk env tested frame ++ behind (onTrue.emit env) frame fun frame =>
        walkOption env onFalse (onTrue.check.outcome tested).2 frame
  | .whileLoop cond body _, state, frame =>
    let labelled := frame.withLabels 2
    let tested := ((note fun table => cond.check table).outcome state).2
    here state labelled cond.uses ++ behind (cond.emit env) labelled fun mid =>
      body.walk env (enterLoop.outcome tested).2 (mid.breaking ⟨frame.labelCount + 1⟩)
  | .forLoop init cond update body _, state, frame =>
    -- The check comes to the condition and the update before the body, generation behind it.
    let labelled := frame.withLabels 3
    let begun := ((checkOption init).outcome state).2
    let tested := ((checkTest cond).outcome begun).2
    let updated := ((checkOption update).outcome tested).2
    walkOption env init state labelled ++ behind (emitOptional env init) labelled fun first =>
      let inside := first.breaking ⟨frame.labelCount + 2⟩
      body.walk env (enterLoop.outcome updated).2 inside ++ behind (body.emit env) inside fun last =>
        walkOption env update tested last.unbroken ++
          behind (emitOptional env update) last.unbroken fun bottom =>
            here begun bottom (testUses cond)
  | .switch selector cases default span, state, frame =>
    let selected := (checkSelector selector span).outcome state
    let entered := (enterSwitch.outcome selected.2).2
    here state frame selector.uses ++ behind (emitSelector env selector) frame fun mid =>
      let inside := (mid.withLabels (switchLabelCount cases default)).breaking ⟨mid.labelCount⟩
      walkCases env selected.1 [] cases entered inside ++
        behind (emitCases env (labelsFrom (mid.labelCount + 1) cases.length) cases) inside fun last =>
          walkDefault env default ((checkCases selected.1 [] cases).outcome entered).2 last
  | .block ⟨items, _⟩, state, frame => walkItems env items (openScope.outcome state).2 frame.opened

def walkOption (env : Env) : Option Stmt → CheckState → Frame → Walk
  | none, _, _ => {}
  | some stmt, state, frame => stmt.walk env state frame

def walkStmts (env : Env) : List Stmt → CheckState → Frame → Walk
  | [], _, _ => {}
  | stmt :: rest, state, frame => stmt.walk env state frame ++ behind (stmt.emit env) frame fun frame =>
    walkStmts env rest (stmt.check.outcome state).2 frame

def walkCases (env : Env) (selector : Tag) :
    (seen : List Literal) → List SwitchCase → CheckState → Frame → Walk
  | _, [], _, _ => {}
  | seen, ⟨label, body, span⟩ :: rest, state, frame =>
    let labelled := ((checkLabel selector seen label span).outcome state).2
    walkStmts env body labelled frame ++ behind (emitStmts env body) frame fun frame =>
      walkCases env selector (label :: seen) rest ((checkStmts body).outcome labelled).2 frame

def walkDefault (env : Env) : Option DefaultCase → CheckState → Frame → Walk
  | none, _, _ => {}
  | some ⟨body, _⟩, state, frame => walkStmts env body state frame

def walkItems (env : Env) : List BlockItem → CheckState → Frame → Walk
  | [], _, _ => {}
  | .var decl :: rest, state, frame => here state frame [.written decl.type] ++
    match env.writtenType decl.type with
    | .error _ => {}
    | .ok tag =>
      let typed := (note (·.namedValueType decl.type)).outcome state
      declaring (decl.steps env typed.1 tag) typed.2 frame fun state frame =>
        walkItems env rest state frame
  | .stmt stmt :: rest, state, frame => stmt.walk env state frame ++ behind (stmt.emit env) frame fun frame =>
    walkItems env rest (stmt.check.outcome state).2 frame

end

def MethodDecl.walk (env : Env) (decl : MethodDecl) (state : CheckState) : Walk :=
  match env.params decl.params with
  | .error _ => {}
  | .ok (tags, _) =>
    declaring (paramSteps env decl.params tags)
      { state with
        table := state.table.openScope, expectedResult := state.table.resultType decl.result }
      { scopes := [[]] } (walkItems env decl.body.items)

def walkMethods (env : Env) : List Item → CheckState → List Walk
  | [], _ => []
  | .method decl :: rest, state => decl.walk env state :: walkMethods env rest (decl.check.outcome state).2
  | _ :: rest, state => walkMethods env rest state

mutual

/-- The places and written types of a statement, in the order in which generation comes to them. -/
def Stmt.uses : Stmt → List Use
  | .assign target value _ => target.uses ++ value.uses
  | .call _ args _ => exprsUses args
  | .increment target _ | .decrement target _ | .read target _ => target.uses
  | .write value _ _ | .returnStmt (some value) _ => value.uses
  | .returnStmt none _ | .breakStmt _ | .empty _ => []
  | .branch cond onTrue onFalse _ => cond.uses ++ (onTrue.uses ++ optionUses onFalse)
  | .whileLoop cond body _ => cond.uses ++ body.uses
  | .forLoop init cond update body _ =>
    optionUses init ++ (body.uses ++ (optionUses update ++ testUses cond))
  | .switch selector cases default _ => selector.uses ++ (casesUses cases ++ defaultUses default)
  | .block ⟨items, _⟩ => itemsUses items

def optionUses : Option Stmt → List Use
  | none => []
  | some stmt => stmt.uses

def stmtsUses : List Stmt → List Use
  | [] => []
  | stmt :: rest => stmt.uses ++ stmtsUses rest

def casesUses : List SwitchCase → List Use
  | [] => []
  | ⟨_, body, _⟩ :: rest => stmtsUses body ++ casesUses rest

def defaultUses : Option DefaultCase → List Use
  | none => []
  | some ⟨body, _⟩ => stmtsUses body

def itemsUses : List BlockItem → List Use
  | [] => []
  | .var decl :: rest => .written decl.type :: itemsUses rest
  | .stmt stmt :: rest => stmt.uses ++ itemsUses rest

end

section Uses

variable {env : Env}

namespace Walk

def uses (walk : Walk) : List Use := walk.spots.flatMap Spot.uses

/-- The walk along a part for which code is generated comes to the uses. -/
def Meets (part : Emit Piece) (walk : CheckState → Frame → Walk) (uses : List Use) : Prop :=
  ∀ {state frame code after}, part.Yields frame code after → (walk state frame).uses = uses

@[simp]
theorem uses_append (v w : Walk) : (v ++ w).uses = v.uses ++ w.uses := List.flatMap_append

@[simp]
theorem uses_here (state : CheckState) (frame : Frame) (uses : List Use) :
    (here state frame uses).uses = uses := List.append_nil _

@[simp]
theorem uses_empty : uses {} = [] := rfl

theorem behind_yields {α : Type} {part : Emit α} {a : α} {frame after : Frame} {next : Frame → Walk}
    (emitted : part.Yields frame a after) : behind part frame next = next after := by
  rw [behind, show part.outcome frame = _ from emitted]

variable {next : CheckState → Frame → Walk}

theorem uses_declaring {declare : Checking Unit} {name : String} {tag : Tag} {type : Code.Ty}
    {rest : List (Checking Unit × Emit Nat)} {state : CheckState} {frame : Frame}
    (typed : env.type tag = .ok type) (room : frame.locals.length < slotLimit) :
    (declaring ((declare, newLocal env name tag) :: rest) state frame next).uses =
      (declaring rest (declare.outcome state).2 (frame.withLocal name type tag) next).uses := by
  have allocated : (newLocal env name tag).Yields frame _ (frame.withLocal name type tag) :=
    yields_newLocal.mpr ⟨type, typed, room, rfl, rfl⟩
  rw [declaring, behind_yields allocated, uses_append]
  rfl

variable {uses : List Use} {after : Frame} (more : ∀ state, (next state after).uses = uses)

include more

theorem uses_locals {f : Ident → Checking Unit} {tag : Tag} :
    ∀ {names : List Ident} {state : CheckState} {frame : Frame},
    (emitLocals env tag names).Yields frame () after → (declaring (names.map fun name =>
      (f name, newLocal env name.name tag)) state frame next).uses = uses
  | [], state, _, emitted => by
    obtain rfl := emitLocals_nil_yields.mp emitted
    exact more state
  | name :: names, _, frame, emitted => by
    obtain ⟨type, typed, room, emitted⟩ := emitLocals_cons_yields.mp emitted
    rw [List.map_cons, uses_declaring typed room, uses_locals emitted]

theorem uses_params : ∀ {params : List Param} {tags : List (String × Tag)} {slots : List Code.Slot} {i : Nat}
    {state : CheckState} {frame : Frame} {code : Piece}, env.params params = .ok (tags, slots) →
    (emitParams env i tags).Yields frame code after →
    (declaring (paramSteps env params tags) state frame next).uses = uses
  | [], _, _, _, state, _, _, listed, emitted => by
    cases listed
    obtain ⟨_, rfl⟩ := emitParams_nil_yields.mp emitted
    exact more state
  | param :: params, _, _, _, _, frame, _, listed, emitted => by
    simp only [Env.params, bind_eq_ok, pure_eq_ok, Prod.exists, Prod.mk.injEq] at listed
    obtain ⟨tag, _, type, _, _, _, others, rfl, _⟩ := listed
    obtain ⟨type, _, typed, room, emitted, _⟩ := emitParams_cons_yields.mp emitted
    rw [paramSteps, List.zip_cons_cons, List.map_cons, uses_declaring typed room]
    exact uses_params others emitted

end Walk

mutual

theorem Stmt.walk_meets : ∀ stmt : Stmt, Meets (stmt.emit env) (stmt.walk env) stmt.uses
  | .assign .. | .call .. | .increment .. | .decrement .. | .read .. | .write ..
  | .returnStmt (some _) _ => fun _ => uses_here ..
  | .returnStmt none _ | .breakStmt _ | .empty _ => fun _ => rfl
  | .branch _ onTrue (some onFalse) _ => fun emitted => by
    obtain ⟨_, _, _, _, _, tested, yes, no, _⟩ := Stmt.emit_branch_yields.mp emitted
    simp [Stmt.walk, Stmt.uses, optionUses, walkOption, behind_yields tested, behind_yields yes,
      onTrue.walk_meets yes, onFalse.walk_meets no]
  | .branch _ onTrue none _ => fun emitted => by
    obtain ⟨_, _, _, tested, yes, _⟩ := Stmt.emit_when_yields.mp emitted
    simp [Stmt.walk, Stmt.uses, optionUses, walkOption, behind_yields tested, behind_yields yes,
      onTrue.walk_meets yes]
  | .whileLoop _ body _ => fun emitted => by
    obtain ⟨_, _, _, _, tested, looped, _⟩ := Stmt.emit_while_yields.mp emitted
    simp [Stmt.walk, Stmt.uses, behind_yields tested, body.walk_meets looped]
  | .forLoop init _ update body _ => fun emitted => by
    obtain ⟨_, _, _, _, _, _, _, first, looped, updated, _⟩ := Stmt.emit_for_yields.mp emitted
    simp [Stmt.walk, Stmt.uses, behind_yields first, behind_yields looped, behind_yields updated,
      walkOption_meets init first, body.walk_meets looped, walkOption_meets update updated]
  | .switch selector cases default _ => fun emitted => by
    obtain ⟨tag, _, mid, type, _, _, _, _, _, noted, selected, typed, room, _, cased, defaulted, _⟩ :=
      Stmt.emit_switch_yields.mp emitted
    have chosen : (emitSelector env selector).Yields _ _ (mid.withTemp type) :=
      yields_bind.mpr ⟨tag, _, yields_lift.mpr ⟨noted, rfl⟩, yields_bind.mpr ⟨(), mid,
        yields_discard.mpr ⟨_, selected⟩, yields_temp.mpr ⟨type, typed, room, rfl, rfl⟩⟩⟩
    have labels : (mid.withTemp type).labelCount = mid.labelCount := rfl
    simp [Stmt.walk, Stmt.uses, behind_yields chosen, labels, behind_yields cased,
      walkCases_meets cases cased, walkDefault_meets default defaulted]
  | .block ⟨items, _⟩ => fun emitted => by
    obtain ⟨_, emitted, _⟩ := Stmt.emit_block_yields.mp emitted
    exact walkItems_meets items emitted

theorem walkOption_meets : ∀ stmt : Option Stmt,
    Meets (emitOptional env stmt) (walkOption env stmt) (optionUses stmt)
  | none => fun _ => rfl
  | some stmt => stmt.walk_meets

theorem walkStmts_meets : ∀ stmts : List Stmt,
    Meets (emitStmts env stmts) (walkStmts env stmts) (stmtsUses stmts)
  | [] => fun _ => rfl
  | stmt :: rest => fun emitted => by
    obtain ⟨_, _, _, first, others, _⟩ := emitStmts_cons_yields.mp emitted
    simp [walkStmts, stmtsUses, behind_yields first, stmt.walk_meets first, walkStmts_meets rest others]

theorem walkCases_meets : ∀ (cases : List SwitchCase) {selector : Tag} {seen : List Literal} {n : Nat},
    Meets (emitCases env (labelsFrom n cases.length) cases) (walkCases env selector seen cases)
      (casesUses cases)
  | [], _, _, _ => fun _ => rfl
  | ⟨_, body, _⟩ :: rest, _, _, _ => fun emitted => by
    obtain ⟨_, _, _, first, others, _⟩ := emitCases_cons_yields.mp emitted
    simp [walkCases, casesUses, behind_yields first, walkStmts_meets body first,
      walkCases_meets rest others]

theorem walkDefault_meets : ∀ (default : Option DefaultCase) {label : Code.Label},
    Meets (emitDefault env label default) (walkDefault env default) (defaultUses default)
  | none, _ => fun _ => rfl
  | some ⟨body, _⟩, _ => fun emitted => by
    obtain ⟨_, emitted, _⟩ := emitDefault_some_yields.mp emitted
    exact walkStmts_meets body emitted

theorem walkItems_meets : ∀ items : List BlockItem,
    Meets (emitItems env items) (walkItems env items) (itemsUses items)
  | [] => fun _ => rfl
  | .var decl :: rest => fun emitted => by
    obtain ⟨tag, _, written, declared, others⟩ := emitItems_var_yields.mp emitted
    simp only [walkItems, uses_append, uses_here, written, itemsUses]
    exact congrArg (_ :: ·) (uses_locals (fun _ => walkItems_meets rest others) declared)
  | .stmt stmt :: rest => fun emitted => by
    obtain ⟨_, _, _, first, others, _⟩ := emitItems_stmt_yields.mp emitted
    simp [walkItems, itemsUses, behind_yields first, stmt.walk_meets first, walkItems_meets rest others]

end

end Uses

end StackCode
