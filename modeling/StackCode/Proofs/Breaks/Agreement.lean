import StackCode.Proofs.Account.Statements
import StackCode.Proofs.Breaks.Visits
import StackCode.Proofs.Generation.Contract

namespace StackCode

open Code

theorem Path.left_entered {step : Step} (enters : step.enters = true) (path : Path) :
    Path.left (step :: path) = path :: Path.left path := by
  rw [Path.left, if_pos enters]

section Checked

open Checking

namespace Logging

variable {α β : Type} {level : Nat} {positions more : List (Path × Stmt)}

/-- The visits are to these positions, to each at the depth of its path. -/
structure Counts (visits : List (Visit CheckState)) (positions : List (Path × Stmt)) : Prop where
  positions : visits.map Visit.position = positions
  depth : ∀ v ∈ visits, v.state.depth = v.path.left.length

theorem Counts.append {first second : List (Visit CheckState)} (some : Counts first positions)
    (others : Counts second more) : Counts (first ++ second) (positions ++ more) := by
  constructor
  · rw [List.map_append, some.positions, others.positions]
  · intro v member
    rcases List.mem_append.mp member with old | new
    · exact some.depth v old
    · exact others.depth v new

/-- From a state of this depth the check comes to the statements at `positions`, to each at the
depth of its path; then the depths are as before. -/
structure Tours (level : Nat) (positions : List (Path × Stmt)) (x : Logging CheckState α) : Prop where
  loopDepth : ∀ log, log.state.depth = level → (x.run log).2.state.loopDepth = log.state.loopDepth
  switchDepth : ∀ log, log.state.depth = level → (x.run log).2.state.switchDepth = log.state.switchDepth
  visits : ∀ log, log.state.depth = level →
    ∃ visits, (x.run log).2.visits = log.visits ++ visits ∧ Counts visits positions

theorem Tours.depth {x : Logging CheckState α} (tours : Tours level positions x)
    (log : Logged CheckState) (start : log.state.depth = level) : (x.run log).2.state.depth = level := by
  rw [CheckState.depth, tours.loopDepth log start, tours.switchDepth log start]
  exact start

theorem Tours.bind {x : Logging CheckState α} {k : α → Logging CheckState β}
    (first : Tours level positions x) (second : ∀ a, Tours level more (k a)) :
    Tours level (positions ++ more) (x >>= k) := by
  have run (log : Logged CheckState) : (x >>= k).run log = (k (x.run log).1).run (x.run log).2 := rfl
  constructor <;> intro log start <;> have mid := first.depth log start
  · rw [run, (second _).loopDepth _ mid, first.loopDepth log start]
  · rw [run, (second _).switchDepth _ mid, first.switchDepth log start]
  · obtain ⟨old, before, counted⟩ := first.visits log start
    obtain ⟨new, behind, counted'⟩ := (second (x.run log).1).visits _ mid
    exact ⟨old ++ new, by rw [run, behind, before, List.append_assoc], counted.append counted'⟩

theorem tours_unlogged {f : Checking α} (same : ∀ state,
    (f.outcome state).2.loopDepth = state.loopDepth ∧
      (f.outcome state).2.switchDepth = state.switchDepth) : Tours level [] (unlogged f) := by
  constructor <;> intro log _
  · exact (same log.state).1
  · exact (same log.state).2
  · exact ⟨[], (List.append_nil _).symm, rfl, fun _ none => nomatch none⟩

theorem tours_pure (a : α) : Tours level [] (pure a : Logging CheckState α) :=
  tours_unlogged (f := pure a) fun _ => ⟨rfl, rfl⟩

theorem Tours.after {f : Checking α} {k : α → Logging CheckState β} (same : ∀ state,
    (f.outcome state).2.loopDepth = state.loopDepth ∧
      (f.outcome state).2.switchDepth = state.switchDepth)
    (second : ∀ a, Tours level more (k a)) : Tours level more (unlogged f >>= k) :=
  (tours_unlogged same).bind second

theorem Tours.come {path : Path} {stmt : Stmt} {x : Logging CheckState β}
    (rest : Tours path.left.length positions x) :
    Tours path.left.length ((path, stmt) :: positions) (comes path stmt >>= fun _ => x) := by
  have coming : Tours path.left.length [(path, stmt)] (comes path stmt) := by
    constructor <;> intro log start
    · rfl
    · rfl
    · refine ⟨[⟨path, stmt, log.state⟩], rfl, rfl, fun v member => ?_⟩
      rw [List.mem_singleton.mp member]
      exact start
  exact coming.bind fun _ => rest

variable {x : Logging CheckState Unit}

theorem Tours.deeper (tours : Tours (level + 1) positions x) (loops switches : Nat)
    (one : loops + switches = 1) :
    Tours level positions (do
      unlogged (modify fun state => { state with
        loopDepth := state.loopDepth + loops, switchDepth := state.switchDepth + switches })
      x
      unlogged (modify fun state => { state with
        loopDepth := state.loopDepth - loops, switchDepth := state.switchDepth - switches })) := by
  have deeper (log : Logged CheckState) (start : log.state.depth = level) : ({ log.state with
      loopDepth := log.state.loopDepth + loops
      switchDepth := log.state.switchDepth + switches } : CheckState).depth = level + 1 := by
    simp only [CheckState.depth] at start ⊢
    omega
  constructor <;> intro log start
  · change (x.run { log with state := _ }).2.state.loopDepth - loops = _
    rw [tours.loopDepth _ (deeper log start)]
    exact Nat.add_sub_cancel _ _
  · change (x.run { log with state := _ }).2.state.switchDepth - switches = _
    rw [tours.switchDepth _ (deeper log start)]
    exact Nat.add_sub_cancel _ _
  · exact tours.visits _ (deeper log start)

theorem Tours.inLoop (tours : Tours (level + 1) positions x) :
    Tours level positions (do unlogged enterLoop; x; unlogged leaveLoop) :=
  tours.deeper 1 0 rfl

theorem Tours.inSwitch (tours : Tours (level + 1) positions x) :
    Tours level positions (do unlogged enterSwitch; x; unlogged leaveSwitch) :=
  tours.deeper 0 1 rfl

theorem Tours.inScope (tours : Tours level positions x) :
    Tours level positions (do unlogged openScope; x; unlogged closeScope) := by
  constructor <;> intro log start
  · exact tours.loopDepth _ start
  · exact tours.switchDepth _ start
  · exact tours.visits { log with state := _ } start

end Logging

open Logging

mutual

theorem Stmt.checkLogged_tours (path : Path) : ∀ stmt : Stmt,
    Tours path.left.length ((path, stmt) :: stmt.inner path) (stmt.checkLogged path)
  | .branch _ onTrue onFalse _ =>
    .come <| .after (fun _ => ⟨rfl, rfl⟩) fun _ =>
      (onTrue.checkLogged_tours (.onTrue :: path)).bind fun _ =>
        checkOptionLogged_tours (.onFalse :: path) onFalse
  | .whileLoop _ body _ =>
    .come <| .after (fun _ => ⟨rfl, rfl⟩) fun _ => (body.checkLogged_tours (.body :: path)).inLoop
  | .forLoop init cond update body _ => by
    have rest : Tours path.left.length (optionPositions (.update :: path) update ++
        (.body :: path, body) :: body.inner (.body :: path)) (do
          checkOptionLogged (.update :: path) update
          unlogged enterLoop
          body.checkLogged (.body :: path)
          unlogged leaveLoop) :=
      (checkOptionLogged_tours (.update :: path) update).bind fun _ =>
        (body.checkLogged_tours (.body :: path)).inLoop
    rw [Stmt.checkLogged, Stmt.inner, List.append_assoc]
    refine .come <| (checkOptionLogged_tours (.init :: path) init).bind fun _ => ?_
    cases cond with
    | none => exact rest
    | some cond => exact .after (fun _ => ⟨rfl, rfl⟩) fun _ => rest
  | .switch _ cases default _ =>
    .come <| .after (fun _ => ⟨rfl, rfl⟩) fun type =>
      ((checkCasesLogged_tours type cases).bind fun _ => checkDefaultLogged_tours default).inSwitch
  | .block ⟨items, _⟩ => .come (checkItemsLogged_tours path items).inScope
  | .assign .. | .call .. | .increment .. | .decrement .. | .breakStmt _ | .returnStmt .. | .read ..
  | .write .. | .empty _ => .come (tours_unlogged (Stmt.check_accounts _).level)

theorem checkOptionLogged_tours (path : Path) : ∀ stmt : Option Stmt,
    Tours path.left.length (optionPositions path stmt) (checkOptionLogged path stmt)
  | none => tours_pure ()
  | some stmt => stmt.checkLogged_tours path

theorem checkStmtsLogged_tours {path : Path} {step : Nat → Step} (enters : ∀ j, (step j).enters = true) :
    ∀ (stmts : List Stmt) {i : Nat}, Tours (path.left.length + 1) (stmtsPositions path step i stmts)
      (checkStmtsLogged path step i stmts)
  | [], _ => tours_pure ()
  | stmt :: rest, i => by
    have first := stmt.checkLogged_tours (step i :: path)
    rw [Path.left_entered (enters i)] at first
    exact first.bind fun _ => checkStmtsLogged_tours enters rest

theorem checkCasesLogged_tours {path : Path} (selector : Tag) :
    ∀ (cases : List SwitchCase) {i : Nat} {seen : List Literal},
      Tours (path.left.length + 1) (casesPositions path i cases)
        (checkCasesLogged path selector i seen cases)
  | [], _, _ => tours_pure ()
  | ⟨_, body, _⟩ :: rest, _, _ =>
    .after (fun _ => ⟨rfl, rfl⟩) fun _ => (checkStmtsLogged_tours (fun _ => rfl) body).bind fun _ =>
      checkCasesLogged_tours selector rest

theorem checkDefaultLogged_tours {path : Path} : ∀ default : Option DefaultCase,
    Tours (path.left.length + 1) (defaultPositions path default) (checkDefaultLogged path default)
  | none => tours_pure ()
  | some ⟨body, _⟩ => checkStmtsLogged_tours (fun _ => rfl) body

theorem checkItemsLogged_tours (path : Path) : ∀ (items : List BlockItem) {i : Nat},
    Tours path.left.length (itemsPositions path i items) (checkItemsLogged path i items)
  | [], _ => tours_pure ()
  | .var decl :: rest, _ =>
    .after (decl.declare_accounts .localVar).level fun _ => checkItemsLogged_tours path rest
  | .stmt stmt :: rest, i =>
    (stmt.checkLogged_tours (.item i :: path)).bind fun _ => checkItemsLogged_tours path rest

end

theorem checkMethodsLogged_tours (items : List Item) (i : Nat) :
    Tours 0 (methodsPositions i items) (checkMethodsLogged i items) := by
  induction items generalizing i with
  | nil => exact tours_pure ()
  | cons item rest ih =>
    cases item with
    | method decl =>
      have body : Tours 0 (itemsPositions [.method i] 0 decl.body.items ++ []) (decl.checkLogged i) :=
        .after (fun _ => ⟨rfl, rfl⟩) fun _ => .after (fun _ => ⟨rfl, rfl⟩) fun _ =>
          .after (declareParams_accounts decl.params).level fun _ =>
            (checkItemsLogged_tours [.method i] decl.body.items).bind fun _ =>
              .after (fun _ => ⟨rfl, rfl⟩) fun _ => tours_unlogged fun _ => ⟨rfl, rfl⟩
      rw [List.append_nil] at body
      exact body.bind fun _ => ih (i + 1)
    | const decl | vars decl | classDecl decl => exact ih (i + 1)

theorem Program.checked_counts (program : Program) (entry : String) :
    Counts (program.checked entry) (methodsPositions 0 program.items) := by
  have whole : Tours 0 (methodsPositions 0 program.items ++ []) (program.checkLogged entry) :=
    .after (fun _ => ⟨rfl, rfl⟩) fun _ =>
      .after (declareClasses_accounts program.items).level fun classes =>
      .after (declareFields_remarks classes).level fun _ =>
        .after (declareItems_accounts program.items).level fun _ =>
          (checkMethodsLogged_tours program.items 0).bind fun _ =>
            tours_unlogged fun state => by rw [outcome_checkEntry]; split <;> exact ⟨rfl, rfl⟩
  obtain ⟨visits, run, counts⟩ := whole.visits { state := {} } rfl
  rw [List.append_nil] at counts
  rw [Program.checked, run]
  exact counts

end Checked

section Emitted

open Emit

/-- The label at the end of a statement that a `break` can leave, if its code is generated from this
frame. -/
def Stmt.EndsAt (env : Env) (frame : Frame) : Stmt → Label → Prop
  | .whileLoop .., label => label = ⟨frame.labelCount + 1⟩
  | .forLoop .., label => label = ⟨frame.labelCount + 2⟩
  | .switch selector .., label =>
    ∃ value mid, (selector.emit env).Yields frame value mid ∧ label = ⟨mid.labelCount⟩
  | _, _ => False

theorem Stmt.EndsAt.getLast? {env : Env} {before after : Frame} {code : Piece} {label : Label} :
    ∀ {stmt : Stmt}, stmt.EndsAt env before label → (stmt.emit env).Yields before code after →
      code.getLast? = some (.mark label)
  | .whileLoop .., ends, emitted => by
    obtain ⟨_, _, _, _, _, _, _, rfl⟩ := Stmt.emit_while_yields.mp emitted
    cases ends
    rw [List.getLast?_append]
    rfl
  | .forLoop .., ends, emitted => by
    obtain ⟨_, _, _, _, _, _, _, _, _, _, _, rfl⟩ := Stmt.emit_for_yields.mp emitted
    cases ends
    rw [List.getLast?_append]
    rfl
  | .switch .., ends, emitted => by
    obtain ⟨_, _, _, _, _, _, _, _, _, _, selected, _, _, _, _, _, _, rfl⟩ :=
      Stmt.emit_switch_yields.mp emitted
    obtain ⟨_, _, selected', rfl⟩ := ends
    obtain ⟨rfl, rfl⟩ := selected.unique selected'
    rw [List.getLast?_append]
    rfl

/-- What is around the path is left to the `break` labels of the frame: they are at the ends of the
statements that generation came to there. -/
def Frame.LeavesTo (env : Env) (visits : List (Visit Frame)) (path : Path) (frame : Frame) : Prop :=
  List.Forall₂ (fun label around => ∃ u ∈ visits, u.path = around ∧ u.stmt.EndsAt env u.state label)
    frame.breakLabels path.left

variable {visits : List (Visit Frame)} {frame : Frame}

theorem Frame.LeavesTo.mono {env : Env} {more : List (Visit Frame)} {path : Path} {other : Frame}
    (leaves : frame.LeavesTo env visits path) (sub : visits ⊆ more)
    (same : other.breakLabels = frame.breakLabels) : other.LeavesTo env more path := by
  rw [Frame.LeavesTo, same]
  refine List.Forall₂.imp (fun label around known => ?_) leaves
  obtain ⟨u, member, known⟩ := known
  exact ⟨u, sub member, known⟩

theorem Frame.LeavesTo.entered {env : Env} {path : Path} {step other : Step}
    (leaves : frame.LeavesTo env visits (step :: path)) (enters : step.enters = true)
    (enters' : other.enters = true) : frame.LeavesTo env visits (other :: path) := by
  rw [Frame.LeavesTo, Path.left_entered enters', ← Path.left_entered enters]
  exact leaves

theorem Frame.LeavesTo.innermost {env : Env} {path : Path} {label : Label}
    (leaves : frame.LeavesTo env visits path) (first : frame.breakLabels.head? = some label) :
    ∃ u ∈ visits, path.left.head? = some u.path ∧ u.stmt.EndsAt env u.state label := by
  rw [Frame.LeavesTo] at leaves
  generalize frame.breakLabels = labels at leaves first
  generalize path.left = around at leaves ⊢
  cases leaves with
  | nil => cases first
  | cons innermost _ =>
    cases first
    obtain ⟨u, member, rfl, ends⟩ := innermost
    exact ⟨u, member, rfl, ends⟩

namespace LoggedEmit

variable {α β : Type} {env : Env} {positions more : List (Path × Stmt)} {log : Logged Frame}
  {path : Path}

/-- From this log on, generation comes only to statements at `positions`, to each with the labels of
what is around it; then the labels are as before, also if it fails. -/
structure Rounds (env : Env) (positions : List (Path × Stmt)) (log : Logged Frame) (x : LoggedEmit α) :
    Prop where
  breaks : (x.run.run log).2.state.breakLabels = log.state.breakLabels
  visits : ∃ visits, (x.run.run log).2.visits = log.visits ++ visits ∧
    ∀ w ∈ visits, w.position ∈ positions ∧ w.state.LeavesTo env (log.visits ++ visits) w.path

variable {x : LoggedEmit α}

theorem Rounds.then {k : α → LoggedEmit β} (start : log.state.LeavesTo env log.visits path)
    (first : Rounds env positions log x)
    (second : ∀ a mid, x.run.run log = (.ok a, mid) → log.visits ⊆ mid.visits →
      mid.state.LeavesTo env mid.visits path → Rounds env more mid (k a)) :
    Rounds env (positions ++ more) log (x >>= k) := by
  obtain ⟨breaks, visits, run, known⟩ := first
  have bound := run_bind x k log
  cases ran : x.run.run log with
  | mk result mid =>
    rw [ran] at breaks run bound
    cases result with
    | error cause =>
      constructor <;> rw [bound]
      · exact breaks
      · exact ⟨visits, run, fun w member => (known w member).imp_left (List.mem_append_left _)⟩
    | ok a =>
      have sub : log.visits ⊆ mid.visits := by
        intro v member
        rw [run]
        exact List.mem_append_left visits member
      obtain ⟨breaks', others, run', known'⟩ := second a mid ran sub (start.mono sub breaks)
      constructor <;> rw [bound]
      · exact breaks'.trans breaks
      · rw [run, List.append_assoc] at run' known'
        refine ⟨visits ++ others, run', fun w member => ?_⟩
        rcases List.mem_append.mp member with old | new
        · obtain ⟨inside, leaves⟩ := known w old
          rw [← List.append_assoc]
          exact ⟨List.mem_append_left _ inside, leaves.mono (List.subset_append_left _ _) rfl⟩
        · exact (known' w new).imp_left (List.mem_append_right _)

theorem Rounds.mono (rounds : Rounds env positions log x) (sub : positions ⊆ more) :
    Rounds env more log x := by
  obtain ⟨breaks, visits, run, known⟩ := rounds
  exact ⟨breaks, visits, run, fun w member => (known w member).imp_left (sub ·)⟩

theorem rounds_pure (a : α) : Rounds env positions log (pure a : LoggedEmit α) :=
  ⟨rfl, [], (List.append_nil _).symm, fun _ none => nomatch none⟩

theorem rounds_silent {action : Emit α} {ids : List NodeId} {literals : List Literal}
    (steady : action.Steady env ids literals) :
    Rounds env positions log (silent action) :=
  ⟨(steady log.state).1, [], (List.append_nil _).symm, fun _ none => nomatch none⟩

theorem Rounds.after {action : Emit α} {k : α → LoggedEmit β} {ids : List NodeId} {literals : List Literal}
    (start : log.state.LeavesTo env log.visits path) (steady : action.Steady env ids literals)
    (second : ∀ a frame, action.Yields log.state a frame → frame.LeavesTo env log.visits path →
      Rounds env positions { log with state := frame } (k a)) :
    Rounds env positions log (silent action >>= k) := by
  have silent : Rounds env [] log (silent action) := rounds_silent steady
  refine .then start silent fun a mid run _ leaves => ?_
  obtain ⟨same, rfl⟩ := Prod.mk.inj run
  exact second a _ (Prod.ext same rfl) leaves

theorem Rounds.label {k : Label → LoggedEmit β} (start : log.state.LeavesTo env log.visits path)
    (second : ∀ frame, frame = { log.state with labelCount := log.state.labelCount + 1 } →
      frame.LeavesTo env log.visits path →
      Rounds env positions { log with state := frame } (k ⟨log.state.labelCount⟩)) :
    Rounds env positions log (silent newLabel >>= k) := by
  have steady : newLabel.Steady env [] [] := steady_newLabel
  refine .after start steady fun label frame yields leaves => ?_
  obtain ⟨rfl, counted⟩ := yields_newLabel.mp yields
  exact second frame counted leaves

theorem Rounds.come {stmt : Stmt} (start : log.state.LeavesTo env log.visits path)
    (rest : ∀ log', log'.state = log.state → ⟨path, stmt, log.state⟩ ∈ log'.visits →
      log'.state.LeavesTo env log'.visits path → Rounds env positions log' x) :
    Rounds env ((path, stmt) :: positions) log (comes path stmt >>= fun _ => x) := by
  have grown := start.mono (List.subset_append_left log.visits [⟨path, stmt, log.state⟩]) rfl
  obtain ⟨breaks, visits, run, known⟩ :=
    rest { log with visits := log.visits ++ [⟨path, stmt, log.state⟩] } rfl (by simp) grown
  refine ⟨breaks, ⟨path, stmt, log.state⟩ :: visits, ?_, fun w member => ?_⟩
  · exact run.trans (List.append_assoc _ _ _)
  · rw [List.append_assoc] at known
    rcases List.mem_cons.mp member with here | later
    · rw [here]
      exact ⟨List.mem_cons_self, start.mono (List.subset_append_left _ _) rfl⟩
    · exact (known w later).imp_left (List.mem_cons_of_mem _)

/-- Wherever a `break` leaves what is around the path, generation makes its rounds. -/
def Roams (env : Env) (path : Path) (positions : List (Path × Stmt)) (x : LoggedEmit α) : Prop :=
  ∀ log : Logged Frame, log.state.LeavesTo env log.visits path → Rounds env positions log x

theorem Roams.then {k : α → LoggedEmit β} (first : Roams env path positions x)
    (second : ∀ a, Roams env path more (k a)) : Roams env path (positions ++ more) (x >>= k) :=
  fun log start => .then start (first log start) fun a mid _ _ => second a mid

theorem Rounds.map {f : α → β} (start : log.state.LeavesTo env log.visits path)
    (rounds : Rounds env positions log x) : Rounds env positions log (x >>= fun a => pure (f a)) := by
  have pured : Rounds env (positions ++ []) log (x >>= fun a => pure (f a)) :=
    .then start rounds fun _ _ _ _ _ => rounds_pure _
  rwa [List.append_nil] at pured

theorem Roams.map {f : α → β} (roams : Roams env path positions x) :
    Roams env path positions (x >>= fun a => pure (f a)) :=
  fun log start => .map start (roams log start)

theorem Roams.after {action : Emit α} {k : α → LoggedEmit β} {ids : List NodeId}
    {literals : List Literal} (steady : action.Steady env ids literals)
    (second : ∀ a, Roams env path positions (k a)) : Roams env path positions (silent action >>= k) :=
  fun _ start => .after start steady fun a frame _ start => second a { state := frame, visits := _ } start

theorem Roams.come {stmt : Stmt} (rest : Roams env path positions x) :
    Roams env path ((path, stmt) :: positions) (comes path stmt >>= fun _ => x) :=
  fun _ start => .come start fun log' _ _ => rest log'

theorem Rounds.breakingTo {label : Label} (start : log.state.LeavesTo env log.visits path)
    (ends : ∃ u ∈ log.visits, u.path = path ∧ u.stmt.EndsAt env u.state label)
    (inside : Roams env (.body :: path) positions x) :
    Rounds env positions log (breakingTo label x) := by
  have inner := inside { log with state := log.state.breaking label } (.cons ends start)
  exact ⟨congrArg List.tail inner.breaks, inner.visits⟩

theorem Roams.inBlock (inner : Roams env path positions x) : Roams env path positions (inBlock x) :=
  fun log start =>
    have rounds := inner { log with state := log.state.opened } start
    ⟨rounds.breaks, rounds.visits⟩

end LoggedEmit

open LoggedEmit

variable {env : Env}

theorem emitAgain_steady (start : Label) (cond : Option Condition) :
    ∃ ids literals, (emitAgain env start cond).Steady env ids literals := by
  cases cond with
  | none => exact ⟨[], [], steady_pure _⟩
  | some cond =>
    exact ⟨cond.annotated, cond.literals,
      cond.emit_steady.map _⟩

mutual

theorem Stmt.emitLogged_roams (path : Path) : ∀ stmt : Stmt,
    Roams env path ((path, stmt) :: stmt.inner path) (stmt.emitLogged env path)
  | .branch cond onTrue (some onFalse) _ =>
    .come <| .after (@steady_newLabel env [] []) fun _ => .after (@steady_newLabel env [] []) fun _ =>
      .after cond.emit_steady fun _ => .then (onTrue.emitLogged_roams (.onTrue :: path)) fun _ =>
        .map (onFalse.emitLogged_roams (.onFalse :: path))
  | .branch cond onTrue none _ => by
    rw [Stmt.inner, optionPositions, List.append_nil]
    exact .come <| .after (@steady_newLabel env [] []) fun _ => .after cond.emit_steady fun _ =>
      .map (onTrue.emitLogged_roams (.onTrue :: path))
  | .whileLoop cond body _ => by
    rw [Stmt.emitLogged]
    refine fun log start => .come start fun log' same seen start => .label start fun _ one start =>
      .label start fun _ _ start => .after start cond.emit_steady fun _ _ _ start =>
        .map start (.breakingTo start ⟨_, seen, rfl, ?_⟩ (body.emitLogged_roams _))
    rw [one, same]
    rfl
  | .forLoop init cond update body _ => by
    intro log start
    have steady : ∃ ids literals, (emitAgain env ⟨log.state.labelCount⟩ cond).Steady env ids literals :=
      emitAgain_steady _ cond
    obtain ⟨_, _, again⟩ := steady
    rw [Stmt.emitLogged, Stmt.inner]
    refine .come start fun log' same seen start => .label start fun _ one start =>
      .label start fun _ two start => .label start fun _ _ start => ?_
    rw [List.append_assoc]
    refine .then start (emitOptionalLogged_roams (.init :: path) init _ start) fun _ _ _ old start => ?_
    refine .mono (.then start (.breakingTo start ⟨_, old seen, rfl, ?_⟩ (body.emitLogged_roams _))
      fun _ _ _ _ start => .then start (emitOptionalLogged_roams (.update :: path) update _ start)
        fun _ _ _ _ start => .after start (same ▸ again) fun _ _ _ _ => rounds_pure _)
          (List.append_subset.mpr ⟨List.subset_append_right _ _, List.append_subset.mpr
            ⟨List.subset_append_left _ _, List.nil_subset _⟩⟩)
    rw [two, one, same]
    rfl
  | .switch selector cases default _ => by
    have fallback (finish : Label) :
        (if default.isSome then newLabel else pure finish).Steady env [] [] := by
      split
      · exact steady_newLabel
      · exact steady_pure _
    have dispatch (slot : Nat) (pairs : List (SwitchCase × Label)) :
        (emitDispatch slot pairs).Steady env [] (pairs.map (·.1.label)) :=
      emitDispatch_steady slot pairs fun _ member => List.mem_map_of_mem member
    refine fun log start => .come start fun log' same seen start =>
      .after start (@steady_nodeType env _ [] _ selector.id_mem_annotated) fun _ _ typed start =>
        .after start selector.emit_steady fun value mid selected start =>
          .after start (@steady_temp env [] [] _) fun _ _ temped start => .label start fun _ _ start =>
            .after start (@steady_newLabels env [] [] _) fun _ _ _ start =>
              .after start (fallback _) fun _ _ _ start => .after start (dispatch _ _) fun _ _ _ start =>
                .map start (.breakingTo start ⟨_, seen, rfl, ?_⟩ <|
                  (emitCasesLogged_roams _ cases).then fun _ =>
                    (emitDefaultLogged_roams default _).map)
    obtain ⟨_, rfl⟩ := yields_lift.mp typed
    obtain ⟨_, _, _, _, rfl⟩ := yields_temp.mp temped
    rw [same] at selected
    exact ⟨value, mid, selected, rfl⟩
  | .block ⟨items, _⟩ => .come (emitItemsLogged_roams items).inBlock
  | .assign .. | .call .. | .increment .. | .decrement .. | .breakStmt _ | .returnStmt .. | .read ..
  | .write .. | .empty _ => .come fun _ _ => rounds_silent (Stmt.emit_steady _)

theorem emitOptionalLogged_roams (path : Path) : ∀ stmt : Option Stmt,
    Roams env path (optionPositions path stmt) (emitOptionalLogged env path stmt)
  | none => fun _ _ => rounds_pure _
  | some stmt => stmt.emitLogged_roams path

theorem emitStmtsLogged_roams {path : Path} {step : Nat → Step} (enters : ∀ j, (step j).enters = true) :
    ∀ (stmts : List Stmt) {i : Nat}, Roams env (.body :: path) (stmtsPositions path step i stmts)
      (emitStmtsLogged env path step i stmts)
  | [], _ => fun _ _ => rounds_pure _
  | stmt :: rest, i =>
    have first : Roams env (.body :: path) _ (stmt.emitLogged env (step i :: path)) :=
      fun log start => stmt.emitLogged_roams _ log (start.entered rfl (enters i))
    first.then fun _ => (emitStmtsLogged_roams enters rest).map

theorem emitCasesLogged_roams {path : Path} : ∀ (labels : List Label) (cases : List SwitchCase) {i : Nat},
    Roams env (.body :: path) (casesPositions path i cases) (emitCasesLogged env path i labels cases)
  | label :: labels, ⟨_, body, _⟩ :: rest, _ =>
    (emitStmtsLogged_roams (fun _ => rfl) body).then fun _ => (emitCasesLogged_roams labels rest).map
  | [], _, _ => by
    unfold emitCasesLogged
    exact fun _ _ => rounds_pure _
  | _ :: _, [], _ => by
    unfold emitCasesLogged
    exact fun _ _ => rounds_pure _

theorem emitDefaultLogged_roams {path : Path} : ∀ (default : Option DefaultCase) (label : Label),
    Roams env (.body :: path) (defaultPositions path default) (emitDefaultLogged env path label default)
  | none, _ => fun _ _ => rounds_pure _
  | some ⟨body, _⟩, _ => (emitStmtsLogged_roams (fun _ => rfl) body).map

theorem emitItemsLogged_roams {path : Path} : ∀ (items : List BlockItem) {i : Nat},
    Roams env path (itemsPositions path i items) (emitItemsLogged env path i items)
  | [], _ => fun _ _ => rounds_pure _
  | .var _ :: rest, _ =>
    .after (@steady_writtenType env [] [] _) fun _ => .after (@steady_emitLocals env [] [] _ _) fun _ =>
      emitItemsLogged_roams rest
  | .stmt stmt :: rest, i =>
    .then (stmt.emitLogged_roams (.item i :: path)) fun _ => (emitItemsLogged_roams rest).map

end

theorem emitBodyLogged_rounds (i : Nat) (params : List (String × Tag)) (result : Ty)
    (items : List BlockItem) (log : Logged Frame) (fresh : log.state.breakLabels = []) :
    Rounds env (itemsPositions [.method i] 0 items) log (emitBodyLogged env i params result items) := by
  have params : (emitParams env 0 params).Steady env [] [] := emitParams_steady params
  have start : log.state.LeavesTo env log.visits [.method i] := by
    rw [Frame.LeavesTo, fresh]
    exact .nil
  refine .after start params fun _ _ _ start => .mono (.then start (emitItemsLogged_roams items _ start)
    fun _ _ _ _ _ => ?_) (List.append_subset.mpr ⟨List.Subset.refl _, List.nil_subset _⟩)
  dsimp only
  split <;> exact rounds_pure _

/-- The statements that generation comes to in the method that is the item at a position. -/
def emitted (env : Env) (i : Nat) (params : List (String × Tag)) (result : Ty) (items : List BlockItem) :
    List (Visit Frame) :=
  ((emitBodyLogged env i params result items).run.run { state := { scopes := [[]] } }).2.visits

theorem emitted_leavesTo {i : Nat} {params : List (String × Tag)} {result : Ty} {items : List BlockItem}
    (visit : Visit Frame) (member : visit ∈ emitted env i params result items) :
    visit.position ∈ itemsPositions [.method i] 0 items ∧
      visit.state.LeavesTo env (emitted env i params result items) visit.path := by
  have rounds : Rounds env (itemsPositions [.method i] 0 items) { state := { scopes := [[]] } }
      (emitBodyLogged env i params result items) := emitBodyLogged_rounds i params result items _ rfl
  obtain ⟨visits, run, known⟩ := rounds.visits
  rw [List.nil_append] at run known
  rw [emitted, run] at member ⊢
  exact known visit member

end Emitted

theorem itemsPositions_subset_methodsPositions {items : List Item} {i : Nat} {decl : MethodDecl}
    (found : items[i]? = some (.method decl)) (first : Nat) :
    itemsPositions [.method (first + i)] 0 decl.body.items ⊆ methodsPositions first items := by
  induction items generalizing i first with
  | nil => cases found
  | cons item rest ih =>
    cases i with
    | zero =>
      cases found
      exact List.subset_append_left _ _
    | succ i =>
      have inside := ih found (first + 1)
      rw [Nat.add_right_comm, Nat.add_assoc] at inside
      cases item with
      | method decl => exact List.subset_append_of_subset_right _ inside
      | const decl | vars decl | classDecl decl => exact inside

/-- What the passes agree on about a statement to which generation comes, where `checked` is what the
check has come to and `emitted` what generation has come to in the method. -/
structure Visit.Agrees (env : Env) (checked : List (Visit CheckState)) (emitted : List (Visit Frame))
    (visit : Visit Frame) : Prop where
  met : ∃ v ∈ checked, v.position = visit.position
  depth : ∀ v ∈ checked, v.path = visit.path →
    visit.state.breakLabels.length = v.state.loopDepth + v.state.switchDepth
  innermost : ∀ label, visit.state.breakLabels.head? = some label →
    ∃ u ∈ emitted, visit.path.left.head? = some u.path ∧ u.stmt.EndsAt env u.state label ∧
      ∀ code after, (u.stmt.emit env).Yields u.state code after → code.getLast? = some (.mark label)
  restored : ((visit.stmt.emit env).outcome visit.state).2.breakLabels = visit.state.breakLabels

/-- A `break` is complained about exactly where it has nothing to leave; and in every method, whatever
the symbols and annotations, generation knows at each statement as many labels for a `break` as the
check has counted loops and switches, and the first of them is behind the innermost. -/
theorem Program.breaks_agree (program : Program) (entry : String) :
    (program.check entry).misuses = strayDiagnostics program.strays ∧
    (program.checkLogged entry).Erases (program.checking entry) ∧
    ∀ (env : Env) (i : Nat) (decl : MethodDecl) (params : List (String × Tag)) (result : Ty),
      program.items[i]? = some (.method decl) →
      (emitBodyLogged env i params result decl.body.items).Erases
        (emitBody env params result decl.body.items) ∧
      ((emitBody env params result decl.body.items).outcome { scopes := [[]] }).2.breakLabels = [] ∧
      ∀ visit ∈ emitted env i params result decl.body.items,
        visit.Agrees env (program.checked entry) (emitted env i params result decl.body.items) := by
  refine ⟨program.misuses_check entry, program.checkLogged_erases entry,
    fun env i decl params result found => ⟨emitBodyLogged_erases i params result decl.body.items, ?_, ?_⟩⟩
  · exact (emitBody_steady params result _ _).1
  · intro visit member
    obtain ⟨positions, depth⟩ := program.checked_counts entry
    obtain ⟨inside, leaves⟩ := emitted_leavesTo visit member
    have inProgram := itemsPositions_subset_methodsPositions found 0
    rw [Nat.zero_add] at inProgram
    constructor
    · have met := inProgram inside
      rw [← positions] at met
      exact List.mem_map.mp met
    · intro v met same
      rw [leaves.length_eq, ← same, ← depth v met]
      rfl
    · intro label first
      obtain ⟨u, seen, around, ends⟩ := leaves.innermost first
      exact ⟨u, seen, around, ends, fun _ _ => ends.getLast?⟩
    · exact (visit.stmt.emit_steady visit.state).1

namespace Sample

def bodyOf : Option Item → List BlockItem
  | some (.method decl) => decl.body.items
  | _ => []

def mainVisits (items : List BlockItem) : List (Visit Frame) :=
  emitted (totals.env (totals.check "Main").table (totals.check "Main").annotations) 4 [] .void items

end Sample

/-- In `Main` generation comes to a `break` in a switch in a loop, and knows two labels for it. -/
theorem totals_breaks_agree : ∃ decl, Sample.totals.items[4]? = some (.method decl) ∧
    ∃ visit ∈ Sample.mainVisits decl.body.items,
      visit.path = [.case 0 0, .item 0, .body, .item 5, .method 4] ∧
      visit.state.breakLabels = [⟨2⟩, ⟨1⟩] ∧
      visit.Agrees (Sample.totals.env (Sample.totals.check "Main").table
        (Sample.totals.check "Main").annotations) (Sample.totals.checked "Main")
        (Sample.mainVisits decl.body.items) := by
  have main : ∃ decl, Sample.totals.items[4]? = some (.method decl) := ⟨_, rfl⟩
  obtain ⟨decl, found⟩ := main
  have seen : (Sample.mainVisits (Sample.bodyOf Sample.totals.items[4]?)).any (fun visit =>
      visit.path = [.case 0 0, .item 0, .body, .item 5, .method 4] ∧
        visit.state.breakLabels = [⟨2⟩, ⟨1⟩]) = true := by decide +kernel
  rw [found] at seen
  obtain ⟨visit, member, known⟩ := List.any_eq_true.mp seen
  obtain ⟨path, labels⟩ := of_decide_eq_true known
  exact ⟨decl, found, visit, member, path, labels,
    ((Sample.totals.breaks_agree "Main").2.2 _ 4 decl [] .void found).2.2 visit member⟩

end StackCode
