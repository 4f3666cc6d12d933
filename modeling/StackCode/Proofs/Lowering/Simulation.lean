import StackCode.Proofs.Emission.Failures
import StackCode.Proofs.Evaluation.Pieces
import StackCode.Proofs.Lowering.Structured

namespace StackCode

open Code Emit

/-- The code of the cases of a switch, and where in it the one is that is behind `skipped` others.
`fallback` is the label of the default. -/
inductive CasesAt (env : Env) (default : Option DefaultCase) (fallback : Label) :
    Frame → Nat → List Label → List SwitchCase → Piece → Piece → Prop
  | enter {frame mid after : Frame} {labels : List Label} {cases : List SwitchCase}
      {bodies last : Piece} (labelled : labels.length = cases.length)
      (cased : (emitCases env labels cases).Yields frame bodies mid)
      (defaulted : (emitDefault env fallback default).Yields mid last after) :
      CasesAt env default fallback frame 0 labels cases (bodies ++ last) (bodies ++ last)
  | skip {frame mid : Frame} {skipped : Nat} {label : Label} {labels : List Label} {value : Literal}
      {body : List Stmt} {span : Span} {cases : List SwitchCase} {code rest start : Piece}
      (emitted : (emitStmts env body).Yields frame code mid)
      (others : CasesAt env default fallback mid skipped labels cases rest start) :
      CasesAt env default fallback frame (skipped + 1) (label :: labels) (⟨value, body, span⟩ :: cases)
        (.mark label :: code ++ rest) start

namespace CasesAt

variable {env : Env} {default : Option DefaultCase} {fallback : Label} {frame : Frame} {skipped : Nat}
  {labels : List Label} {label : Literal} {body : List Stmt} {span : Span} {cases : List SwitchCase}
  {code start : Piece}

theorem skipped_case (placed : CasesAt env default fallback frame (skipped + 1) labels
      (⟨label, body, span⟩ :: cases) code start) :
    ∃ target labels first mid others, (emitStmts env body).Yields frame first mid ∧
      CasesAt env default fallback mid skipped labels cases others start ∧
      code = .mark target :: first ++ others := by
  cases placed with
  | skip emitted others => exact ⟨_, _, _, _, _, emitted, others, rfl⟩

theorem entered_case
    (placed : CasesAt env default fallback frame 0 labels (⟨label, body, span⟩ :: cases) code start) :
    ∃ target labels first mid others, (emitStmts env body).Yields frame first mid ∧
      CasesAt env default fallback mid 0 labels cases others others ∧
      code = .mark target :: first ++ others ∧ start = code := by
  cases placed with
  | enter labelled cased defaulted =>
    cases labels with
    | nil => cases labelled
    | cons target labels =>
      obtain ⟨first, mid, others, emitted, more, rfl⟩ := emitCases_cons_yields.mp cased
      refine ⟨target, labels, first, mid, _, emitted, .enter (Nat.succ.inj labelled) more defaulted, ?_⟩
      simp

theorem entered_default (placed : CasesAt env default fallback frame 0 labels [] code start) :
    ∃ after, (emitDefault env fallback default).Yields frame code after ∧ start = code := by
  cases placed with
  | enter labelled cased defaulted =>
    obtain ⟨rfl, rfl⟩ := emitCases_nil_yields.mp cased
    exact ⟨_, defaulted, rfl⟩

end CasesAt

def Task.Placed (env : Env) (frame : Frame) (code start : Piece) : Task → Prop
  | .stmt part => start = code ∧ ∃ after, (part.emit env).Yields frame code after
  | .option part => start = code ∧ ∃ after, (emitOptional env part).Yields frame code after
  | .stmts parts => start = code ∧ ∃ after, (emitStmts env parts).Yields frame code after
  | .items parts => start = code ∧ ∃ after, (emitItems env parts).Yields frame code after
  | .again finish cond update body =>
    ∃ first check loop inner next turn rest after,
      (body.emit env).Yields (frame.breaking finish) loop inner ∧
      (emitOptional env update).Yields inner.unbroken next turn ∧
      (emitAgain env first cond).Yields turn rest after ∧
      start = .mark check :: rest ++ ([.mark finish] : Piece) ∧
      code = .mark first :: loop ++ next ++ start
  | .cases skipped parts default =>
    ∃ labels fallback, CasesAt env default fallback frame skipped labels parts code start

/-- The mark that a `break` goes to is in the code. -/
def Leaves (whole : Piece) (breaks : List Label) : Prop :=
  ∀ label, breaks.head? = some label → ∃ behind, .mark label :: behind <:+ whole

theorem Leaves.inner {whole behind : Piece} {breaks : List Label} {finish : Label}
    (located : .mark finish :: behind <:+ whole) : Leaves whole (finish :: breaks) := by
  intro label first
  cases first
  exact ⟨behind, located⟩

theorem Emit.Steady.kept {α : Type} {env : Env} {ids : List NodeId} {literals : List Literal}
    {action : Emit α} {a : α} {before after : Frame} (steady : action.Steady env ids literals)
    (yields : action.Yields before a after) :
    after.breakLabels = before.breakLabels := by
  have kept := (steady before).1
  rw [show action.outcome before = _ from yields] at kept
  exact kept

section Kept

variable {env : Env} {before after : Frame} {code : Piece}

theorem Stmt.emit_kept {stmt : Stmt} (emitted : (stmt.emit env).Yields before code after) :
    after.breakLabels = before.breakLabels :=
  stmt.emit_steady.kept emitted

theorem emitOptional_kept {stmt : Option Stmt}
    (emitted : (emitOptional env stmt).Yields before code after) :
    after.breakLabels = before.breakLabels :=
  (emitOptional_steady stmt).kept emitted

theorem emitStmts_kept {stmts : List Stmt} (emitted : (emitStmts env stmts).Yields before code after) :
    after.breakLabels = before.breakLabels :=
  (emitStmts_steady stmts).kept emitted

theorem Condition.emit_kept {cond : Condition} (emitted : (cond.emit env).Yields before code after) :
    after.breakLabels = before.breakLabels :=
  cond.emit_steady.kept emitted

end Kept

namespace Platform

variable (P : Platform) (built : Module)

/-- Where a part of the code goes to from a configuration, as it ends: to what is behind it, to the
mark for a `break`, or to a return with the value on the stack. -/
def Arrives (whole after : Piece) (breaks : List Label) (config : P.Config) (state : P.State) :
    Ending P.Data → Prop
  | .normal => P.Reaches built whole config ⟨after, [], state⟩
  | .broken => ∃ label behind, breaks.head? = some label ∧ .mark label :: behind <:+ whole ∧
      P.Reaches built whole config ⟨.mark label :: behind, [], state⟩
  | .returned value => ∃ behind, P.Reaches built whole config ⟨.ret :: behind, value.toList, state⟩

variable {P built} {env : Env} {whole after : Piece} {breaks : List Label} {config : P.Config}
  {state : P.State} {ending : Ending P.Data}

theorem Arrives.from {first : P.Config} (reaches : P.Reaches built whole first config)
    (arrives : P.Arrives built whole after breaks config state ending) :
    P.Arrives built whole after breaks first state ending := by
  cases ending with
  | normal => exact reaches.trans arrives
  | broken =>
    obtain ⟨label, behind, target, located, goes⟩ := arrives
    exact ⟨label, behind, target, located, reaches.trans goes⟩
  | returned value =>
    obtain ⟨behind, goes⟩ := arrives
    exact ⟨behind, reaches.trans goes⟩

theorem Arrives.then {behind : Piece} (arrives : P.Arrives built whole after breaks config state ending)
    (goesOn : ending = .normal → P.Reaches built whole ⟨after, [], state⟩ ⟨behind, [], state⟩) :
    P.Arrives built whole behind breaks config state ending := by
  cases ending with
  | normal => exact Relation.ReflTransGen.trans arrives (goesOn rfl)
  | broken => exact arrives
  | returned value => exact arrives

theorem Arrives.exit {behind : Piece} (arrives : P.Arrives built whole after breaks config state ending)
    (leaves : ending ≠ .normal) : P.Arrives built whole behind breaks config state ending :=
  arrives.then fun normal => absurd normal leaves

theorem Arrives.left {finish : Label} (marked : Marked whole) (located : .mark finish :: after <:+ whole)
    (arrives : P.Arrives built whole (.mark finish :: after) (finish :: breaks) config state ending) :
    P.Arrives built whole after breaks config state ending.left := by
  cases ending with
  | normal => exact Relation.ReflTransGen.trans arrives reaches_mark
  | broken =>
    obtain ⟨label, behind, target, place, goes⟩ := arrives
    cases target
    have same : .mark finish :: behind = .mark finish :: after :=
      Option.some.inj ((resume_of_suffix marked place).symm.trans (resume_of_suffix marked located))
    cases same
    exact goes.trans reaches_mark
  | returned value => exact arrives

section Tests

variable {frame mid mid' : Frame} {rest behind : Piece} {target : Label} {holds : Bool}
  {s s' : P.State}

theorem Tests.reaches {cond : Condition} {test : Piece} (marked : Marked whole)
    (tests : P.Tests built env frame s holds s' mid (some cond))
    (emitted : (cond.emit env).Yields frame test mid')
    (located : test ++ .brfalse target :: rest <:+ whole) (place : .mark target :: behind <:+ whole) :
    mid' = mid ∧ P.Reaches built whole ⟨test ++ .brfalse target :: rest, [], s⟩
      ⟨if holds then rest else .mark target :: behind, [], s'⟩ := by
  obtain ⟨code, n, emitted', passes, rfl⟩ := tests
  obtain ⟨rfl, rfl⟩ := emitted'.unique emitted
  exact ⟨rfl, (passes.inside marked located).trans (reaches_brfalse marked place)⟩

theorem Tests.reaches_again {cond : Option Condition} {again : Piece} (marked : Marked whole)
    (tests : P.Tests built env frame s holds s' mid cond)
    (emitted : (emitAgain env target cond).Yields frame again mid')
    (located : again ++ rest <:+ whole) (place : .mark target :: behind <:+ whole) :
    P.Reaches built whole ⟨again ++ rest, [], s⟩
      ⟨if holds then .mark target :: behind else rest, [], s'⟩ := by
  cases cond with
  | none =>
    obtain ⟨rfl, rfl, rfl⟩ := tests
    obtain ⟨rfl, rfl⟩ := emitAgain_none_yields.mp emitted
    exact reaches_br marked place
  | some cond =>
    obtain ⟨code, n, emitted', passes, rfl⟩ := tests
    obtain ⟨test, tested, rfl⟩ := emitAgain_some_yields.mp emitted
    obtain ⟨rfl, rfl⟩ := emitted'.unique tested
    rw [List.append_assoc] at located ⊢
    exact (passes.inside marked located).trans (reaches_brtrue marked place)

end Tests

section Dispatch

variable {slot : Nat} {value : Value P.Data} {s : P.State}

theorem reaches_compare {label : Literal} {instr : Instr} {target : Label} {rest behind : Piece}
    {same : Bool} (marked : Marked whole) (kept : s.locals slot = value)
    (loaded : literalInstr label = .ok instr)
    (compared : P.alike value (P.literal label) = some same) (place : .mark target :: behind <:+ whole) :
    P.Reaches built whole ⟨.ldloc slot :: instr :: .beq target :: rest, [], s⟩
      ⟨if same then .mark target :: behind else rest, [], s⟩ := by
  have read : P.step built (.ldloc slot) ([], s) = some ([value], s) := by
    rw [← kept]
    rfl
  exact ((reaches_step rfl read).trans (reaches_literal loaded)).trans
    (reaches_beq marked place compared)

theorem reaches_case {cases : List SwitchCase} {labels : List Label} {skipped : Nat}
    {default : Option DefaultCase} {fallback : Label} {dispatch bodies last tail rest : Piece}
    {before frame mid final : Frame} (marked : Marked whole) (kept : s.locals slot = value)
    (enters : P.Enters value cases skipped) (labelled : labels.length = cases.length)
    (dispatched : (emitDispatch slot (cases.zip labels)).Yields before dispatch before)
    (cased : (emitCases env labels cases).Yields frame bodies mid)
    (defaulted : (emitDefault env fallback default).Yields mid last final)
    (located : bodies ++ last ++ rest <:+ whole)
    (behind : default = none → ∃ after, rest = .mark fallback :: after) :
    ∃ start, CasesAt env default fallback frame skipped labels cases (bodies ++ last) start ∧
      P.Reaches built whole ⟨dispatch ++ .br fallback :: tail, [], s⟩ ⟨start ++ rest, [], s⟩ := by
  induction cases generalizing labels skipped dispatch bodies frame with
  | nil =>
    obtain rfl : skipped = 0 := enters
    cases List.length_eq_zero_iff.mp labelled
    obtain ⟨rfl, _⟩ := emitDispatch_nil_yields.mp dispatched
    refine ⟨_, .enter rfl cased defaulted, ?_⟩
    obtain ⟨rfl, rfl⟩ := emitCases_nil_yields.mp cased
    cases default with
    | none =>
      obtain ⟨rfl, rfl⟩ := emitDefault_none_yields.mp defaulted
      obtain ⟨after, rfl⟩ := behind rfl
      exact reaches_br marked located
    | some block =>
      obtain ⟨body, span⟩ := block
      obtain ⟨code, _, rfl⟩ := emitDefault_some_yields.mp defaulted
      exact reaches_br marked located
  | cons case cases ih =>
    obtain ⟨label, body, span⟩ := case
    cases labels with
    | nil => cases labelled
    | cons target labels =>
      obtain ⟨instr, others, loaded, more, rfl⟩ := emitDispatch_cons_yields.mp dispatched
      obtain ⟨first, mid', following, emitted, cased', rfl⟩ := emitCases_cons_yields.mp cased
      cases skipped with
      | zero =>
        have compared : P.alike value (P.literal label) = some true := enters
        refine ⟨_, .enter labelled cased defaulted, ?_⟩
        exact reaches_compare marked kept loaded compared located
      | succ skipped =>
        obtain ⟨compared, enters⟩ : P.alike value (P.literal label) = some false ∧
          P.Enters value cases skipped := enters
        have inner : following ++ last ++ rest <:+ whole := by
          refine List.IsSuffix.trans ⟨.mark target :: first, ?_⟩ located
          simp
        obtain ⟨start, placed, reaches⟩ := ih enters (Nat.succ.inj labelled) more cased' inner
        refine ⟨start, ?_, ?_⟩
        · have skips : CasesAt env default fallback frame (skipped + 1) (target :: labels)
              (⟨label, body, span⟩ :: cases) (.mark target :: first ++ (following ++ last)) start :=
            .skip emitted placed
          simpa using skips
        · exact (reaches_compare marked kept loaded compared located).trans reaches

end Dispatch

variable (P built env) in
/-- Wherever the code of the task stands, it goes from where the task starts to where it ends. -/
def Simulated (frame : Frame) (task : Task) (s : P.State) (o : Ending P.Data) (s' : P.State) : Prop :=
  ∀ whole code start after, Marked whole → task.Placed env frame code start →
    code ++ after <:+ whole → Leaves whole frame.breakLabels →
    P.Arrives built whole after frame.breakLabels ⟨start ++ after, [], s⟩ s' o

namespace Simulated

variable {frame mid : Frame} {s s₁ s₂ s₃ s' : P.State} {o : Ending P.Data} {span : Span}

theorem arrives {task : Task} {code start : Piece} (marked : Marked whole)
    (runs : P.Simulated built env mid task s o s') (placed : task.Placed env mid code start)
    (located : code ++ after <:+ whole) (kept : mid.breakLabels = breaks)
    (leaves : Leaves whole breaks) :
    P.Arrives built whole after breaks ⟨start ++ after, [], s⟩ s' o := by
  subst kept
  exact runs whole code start after marked placed located leaves

theorem next {first second : Task} {code others : Piece} (marked : Marked whole)
    (runs : P.Simulated built env frame first s .normal s₁)
    (placed : first.Placed env frame code code) (goesOn : P.Simulated built env mid second s₁ o s')
    (behind : second.Placed env mid others others) (located : code ++ (others ++ after) <:+ whole)
    (kept : mid.breakLabels = frame.breakLabels) (leaves : Leaves whole frame.breakLabels) :
    P.Arrives built whole after frame.breakLabels ⟨code ++ (others ++ after), [], s⟩ s' o :=
  .from (runs.arrives marked placed located rfl leaves)
    (goesOn.arrives marked behind (behind_append located) kept leaves)

theorem idle {task : Task} (empty : ∀ {code start}, task.Placed env frame code start → start = []) :
    P.Simulated built env frame task s .normal s := by
  intro whole code start after _ placed _ _
  rw [empty placed]
  exact .refl

theorem simple {stmt : Stmt} {code : Piece} (emitted : (stmt.emit env).Yields frame code mid)
    (passes : P.Passes built code s [] s') : P.Simulated built env frame (.stmt stmt) s .normal s' := by
  rintro whole _ code' after marked ⟨rfl, _, emitted'⟩ located _
  obtain ⟨rfl, _⟩ := emitted.unique emitted'
  exact passes.inside marked located

theorem block {items : List BlockItem}
    (runs : P.Simulated built env frame.opened (.items items) s o s') :
    P.Simulated built env frame (.stmt (.block ⟨items, span⟩)) s o s' := by
  rintro whole _ code after marked ⟨rfl, _, emitted⟩ located leaves
  obtain ⟨inner, emitted, _⟩ := Stmt.emit_block_yields.mp emitted
  exact runs.arrives marked ⟨rfl, inner, emitted⟩ located rfl leaves

theorem broken : P.Simulated built env frame (.stmt (.breakStmt span)) s .broken s := by
  rintro whole _ code after marked ⟨rfl, _, emitted⟩ _ leaves
  obtain ⟨target, first, rfl, _⟩ := Stmt.emit_break_yields.mp emitted
  obtain ⟨behind, place⟩ := leaves target first
  exact ⟨target, behind, first, place, reaches_br marked place⟩

theorem returns : P.Simulated built env frame (.stmt (.returnStmt none span)) s (.returned none) s := by
  rintro whole _ code after marked ⟨rfl, _, emitted⟩ _ _
  obtain ⟨rfl, _⟩ := Stmt.emit_return_none_yields.mp emitted
  exact ⟨after, .refl⟩

theorem gives {value : Expr} {code : Piece} {v : Value P.Data}
    (emitted : (value.emit env).Yields frame code mid) (passes : P.Passes built code s [v] s') :
    P.Simulated built env frame (.stmt (.returnStmt (some value) span)) s (.returned (some v)) s' := by
  rintro whole _ code' after marked ⟨rfl, _, emitted'⟩ located _
  obtain ⟨result, resulted, rfl⟩ := Stmt.emit_return_some_yields.mp emitted'
  obtain ⟨rfl, _⟩ := emitted.unique resulted
  rw [List.append_assoc] at located ⊢
  exact ⟨after, passes.inside marked located⟩

section Branches

variable {cond : Condition} {yes no : Stmt}

theorem onTrue (tests : P.Tests built env (frame.withLabels 2) s true s₁ mid (some cond))
    (runs : P.Simulated built env mid (.stmt yes) s₁ o s') :
    P.Simulated built env frame (.stmt (.branch cond yes (some no) span)) s o s' := by
  rintro whole _ code after marked ⟨rfl, _, emitted⟩ located leaves
  obtain ⟨test, _, taken, _, other, tested, onYes, _, rfl⟩ := Stmt.emit_branch_yields.mp emitted
  simp only [List.append_assoc, List.cons_append, List.nil_append] at located ⊢
  have inYes := behind_cons (behind_append located)
  have inNo := behind_cons (behind_append inYes)
  have inEnd := behind_append (behind_cons inNo)
  obtain ⟨rfl, reaches⟩ := tests.reaches marked tested located inNo
  have kept := Condition.emit_kept tested
  have arrives := runs.arrives marked ⟨rfl, _, onYes⟩ inYes kept leaves
  exact .from reaches (arrives.then fun _ => (reaches_br marked inEnd).trans reaches_mark)

theorem onFalse {mid' : Frame} {code : Piece}
    (tests : P.Tests built env (frame.withLabels 2) s false s₁ mid (some cond))
    (emitted : (yes.emit env).Yields mid code mid') (runs : P.Simulated built env mid' (.stmt no) s₁ o s') :
    P.Simulated built env frame (.stmt (.branch cond yes (some no) span)) s o s' := by
  rintro whole _ code' after marked ⟨rfl, _, emitted'⟩ located leaves
  obtain ⟨test, _, taken, mid', other, tested, onYes, onNo, rfl⟩ := Stmt.emit_branch_yields.mp emitted'
  simp only [List.append_assoc, List.cons_append, List.nil_append] at located ⊢
  have inNo := behind_cons (behind_append (behind_cons (behind_append located)))
  obtain ⟨rfl, reaches⟩ := tests.reaches marked tested located inNo
  obtain ⟨rfl, rfl⟩ := emitted.unique onYes
  have kept := (Stmt.emit_kept onYes).trans (Condition.emit_kept tested)
  have arrives := runs.arrives marked ⟨rfl, _, onNo⟩ (behind_cons inNo) kept leaves
  exact .from (reaches.trans reaches_mark) (arrives.then fun _ => reaches_mark)

theorem whenTrue (tests : P.Tests built env (frame.withLabels 1) s true s₁ mid (some cond))
    (runs : P.Simulated built env mid (.stmt yes) s₁ o s') :
    P.Simulated built env frame (.stmt (.branch cond yes none span)) s o s' := by
  rintro whole _ code after marked ⟨rfl, _, emitted⟩ located leaves
  obtain ⟨test, _, taken, tested, onYes, rfl⟩ := Stmt.emit_when_yields.mp emitted
  simp only [List.append_assoc, List.cons_append, List.nil_append] at located ⊢
  have inYes := behind_cons (behind_append located)
  obtain ⟨rfl, reaches⟩ := tests.reaches marked tested located (behind_append inYes)
  have kept := Condition.emit_kept tested
  have arrives := runs.arrives marked ⟨rfl, _, onYes⟩ inYes kept leaves
  exact .from reaches (arrives.then fun _ => reaches_mark)

theorem whenFalse (tests : P.Tests built env (frame.withLabels 1) s false s' mid (some cond)) :
    P.Simulated built env frame (.stmt (.branch cond yes none span)) s .normal s' := by
  rintro whole _ code after marked ⟨rfl, _, emitted⟩ located _
  obtain ⟨test, _, taken, tested, onYes, rfl⟩ := Stmt.emit_when_yields.mp emitted
  simp only [List.append_assoc, List.cons_append, List.nil_append] at located ⊢
  have inEnd := behind_append (behind_cons (behind_append located))
  obtain ⟨_, reaches⟩ := tests.reaches marked tested located inEnd
  exact reaches.trans reaches_mark

end Branches

section Loops

variable {cond : Condition} {body : Stmt}

theorem whileDone (tests : P.Tests built env (frame.withLabels 2) s false s' mid (some cond)) :
    P.Simulated built env frame (.stmt (.whileLoop cond body span)) s .normal s' := by
  rintro whole _ code after marked ⟨rfl, _, emitted⟩ located _
  obtain ⟨test, _, _, loop, tested, _, _, rfl⟩ := Stmt.emit_while_yields.mp emitted
  simp only [List.append_assoc, List.cons_append, List.nil_append] at located ⊢
  have inTest := behind_cons located
  have inEnd := behind_cons (behind_append (behind_cons (behind_append inTest)))
  obtain ⟨_, reaches⟩ := tests.reaches marked tested inTest inEnd
  exact (reaches_mark.trans reaches).trans reaches_mark

theorem whileAgain (tests : P.Tests built env (frame.withLabels 2) s true s₁ mid (some cond))
    (runs : P.Simulated built env (mid.breaking ⟨frame.labelCount + 1⟩) (.stmt body) s₁ .normal s₂)
    (goesOn : P.Simulated built env frame (.stmt (.whileLoop cond body span)) s₂ o s') :
    P.Simulated built env frame (.stmt (.whileLoop cond body span)) s o s' := by
  rintro whole _ code after marked ⟨rfl, final, emitted⟩ located leaves
  have again := goesOn.arrives marked ⟨rfl, _, emitted⟩ located rfl leaves
  obtain ⟨test, _, _, loop, tested, looped, _, rfl⟩ := Stmt.emit_while_yields.mp emitted
  simp only [List.append_assoc, List.cons_append, List.nil_append] at located again ⊢
  have inTest := behind_cons located
  have inLoop := behind_cons (behind_append inTest)
  have inEnd := behind_cons (behind_append inLoop)
  obtain ⟨rfl, reaches⟩ := tests.reaches marked tested inTest inEnd
  have turn := runs.arrives marked ⟨rfl, _, looped⟩ inLoop rfl (.inner inEnd)
  exact .from (((reaches_mark.trans reaches).trans turn).trans (reaches_br marked located)) again

theorem whileLeft (tests : P.Tests built env (frame.withLabels 2) s true s₁ mid (some cond))
    (runs : P.Simulated built env (mid.breaking ⟨frame.labelCount + 1⟩) (.stmt body) s₁ o s')
    (leaves : o ≠ .normal) :
    P.Simulated built env frame (.stmt (.whileLoop cond body span)) s o.left s' := by
  rintro whole _ code after marked ⟨rfl, final, emitted⟩ located outside
  obtain ⟨test, _, _, loop, tested, looped, _, rfl⟩ := Stmt.emit_while_yields.mp emitted
  simp only [List.append_assoc, List.cons_append, List.nil_append] at located ⊢
  have inTest := behind_cons located
  have inLoop := behind_cons (behind_append inTest)
  have inEnd := behind_cons (behind_append inLoop)
  obtain ⟨rfl, reaches⟩ := tests.reaches marked tested inTest inEnd
  have turn := runs.arrives marked ⟨rfl, _, looped⟩ inLoop
    (congrArg (List.cons _) (Condition.emit_kept tested)) (.inner inEnd)
  exact .from (reaches_mark.trans reaches) ((turn.exit leaves).left marked inEnd)

variable {init update : Option Stmt} {cond : Option Condition} {turn test final : Frame}
  {finish : Label}

theorem forLeft (runs : P.Simulated built env (frame.withLabels 3) (.option init) s o s')
    (leaves : o ≠ .normal) :
    P.Simulated built env frame (.stmt (.forLoop init cond update body span)) s o s' := by
  rintro whole _ code after marked ⟨rfl, _, emitted⟩ located outside
  obtain ⟨first, _, _, _, _, _, _, started, _, _, _, rfl⟩ := Stmt.emit_for_yields.mp emitted
  simp only [List.append_assoc, List.cons_append, List.nil_append] at located ⊢
  exact (runs.arrives marked ⟨rfl, _, started⟩ located rfl outside).exit leaves

theorem forLoop {code : Piece}
    (runs : P.Simulated built env (frame.withLabels 3) (.option init) s .normal s₁)
    (emitted : (emitOptional env init).Yields (frame.withLabels 3) code mid)
    (goesOn : P.Simulated built env mid (.again ⟨frame.labelCount + 2⟩ cond update body) s₁ o s') :
    P.Simulated built env frame (.stmt (.forLoop init cond update body span)) s o s' := by
  rintro whole _ code' after marked ⟨rfl, _, emitted'⟩ located leaves
  obtain ⟨first, mid, loop, inner, next, turn, again, started, looped, updated, tested, rfl⟩ :=
    Stmt.emit_for_yields.mp emitted'
  obtain ⟨rfl, rfl⟩ := emitted.unique started
  have kept := emitOptional_kept started
  simp only [List.append_assoc, List.cons_append, List.nil_append] at located ⊢
  have begun := runs.arrives marked ⟨rfl, _, started⟩ located rfl leaves
  have inAgain := behind_append (behind_append (behind_cons (behind_cons (behind_append located))))
  have goes := goesOn.arrives marked
    ⟨_, _, loop, inner, next, turn, again, _, looped, updated, tested, rfl, rfl⟩
    (by simpa using behind_cons (behind_append located)) kept leaves
  simp only [List.append_assoc, List.cons_append, List.nil_append] at goes
  exact .from (Relation.ReflTransGen.trans begun (reaches_br marked inAgain)) goes

/-- From the test on, a turn of the loop comes next, or what is behind the loop. -/
theorem reaches_turn {code start : Piece} {holds : Bool} (marked : Marked whole)
    (turns : Turns env frame finish body update turn test)
    (tests : P.Tests built env test s holds s₁ final cond)
    (placed : (Task.again finish cond update body).Placed env frame code start)
    (located : code ++ after <:+ whole) :
    ∃ loop inner next, (body.emit env).Yields (frame.breaking finish) loop inner ∧
      (emitOptional env update).Yields turn next test ∧ turn.breakLabels = frame.breakLabels ∧
      loop ++ (next ++ (start ++ after)) <:+ whole ∧ .mark finish :: after <:+ whole ∧
      P.Reaches built whole ⟨start ++ after, [], s⟩
        ⟨if holds then loop ++ (next ++ (start ++ after)) else .mark finish :: after, [], s₁⟩ := by
  obtain ⟨loop, inner, next, looped, rfl, updated⟩ := turns
  obtain ⟨first, check, _, _, _, _, rest, _, looped', updated', tested, rfl, rfl⟩ := placed
  obtain ⟨rfl, rfl⟩ := looped'.unique looped
  obtain ⟨rfl, rfl⟩ := updated'.unique updated
  have kept : inner.breakLabels = finish :: frame.breakLabels := Stmt.emit_kept looped
  simp only [List.append_assoc, List.cons_append, List.nil_append] at located ⊢
  have inLoop := behind_cons located
  have inAgain := behind_cons (behind_append (behind_append inLoop))
  have reaches := tests.reaches_again marked tested inAgain located
  refine ⟨loop, inner, next, looped, updated, ?_, inLoop, behind_append inAgain, ?_⟩
  · rw [Frame.unbroken, kept, List.tail_cons]
  · cases holds with
    | true => exact reaches_mark.trans (reaches.trans reaches_mark)
    | false => exact reaches_mark.trans reaches

theorem againDone (turns : Turns env frame finish body update turn test)
    (tests : P.Tests built env test s false s' final cond) :
    P.Simulated built env frame (.again finish cond update body) s .normal s' := by
  intro whole code start after marked placed located _
  obtain ⟨_, _, _, _, _, _, _, _, reaches⟩ := reaches_turn marked turns tests placed located
  exact reaches.trans reaches_mark

theorem againNext (turns : Turns env frame finish body update turn test)
    (tests : P.Tests built env test s true s₁ final cond)
    (runs : P.Simulated built env (frame.breaking finish) (.stmt body) s₁ .normal s₂)
    (updates : P.Simulated built env turn (.option update) s₂ .normal s₃)
    (goesOn : P.Simulated built env frame (.again finish cond update body) s₃ o s') :
    P.Simulated built env frame (.again finish cond update body) s o s' := by
  intro whole code start after marked placed located leaves
  obtain ⟨_, _, _, looped, updated, kept, inLoop, inEnd, reaches⟩ :=
    reaches_turn marked turns tests placed located
  have round := runs.arrives marked ⟨rfl, _, looped⟩ inLoop rfl (.inner inEnd)
  have counted := updates.arrives marked ⟨rfl, _, updated⟩ (behind_append inLoop) kept leaves
  exact .from (reaches.trans (round.trans counted)) (goesOn.arrives marked placed located rfl leaves)

theorem againLeft (turns : Turns env frame finish body update turn test)
    (tests : P.Tests built env test s true s₁ final cond)
    (runs : P.Simulated built env (frame.breaking finish) (.stmt body) s₁ o s')
    (leaves : o ≠ .normal) :
    P.Simulated built env frame (.again finish cond update body) s o.left s' := by
  intro whole code start after marked placed located _
  obtain ⟨_, _, _, looped, _, _, inLoop, inEnd, reaches⟩ :=
    reaches_turn marked turns tests placed located
  have round := runs.arrives marked ⟨rfl, _, looped⟩ inLoop rfl (.inner inEnd)
  exact .from reaches ((round.exit leaves).left marked inEnd)

theorem updateLeft (turns : Turns env frame finish body update turn test)
    (tests : P.Tests built env test s true s₁ final cond)
    (runs : P.Simulated built env (frame.breaking finish) (.stmt body) s₁ .normal s₂)
    (updates : P.Simulated built env turn (.option update) s₂ o s') (leaves : o ≠ .normal) :
    P.Simulated built env frame (.again finish cond update body) s o s' := by
  intro whole code start after marked placed located outside
  obtain ⟨_, _, _, looped, updated, kept, inLoop, inEnd, reaches⟩ :=
    reaches_turn marked turns tests placed located
  have round := runs.arrives marked ⟨rfl, _, looped⟩ inLoop rfl (.inner inEnd)
  have counted := updates.arrives marked ⟨rfl, _, updated⟩ (behind_append inLoop) kept outside
  exact .from (reaches.trans round) (counted.exit leaves)

end Loops

section Switches

variable {cases : List SwitchCase} {default : Option DefaultCase} {skipped : Nat} {label : Literal}
  {body : List Stmt} {code : Piece}

theorem switch {selector : Expr} {tag : Tag} {type : Ty} {v : Value P.Data}
    (noted : env.nodeType selector.id = .ok tag) (typed : env.type tag = .ok type)
    (emitted : (selector.emit env).Yields frame code mid) (passes : P.Passes built code s [v] s₁)
    (enters : P.Enters v cases skipped)
    (runs : P.Simulated built env (((mid.withTemp type).withLabels
        (switchLabelCount cases default)).breaking ⟨mid.labelCount⟩) (.cases skipped cases default)
      (s₁.keep mid.locals.length v) o s') :
    P.Simulated built env frame (.stmt (.switch selector cases default span)) s o.left s' := by
  rintro whole _ code' after marked ⟨rfl, _, emitted'⟩ located _
  obtain ⟨_, _, mid, _, dispatch, bodies, _, last, _, noted', selected, typed', _, dispatched, cased,
    defaulted, _, rfl⟩ := Stmt.emit_switch_yields.mp emitted'
  obtain ⟨rfl, rfl⟩ := emitted.unique selected
  cases noted.symm.trans noted'
  cases typed.symm.trans typed'
  simp only [List.append_assoc, List.cons_append, List.nil_append] at located ⊢
  have inCases := behind_cons (behind_append (behind_cons (behind_append located)))
  have inEnd := behind_append (behind_append inCases)
  rw [← List.append_assoc] at inCases
  have kept := s₁.keep_locals_self mid.locals.length v
  have labelled : (labelsFrom (mid.labelCount + 1) cases.length).length = cases.length := by
    simp [labelsFrom]
  obtain ⟨start, placed, reaches⟩ := reaches_case marked kept enters labelled dispatched
    cased defaulted inCases fun none => ⟨after, by rw [none]; rfl⟩
  have arrives := runs.arrives marked ⟨_, _, placed⟩ inCases rfl (.inner inEnd)
  have stored (rest : Piece) : P.Reaches built whole ⟨.stloc mid.locals.length :: rest, [v], s₁⟩
      ⟨rest, [], s₁.keep mid.locals.length v⟩ := reaches_step rfl rfl
  exact .from ((passes.inside marked located).trans ((stored _).trans reaches))
    (arrives.left marked inEnd)

theorem skip (emitted : (emitStmts env body).Yields frame code mid)
    (runs : P.Simulated built env mid (.cases skipped cases default) s o s') :
    P.Simulated built env frame (.cases (skipped + 1) (⟨label, body, span⟩ :: cases) default) s o s' := by
  rintro whole code' start after marked ⟨_, fallback, placed⟩ located leaves
  obtain ⟨target, labels, first, mid, others, emitted', behind, rfl⟩ := placed.skipped_case
  obtain ⟨rfl, rfl⟩ := emitted.unique emitted'
  have kept := emitStmts_kept emitted
  simp only [List.append_assoc, List.cons_append] at located
  exact runs.arrives marked ⟨labels, fallback, behind⟩ (behind_append (behind_cons located)) kept
    leaves

theorem caseNext (runs : P.Simulated built env frame (.stmts body) s .normal s₁)
    (emitted : (emitStmts env body).Yields frame code mid)
    (goesOn : P.Simulated built env mid (.cases 0 cases default) s₁ o s') :
    P.Simulated built env frame (.cases 0 (⟨label, body, span⟩ :: cases) default) s o s' := by
  rintro whole code' start after marked ⟨_, fallback, placed⟩ located leaves
  obtain ⟨target, labels, first, mid, others, emitted', behind, rfl, rfl⟩ := placed.entered_case
  obtain ⟨rfl, rfl⟩ := emitted.unique emitted'
  simp only [List.append_assoc, List.cons_append] at located ⊢
  exact .from reaches_mark (runs.next marked ⟨rfl, _, emitted⟩ goesOn ⟨labels, fallback, behind⟩
    (behind_cons located) (emitStmts_kept emitted) leaves)

theorem caseLeft (runs : P.Simulated built env frame (.stmts body) s o s') (leaves : o ≠ .normal) :
    P.Simulated built env frame (.cases 0 (⟨label, body, span⟩ :: cases) default) s o s' := by
  rintro whole code' start after marked ⟨_, _, placed⟩ located outside
  obtain ⟨target, labels, first, mid, others, emitted, _, rfl, rfl⟩ := placed.entered_case
  simp only [List.append_assoc, List.cons_append] at located ⊢
  have ran := runs.arrives marked ⟨rfl, _, emitted⟩ (behind_cons located) rfl outside
  exact .from reaches_mark (ran.exit leaves)

theorem fallback (runs : P.Simulated built env frame (.stmts body) s o s') :
    P.Simulated built env frame (.cases 0 [] (some ⟨body, span⟩)) s o s' := by
  rintro whole code' start after marked ⟨_, _, placed⟩ located leaves
  obtain ⟨_, defaulted, rfl⟩ := placed.entered_default
  obtain ⟨rest, emitted, rfl⟩ := emitDefault_some_yields.mp defaulted
  simp only [List.cons_append, List.nil_append] at located ⊢
  exact .from reaches_mark (runs.arrives marked ⟨rfl, _, emitted⟩ (behind_cons located) rfl leaves)

theorem noFallback : P.Simulated built env frame (.cases 0 [] none) s .normal s := by
  refine .idle fun ⟨_, _, placed⟩ => ?_
  obtain ⟨_, defaulted, rfl⟩ := placed.entered_default
  exact (emitDefault_none_yields.mp defaulted).1

end Switches

section Sequences

variable {stmt : Stmt} {code : Piece}

theorem optionSome (runs : P.Simulated built env frame (.stmt stmt) s o s') :
    P.Simulated built env frame (.option (some stmt)) s o s' := by
  rintro whole _ code after marked ⟨rfl, _, emitted⟩ located leaves
  exact runs.arrives marked ⟨rfl, _, emitOptional_some_yields.mp emitted⟩ located rfl leaves

theorem stmtsNext {rest : List Stmt} (runs : P.Simulated built env frame (.stmt stmt) s .normal s₁)
    (emitted : (stmt.emit env).Yields frame code mid)
    (goesOn : P.Simulated built env mid (.stmts rest) s₁ o s') :
    P.Simulated built env frame (.stmts (stmt :: rest)) s o s' := by
  rintro whole _ code' after marked ⟨rfl, _, emitted'⟩ located leaves
  obtain ⟨first, mid, others, stated, more, rfl⟩ := emitStmts_cons_yields.mp emitted'
  obtain ⟨rfl, rfl⟩ := emitted.unique stated
  rw [List.append_assoc] at located ⊢
  exact runs.next marked ⟨rfl, _, stated⟩ goesOn ⟨rfl, _, more⟩ located (Stmt.emit_kept stated) leaves

theorem stmtsLeft {rest : List Stmt} (runs : P.Simulated built env frame (.stmt stmt) s o s')
    (leaves : o ≠ .normal) : P.Simulated built env frame (.stmts (stmt :: rest)) s o s' := by
  rintro whole _ code' after marked ⟨rfl, _, emitted⟩ located outside
  obtain ⟨first, mid, others, stated, _, rfl⟩ := emitStmts_cons_yields.mp emitted
  rw [List.append_assoc] at located ⊢
  exact (runs.arrives marked ⟨rfl, _, stated⟩ located rfl outside).exit leaves

theorem itemsVar {decl : VarDecl} {tag : Tag} {rest : List BlockItem}
    (written : env.writtenType decl.type = .ok tag)
    (emitted : (emitLocals env tag decl.names).Yields frame () mid)
    (goesOn : P.Simulated built env mid (.items rest) s o s') :
    P.Simulated built env frame (.items (.var decl :: rest)) s o s' := by
  rintro whole _ code after marked ⟨rfl, final, emitted'⟩ located leaves
  obtain ⟨_, mid, written', declared, more⟩ := emitItems_var_yields.mp emitted'
  cases written.symm.trans written'
  obtain ⟨_, rfl⟩ := emitted.unique declared
  have declares : Steady env [] [] (emitLocals env tag decl.names) := steady_emitLocals tag decl.names
  exact goesOn.arrives marked ⟨rfl, final, more⟩ located (declares.kept declared) leaves

theorem itemsNext {rest : List BlockItem}
    (runs : P.Simulated built env frame (.stmt stmt) s .normal s₁)
    (emitted : (stmt.emit env).Yields frame code mid)
    (goesOn : P.Simulated built env mid (.items rest) s₁ o s') :
    P.Simulated built env frame (.items (.stmt stmt :: rest)) s o s' := by
  rintro whole _ code' after marked ⟨rfl, final, emitted'⟩ located leaves
  obtain ⟨first, mid, others, stated, more, rfl⟩ := emitItems_stmt_yields.mp emitted'
  obtain ⟨rfl, rfl⟩ := emitted.unique stated
  rw [List.append_assoc] at located ⊢
  exact runs.next marked ⟨rfl, _, stated⟩ goesOn ⟨rfl, _, more⟩ located (Stmt.emit_kept stated) leaves

theorem itemsLeft {rest : List BlockItem} (runs : P.Simulated built env frame (.stmt stmt) s o s')
    (leaves : o ≠ .normal) : P.Simulated built env frame (.items (.stmt stmt :: rest)) s o s' := by
  rintro whole _ code' after marked ⟨rfl, _, emitted⟩ located outside
  obtain ⟨first, mid, others, stated, _, rfl⟩ := emitItems_stmt_yields.mp emitted
  rw [List.append_assoc] at located ⊢
  exact (runs.arrives marked ⟨rfl, _, stated⟩ located rfl outside).exit leaves

end Sequences

end Simulated

theorem Exec.simulated {frame : Frame} {task : Task} {s s' : P.State} {o : Ending P.Data}
    (runs : P.Exec built env frame task s o s') : P.Simulated built env frame task s o s' := by
  induction runs with
  | simple _ emitted passes => exact .simple emitted passes
  | block _ runs => exact .block runs
  | breaks => exact .broken
  | returns => exact .returns
  | gives emitted passes => exact .gives emitted passes
  | onTrue tests _ runs => exact .onTrue tests runs
  | onFalse tests emitted _ runs => exact .onFalse tests emitted runs
  | whenTrue tests _ runs => exact .whenTrue tests runs
  | whenFalse tests => exact .whenFalse tests
  | whileDone tests => exact .whileDone tests
  | whileAgain tests _ _ runs goesOn => exact .whileAgain tests runs goesOn
  | whileLeft tests _ leaves runs => exact .whileLeft tests runs leaves
  | forLeft _ leaves runs => exact .forLeft runs leaves
  | forLoop _ emitted _ runs goesOn => exact .forLoop runs emitted goesOn
  | againDone turns tests => exact .againDone turns tests
  | againNext turns tests _ _ _ runs updates goesOn => exact .againNext turns tests runs updates goesOn
  | againLeft turns tests _ leaves runs => exact .againLeft turns tests runs leaves
  | updateLeft turns tests _ _ leaves runs updates =>
    exact .updateLeft turns tests runs updates leaves
  | switch noted typed emitted passes enters _ runs =>
    exact .switch noted typed emitted passes enters runs
  | skip emitted _ runs => exact .skip emitted runs
  | caseNext _ emitted _ runs goesOn => exact .caseNext runs emitted goesOn
  | caseLeft _ leaves runs => exact .caseLeft runs leaves
  | fallback _ runs => exact .fallback runs
  | noFallback => exact .noFallback
  | optionSome _ runs => exact .optionSome runs
  | optionNone => exact .idle fun ⟨same, _, emitted⟩ => same.trans (emitOptional_none_yields.mp emitted).1
  | stmtsNil => exact .idle fun ⟨same, _, emitted⟩ => same.trans (emitStmts_nil_yields.mp emitted).1
  | stmtsNext _ emitted _ runs goesOn => exact .stmtsNext runs emitted goesOn
  | stmtsLeft _ leaves runs => exact .stmtsLeft runs leaves
  | itemsNil => exact .idle fun ⟨same, _, emitted⟩ => same.trans (emitItems_nil_yields.mp emitted).1
  | itemsVar written emitted _ goesOn => exact .itemsVar written emitted goesOn
  | itemsNext _ emitted _ runs goesOn => exact .itemsNext runs emitted goesOn
  | itemsLeft _ leaves runs => exact .itemsLeft runs leaves

end Platform

end StackCode
