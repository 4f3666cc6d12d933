import StackCode.Proofs.Evaluation.Source
import StackCode.Proofs.Machine.Slots

namespace StackCode

open Code Emit

inductive Ending (Data : Type) where
  | normal
  | broken
  | returned (value : Option (Value Data))

def Ending.left {Data : Type} : Ending Data → Ending Data
  | .broken => .normal
  | outcome => outcome

/-- What there is to run: a statement or statements; a `for` loop that is about to test its condition,
where `finish` is the label behind it; the cases of a switch behind those that are skipped. -/
inductive Task where
  | stmt (stmt : Stmt)
  | option (stmt : Option Stmt)
  | stmts (stmts : List Stmt)
  | items (items : List BlockItem)
  | again (finish : Label) (cond : Option Condition) (update : Option Stmt) (body : Stmt)
  | cases (skipped : Nat) (cases : List SwitchCase) (default : Option DefaultCase)

def Stmt.isSimple : Stmt → Bool
  | .assign .. | .call .. | .increment .. | .decrement .. | .read .. | .write .. | .empty _ => true
  | _ => false

def Turns (env : Env) (frame : Frame) (finish : Label) (body : Stmt) (update : Option Stmt)
    (turn test : Frame) : Prop :=
  ∃ loop inner next, (body.emit env).Yields (frame.breaking finish) loop inner ∧
    turn = inner.unbroken ∧ (emitOptional env update).Yields turn next test

namespace Platform

variable (P : Platform) (built : Module) (env : Env)

def Tests (frame : Frame) (state : P.State) (holds : Bool) (state' : P.State) (after : Frame) :
    Option Condition → Prop
  | none => holds = true ∧ state' = state ∧ after = frame
  | some cond => ∃ code n, (cond.emit env).Yields frame code after ∧
      P.Passes built code state [.word n] state' ∧ holds = (n != 0)

/-- How many cases a switch skips: those before the first label that is equal to the selector. -/
def Enters (selector : Value P.Data) : List SwitchCase → Nat → Prop
  | [], skipped => skipped = 0
  | case :: _, 0 => P.alike selector (P.literal case.label) = some true
  | case :: cases, skipped + 1 =>
    P.alike selector (P.literal case.label) = some false ∧ Enters selector cases skipped

/-- The runs of statements, with how they end and the state in which they do. -/
inductive Exec : Frame → Task → P.State → Ending P.Data → P.State → Prop
  | simple {frame after stmt code s s'} (simple : stmt.isSimple = true)
      (emitted : (stmt.emit env).Yields frame code after) (passes : P.Passes built code s [] s') :
      Exec frame (.stmt stmt) s .normal s'
  | block {frame items span s o s'} (runs : Exec frame.opened (.items items) s o s') :
      Exec frame (.stmt (.block ⟨items, span⟩)) s o s'
  | breaks {frame span s} : Exec frame (.stmt (.breakStmt span)) s .broken s
  | returns {frame span s} : Exec frame (.stmt (.returnStmt none span)) s (.returned none) s
  | gives {frame after value code span v s s'} (emitted : (value.emit env).Yields frame code after)
      (passes : P.Passes built code s [v] s') :
      Exec frame (.stmt (.returnStmt (some value) span)) s (.returned (some v)) s'
  | onTrue {frame mid cond yes no span s s₁ o s'}
      (tests : P.Tests built env (frame.withLabels 2) s true s₁ mid (some cond))
      (runs : Exec mid (.stmt yes) s₁ o s') :
      Exec frame (.stmt (.branch cond yes (some no) span)) s o s'
  | onFalse {frame mid mid' cond yes code no span s s₁ o s'}
      (tests : P.Tests built env (frame.withLabels 2) s false s₁ mid (some cond))
      (emitted : (yes.emit env).Yields mid code mid') (runs : Exec mid' (.stmt no) s₁ o s') :
      Exec frame (.stmt (.branch cond yes (some no) span)) s o s'
  | whenTrue {frame mid cond yes span s s₁ o s'}
      (tests : P.Tests built env (frame.withLabels 1) s true s₁ mid (some cond))
      (runs : Exec mid (.stmt yes) s₁ o s') : Exec frame (.stmt (.branch cond yes none span)) s o s'
  | whenFalse {frame mid cond yes span s s'}
      (tests : P.Tests built env (frame.withLabels 1) s false s' mid (some cond)) :
      Exec frame (.stmt (.branch cond yes none span)) s .normal s'
  | whileDone {frame mid cond body span s s'}
      (tests : P.Tests built env (frame.withLabels 2) s false s' mid (some cond)) :
      Exec frame (.stmt (.whileLoop cond body span)) s .normal s'
  | whileAgain {frame mid cond body span s s₁ s₂ o s'}
      (tests : P.Tests built env (frame.withLabels 2) s true s₁ mid (some cond))
      (runs : Exec (mid.breaking ⟨frame.labelCount + 1⟩) (.stmt body) s₁ .normal s₂)
      (goesOn : Exec frame (.stmt (.whileLoop cond body span)) s₂ o s') :
      Exec frame (.stmt (.whileLoop cond body span)) s o s'
  | whileLeft {frame mid cond body span s s₁ o s'}
      (tests : P.Tests built env (frame.withLabels 2) s true s₁ mid (some cond))
      (runs : Exec (mid.breaking ⟨frame.labelCount + 1⟩) (.stmt body) s₁ o s')
      (leaves : o ≠ .normal) : Exec frame (.stmt (.whileLoop cond body span)) s o.left s'
  | forLeft {frame init cond update body span s o s'}
      (runs : Exec (frame.withLabels 3) (.option init) s o s') (leaves : o ≠ .normal) :
      Exec frame (.stmt (.forLoop init cond update body span)) s o s'
  | forLoop {frame mid init code cond update body span s s₁ o s'}
      (runs : Exec (frame.withLabels 3) (.option init) s .normal s₁)
      (emitted : (emitOptional env init).Yields (frame.withLabels 3) code mid)
      (goesOn : Exec mid (.again ⟨frame.labelCount + 2⟩ cond update body) s₁ o s') :
      Exec frame (.stmt (.forLoop init cond update body span)) s o s'
  | againDone {frame turn test after finish cond update body s s'}
      (turns : Turns env frame finish body update turn test)
      (tests : P.Tests built env test s false s' after cond) :
      Exec frame (.again finish cond update body) s .normal s'
  | againNext {frame turn test after finish cond update body s s₁ s₂ s₃ o s'}
      (turns : Turns env frame finish body update turn test)
      (tests : P.Tests built env test s true s₁ after cond)
      (runs : Exec (frame.breaking finish) (.stmt body) s₁ .normal s₂)
      (updates : Exec turn (.option update) s₂ .normal s₃)
      (goesOn : Exec frame (.again finish cond update body) s₃ o s') :
      Exec frame (.again finish cond update body) s o s'
  | againLeft {frame turn test after finish cond update body s s₁ o s'}
      (turns : Turns env frame finish body update turn test)
      (tests : P.Tests built env test s true s₁ after cond)
      (runs : Exec (frame.breaking finish) (.stmt body) s₁ o s') (leaves : o ≠ .normal) :
      Exec frame (.again finish cond update body) s o.left s'
  | updateLeft {frame turn test after finish cond update body s s₁ s₂ o s'}
      (turns : Turns env frame finish body update turn test)
      (tests : P.Tests built env test s true s₁ after cond)
      (runs : Exec (frame.breaking finish) (.stmt body) s₁ .normal s₂)
      (updates : Exec turn (.option update) s₂ o s') (leaves : o ≠ .normal) :
      Exec frame (.again finish cond update body) s o s'
  | switch {frame mid selector tag type code cases default span v skipped s s₁ o s'}
      (noted : env.nodeType selector.id = .ok tag) (typed : env.type tag = .ok type)
      (emitted : (selector.emit env).Yields frame code mid)
      (passes : P.Passes built code s [v] s₁) (enters : P.Enters v cases skipped)
      (runs : Exec (((mid.withTemp type).withLabels (switchLabelCount cases default)).breaking
          ⟨mid.labelCount⟩) (.cases skipped cases default) (s₁.keep mid.locals.length v) o s') :
      Exec frame (.stmt (.switch selector cases default span)) s o.left s'
  | skip {frame mid label body code span cases default skipped s o s'}
      (emitted : (emitStmts env body).Yields frame code mid)
      (runs : Exec mid (.cases skipped cases default) s o s') :
      Exec frame (.cases (skipped + 1) (⟨label, body, span⟩ :: cases) default) s o s'
  | caseNext {frame mid label body code span cases default s s₁ o s'}
      (runs : Exec frame (.stmts body) s .normal s₁)
      (emitted : (emitStmts env body).Yields frame code mid)
      (goesOn : Exec mid (.cases 0 cases default) s₁ o s') :
      Exec frame (.cases 0 (⟨label, body, span⟩ :: cases) default) s o s'
  | caseLeft {frame label body span cases default s o s'}
      (runs : Exec frame (.stmts body) s o s') (leaves : o ≠ .normal) :
      Exec frame (.cases 0 (⟨label, body, span⟩ :: cases) default) s o s'
  | fallback {frame body span s o s'} (runs : Exec frame (.stmts body) s o s') :
      Exec frame (.cases 0 [] (some ⟨body, span⟩)) s o s'
  | noFallback {frame s} : Exec frame (.cases 0 [] none) s .normal s
  | optionSome {frame stmt s o s'} (runs : Exec frame (.stmt stmt) s o s') :
      Exec frame (.option (some stmt)) s o s'
  | optionNone {frame s} : Exec frame (.option none) s .normal s
  | stmtsNil {frame s} : Exec frame (.stmts []) s .normal s
  | stmtsNext {frame mid stmt code rest s s₁ o s'} (runs : Exec frame (.stmt stmt) s .normal s₁)
      (emitted : (stmt.emit env).Yields frame code mid) (goesOn : Exec mid (.stmts rest) s₁ o s') :
      Exec frame (.stmts (stmt :: rest)) s o s'
  | stmtsLeft {frame stmt rest s o s'} (runs : Exec frame (.stmt stmt) s o s')
      (leaves : o ≠ .normal) : Exec frame (.stmts (stmt :: rest)) s o s'
  | itemsNil {frame s} : Exec frame (.items []) s .normal s
  | itemsVar {frame mid decl tag rest s o s'} (written : env.writtenType decl.type = .ok tag)
      (emitted : (emitLocals env tag decl.names).Yields frame () mid)
      (goesOn : Exec mid (.items rest) s o s') : Exec frame (.items (.var decl :: rest)) s o s'
  | itemsNext {frame mid stmt code rest s s₁ o s'} (runs : Exec frame (.stmt stmt) s .normal s₁)
      (emitted : (stmt.emit env).Yields frame code mid) (goesOn : Exec mid (.items rest) s₁ o s') :
      Exec frame (.items (.stmt stmt :: rest)) s o s'
  | itemsLeft {frame stmt rest s o s'} (runs : Exec frame (.stmt stmt) s o s')
      (leaves : o ≠ .normal) : Exec frame (.items (.stmt stmt :: rest)) s o s'

end Platform

end StackCode
