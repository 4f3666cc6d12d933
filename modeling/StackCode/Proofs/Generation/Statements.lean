import StackCode.Proofs.Generation.Places

namespace StackCode

open Code Emit

def Env.SupportsEach (env : Env) (occurrences : List Occurrence) : Prop :=
  ∀ occurrence ∈ occurrences, env.Supports occurrence.names occurrence.node

variable {env : Env}

namespace Env

theorem supportsEach_append {xs ys : List Occurrence} :
    env.SupportsEach (xs ++ ys) ↔ env.SupportsEach xs ∧ env.SupportsEach ys :=
  List.forall_mem_append

theorem supportsEach_nil : env.SupportsEach [] := by simp [SupportsEach]

theorem supportsEach_inSight {names : List String} {nodes : List Node} :
    env.SupportsEach (inSight names nodes) ↔ env.SupportsAll names nodes := by
  simp [SupportsEach, SupportsAll, inSight]

theorem Ready.of_names {frame : Frame} {sight : Sight} {names others : List String}
    (ready : env.Ready frame sight names) (same : ∀ name, name ∈ names ↔ name ∈ others) :
    env.Ready frame sight others :=
  ⟨ready.toSees, fun name => (ready.knows name).trans (same name)⟩

/-- Generation is where a statement is checked: in a method with a result type, and where a `break`
has somewhere to go to if the statement is `leavable`. -/
structure Stands (env : Env) (result : Tag) (frame : Frame) (sight : Sight) (names : List String)
    (leavable : Bool) : Prop extends env.Ready frame sight names where
  returns : result ≠ .void → sight.registry.Valued result
  breaks : leavable = true → frame.breakLabels ≠ []

namespace Stands

variable {result : Tag} {frame after : Frame} {sight : Sight} {names : List String} {leavable : Bool}
  (stands : env.Stands result frame sight names leavable)

include stands

theorem emits {exits own : List Label} {code : Piece} {slots : Nat} {puts : Bool} {told : Telling}
    (emits : frame.Emits exits own code after slots puts told) :
    env.Stands result after sight names leavable :=
  ⟨stands.toReady.emits emits, stands.returns, by rw [emits.breaks]; exact stands.breaks⟩

theorem withTemp (type : Ty) : env.Stands result (frame.withTemp type) sight names leavable :=
  ⟨stands.toReady.withTemp type, stands.returns, stands.breaks⟩

theorem withLabels (count : Nat) :
    env.Stands result (frame.withLabels count) sight names leavable :=
  ⟨stands.toReady.withLabels count, stands.returns, stands.breaks⟩

theorem breaking (label : Label) : env.Stands result (frame.breaking label) sight names true :=
  ⟨stands.toReady.breaking label, stands.returns, fun _ => List.cons_ne_nil _ _⟩

theorem opened : env.Stands result frame.opened sight names leavable :=
  ⟨stands.toReady.opened, stands.returns, stands.breaks⟩

end Stands

end Env

section Parts

variable {sight : Sight} {names : List String} {frame : Frame}

theorem Designator.emitCall_succeeds {callee : Designator} {args : List Expr} {type : Tag}
    (typed : callee.CallTyped env.facts sight args type) :
    env.Needs sight names (callee.emitCall env args) (exprsSlots args)
      (callee.nodes ++ exprsNodes args) :=
  Designator.call_succeeds typed (emitExprs_succeeds args)

theorem emitDispatch_succeeds {slot : Nat} {pairs : List (SwitchCase × Label)}
    (fit : ∀ pair ∈ pairs, pair.1.label.Fits) :
    ∃ code, (emitDispatch slot pairs).Yields frame code frame := by
  induction pairs with
  | nil => exact ⟨[], emitDispatch_nil_yields.mpr ⟨rfl, rfl⟩⟩
  | cons pair pairs ih =>
    obtain ⟨case, label⟩ := pair
    obtain ⟨fits, others⟩ := List.forall_mem_cons.mp fit
    obtain ⟨instr, written⟩ := literalInstr_of_fits fits
    obtain ⟨code, more⟩ := ih others
    exact ⟨_, emitDispatch_cons_yields.mpr ⟨instr, code, written, more, rfl⟩⟩

theorem CasesTyped.fit {facts : Facts} {result selector : Tag} {seen : List Literal}
    {cases : List SwitchCase} (typed : CasesTyped facts result sight selector seen cases) :
    ∀ case ∈ cases, case.label.Fits := by
  induction cases generalizing seen with
  | nil => simp
  | cons case cases ih =>
    obtain ⟨label, body, span⟩ := case
    obtain ⟨labels, _, others⟩ := typed
    exact List.forall_mem_cons.mpr ⟨labels.1, ih others⟩

theorem emitLocals_stands {idents : List Ident} {tag result : Tag} {type : Ty} {leavable : Bool}
    (stands : env.Stands result frame sight names leavable) (valued : sight.registry.Valued tag)
    (typed : env.type tag = .ok type) (room : frame.locals.length + idents.length ≤ slotLimit) :
    ∃ after, (emitLocals env tag idents).Yields frame () after ∧
      env.Stands result after (sight.declareAll tag (idents.map (·.name)))
        (idents.map (·.name) ++ names) leavable := by
  induction idents generalizing frame sight names with
  | nil => exact ⟨frame, emitLocals_nil_yields.mpr rfl, stands⟩
  | cons ident idents ih =>
    rw [List.length_cons] at room
    have behind : env.Stands result (frame.withLocal ident.name type tag)
        (sight.declare ident.name ⟨tag, .var false⟩) (ident.name :: names) leavable :=
      ⟨stands.toReady.withLocal typed (.inr valued) (.inr rfl), stands.returns, stands.breaks⟩
    obtain ⟨after, declared, stands⟩ := ih behind valued (by
      simp only [Frame.withLocal, List.length_append, List.length_singleton]
      omega)
    refine ⟨after, emitLocals_cons_yields.mpr ⟨type, typed, by omega, declared⟩,
      stands.toReady.of_names fun name => ?_, stands.returns, stands.breaks⟩
    simp only [List.map_cons, List.mem_append, List.mem_cons, List.cons_append]
    tauto

end Parts

section Statements

variable {result : Tag}

mutual

theorem Stmt.emit_succeeds : ∀ (stmt : Stmt) {sight : Sight} {names : List String}
    {leavable : Bool} {frame : Frame}, env.Stands result frame sight names leavable →
    stmt.Typed env.facts result sight leavable → frame.locals.length + stmt.slots ≤ slotLimit →
    ((stmt.emit env).Succeeds frame ↔ env.SupportsEach (stmt.occurrences names))
  | .assign target value _, _, _, _, _, stands, ⟨_, _, writable, given, _⟩, room => by
    have settled := given.settled (writable.1.valued stands.sane)
    rw [Stmt.emit, Stmt.occurrences, Env.supportsEach_inSight]
    exact Designator.emitStore_succeeds writable (Expr.emit_emits value)
      (Expr.emit_succeeds value settled) stands.toReady room
  | .call callee args _, _, _, _, _, stands, ⟨_, typed⟩, room => by
    rw [Stmt.emit, Stmt.occurrences, Env.supportsEach_inSight,
      ← Designator.emitCall_succeeds typed stands.toReady room]
    exact succeeds_bind_always fun _ _ _ => succeeds_pure _
  | .increment _ _, _, _, _, _, stands, typed, room
  | .decrement _ _, _, _, _, _, stands, typed, room => by
    rw [Stmt.emit, Stmt.occurrences, Env.supportsEach_inSight]
    exact Designator.emitStep_succeeds typed stands.toReady room
  | .read target _, _, _, _, _, stands, ⟨_, writable, _⟩, room => by
    rw [Stmt.emit, Stmt.occurrences, Env.supportsEach_inSight, ← List.append_nil target.nodes]
    exact Designator.emitStore_succeeds writable readCode_emits .pure stands.toReady room
  | .write _ _ _, _, _, _, _, stands, ⟨_, typed, writable, fits⟩, room => by
    rw [Stmt.emit, Stmt.occurrences, Env.supportsEach_inSight]
    exact emitWrite_succeeds typed writable fits stands.toReady room
  | .branch cond onTrue (some onFalse) _, _, _, _, frame, stands, ⟨tested, yes, no⟩, room => by
    rw [Stmt.slots, optionSlots] at room
    rw [Stmt.emit, Stmt.occurrences, optionOccurrences, Env.supportsEach_append,
      Env.supportsEach_append, Env.supportsEach_inSight, succeeds_newLabel, succeeds_newLabel]
    have start : ((frame.withLabels 1).withLabels 1).locals.length = frame.locals.length := rfl
    have stands := (stands.withLabels 1).withLabels 1
    refine succeeds_bind_iff (Condition.emit_succeeds tested stands.toReady (by omega))
      fun _ mid emitted => ?_
    have grown : Frame.Emits [] [] _ _ mid cond.slots true _ := Condition.emit_emits emitted
    have count := grown.count
    have stands := stands.emits grown
    refine succeeds_bind_iff (Stmt.emit_succeeds onTrue stands yes (by omega)) fun _ after emitted => ?_
    have grown := Stmt.emit_emits onTrue (List.Subset.refl _) emitted
    rw [succeeds_bind_pure]
    exact Stmt.emit_succeeds onFalse (stands.emits grown) no (by rw [grown.count]; omega)
  | .branch cond onTrue none _, _, _, _, frame, stands, ⟨tested, yes, _⟩, room => by
    rw [Stmt.slots, optionSlots] at room
    rw [Stmt.emit, Stmt.occurrences, optionOccurrences, List.append_nil, Env.supportsEach_append,
      Env.supportsEach_inSight, succeeds_newLabel]
    have start : (frame.withLabels 1).locals.length = frame.locals.length := rfl
    have stands := stands.withLabels 1
    refine succeeds_bind_iff (Condition.emit_succeeds tested stands.toReady (by omega))
      fun _ mid emitted => ?_
    have grown : Frame.Emits [] [] _ _ mid cond.slots true _ := Condition.emit_emits emitted
    rw [succeeds_bind_pure]
    exact Stmt.emit_succeeds onTrue (stands.emits grown) yes (by rw [grown.count]; omega)
  | .whileLoop cond body _, _, _, _, frame, stands, ⟨tested, typed⟩, room => by
    rw [Stmt.slots] at room
    rw [Stmt.emit, Stmt.occurrences, Env.supportsEach_append, Env.supportsEach_inSight,
      succeeds_newLabel, succeeds_newLabel]
    have start : ((frame.withLabels 1).withLabels 1).locals.length = frame.locals.length := rfl
    have stands := (stands.withLabels 1).withLabels 1
    refine succeeds_bind_iff (Condition.emit_succeeds tested stands.toReady (by omega))
      fun _ mid emitted => ?_
    have grown : Frame.Emits [] [] _ _ mid cond.slots true _ := Condition.emit_emits emitted
    have count := grown.count
    rw [succeeds_bind_pure, breakingTo, succeeds_within]
    exact Stmt.emit_succeeds body ((stands.emits grown).breaking _) typed
      (show mid.locals.length + body.slots ≤ slotLimit by omega)
  | .forLoop init cond update body _, _, _, _, frame, stands, ⟨first, tested, next, typed⟩, room => by
    rw [Stmt.slots] at room
    rw [Stmt.emit, Stmt.occurrences, Env.supportsEach_append, Env.supportsEach_append,
      Env.supportsEach_append, Env.supportsEach_inSight, succeeds_newLabel, succeeds_newLabel,
      succeeds_newLabel]
    have start : (((frame.withLabels 1).withLabels 1).withLabels 1).locals.length =
      frame.locals.length := rfl
    have stands := ((stands.withLabels 1).withLabels 1).withLabels 1
    refine succeeds_bind_iff (emitOptional_succeeds init stands first (by omega))
      fun _ mid emitted => ?_
    have grown := emitOptional_emits init (List.Subset.refl _) emitted
    have count := grown.count
    have stands := stands.emits grown
    -- The code of the body stands before that of the update and the condition.
    rw [and_comm, and_assoc, and_left_comm]
    refine succeeds_bind_iff ?_ fun _ _ emitted => ?_
    · rw [breakingTo, succeeds_within]
      exact Stmt.emit_succeeds body (stands.breaking _) typed
        (show mid.locals.length + body.slots ≤ slotLimit by omega)
    obtain ⟨inner, looped, rfl⟩ := yields_breakingTo.mp emitted
    have grown := (Stmt.emit_emits body (List.Subset.refl _) looped).unbroken
    have count' := grown.count
    have stands := stands.emits grown
    refine succeeds_bind_iff (emitOptional_succeeds update stands next (by omega))
      fun _ after emitted => ?_
    have grown := emitOptional_emits update (List.Subset.refl _) emitted
    have count'' := grown.count
    cases cond with
    | none => exact iff_of_true (succeeds_pure _) Env.supportsAll_nil
    | some test =>
      simp only [Option.map_some, Option.getD_some] at room
      refine Iff.trans ?_
        (Condition.emit_succeeds (tested test rfl) (stands.emits grown).toReady (by omega))
      exact succeeds_bind_always fun _ _ _ => succeeds_pure _
  | .breakStmt _, _, _, _, frame, stands, typed, _ => by
    rw [Stmt.occurrences]
    refine iff_of_true ?_ Env.supportsEach_nil
    cases labels : frame.breakLabels with
    | nil => exact absurd labels (stands.breaks typed)
    | cons label others =>
      exact ⟨_, frame, Stmt.emit_break_yields.mpr ⟨label, by rw [labels]; rfl, rfl, rfl⟩⟩
  | .returnStmt none _, _, _, _, _, _, _, _ => by
    rw [Stmt.emit, Stmt.occurrences]
    exact iff_of_true (succeeds_pure _) Env.supportsEach_nil
  | .returnStmt (some value) _, _, _, _, _, stands, ⟨valuable, _, given, _⟩, room => by
    rw [Stmt.emit, Stmt.occurrences, Env.supportsEach_inSight, succeeds_bind_pure]
    exact Expr.emit_succeeds value (given.settled (stands.returns valuable)) stands.toReady room
  | .switch selector cases default _, _, names, _, frame, stands, ⟨tag, typed, selects, labelled, other⟩,
      room => by
    have settled : selector.Settled env.facts _ tag := .inr typed
    have known : tag ≠ .unknown := by
      rintro rfl
      cases selects
    have noted := Env.nodeType_of_facts settled.noted
    obtain ⟨type, typedSlot, _⟩ :=
      stands.type_of_valued ((settled.held stands.sane).resolve_left known)
    rw [Stmt.slots] at room
    have selected := Expr.emit_succeeds selector settled stands.toReady (by omega)
    have bodies {value : Piece} {mid : Frame} (emitted : (selector.emit env).Yields frame value mid) :
        (emitCases env (labelsFrom (mid.labelCount + 1) cases.length) cases >>= fun _ =>
          emitDefault env (switchFallback mid.labelCount cases.length default) default).Succeeds
          (((mid.withTemp type).withLabels (switchLabelCount cases default)).breaking
            ⟨mid.labelCount⟩) ↔ env.SupportsEach (casesOccurrences names cases) ∧
              env.SupportsEach (defaultOccurrences names default) := by
      have grown : Frame.Emits [] [] frame value mid selector.slots true _ := Expr.emit_emits selector emitted
      have count : (((mid.withTemp type).withLabels (switchLabelCount cases default)).breaking
          ⟨mid.labelCount⟩).locals.length = frame.locals.length + selector.slots + 1 := by
        rw [← grown.count]
        simp [Frame.breaking, Frame.withLabels, Frame.withTemp]
      have stands := (((stands.emits grown).withTemp type).withLabels
        (switchLabelCount cases default)).breaking ⟨mid.labelCount⟩
      have length : (labelsFrom (mid.labelCount + 1) cases.length).length = cases.length := by
        simp [labelsFrom]
      refine succeeds_bind_iff (emitCases_succeeds cases length stands labelled (by omega))
        fun _ mid' emitted => ?_
      have grown := emitCases_emits cases length (List.Subset.refl _) emitted
      exact emitDefault_succeeds default (stands.emits grown) other (by rw [grown.count]; omega)
    rw [Stmt.occurrences, Env.supportsEach_append, Env.supportsEach_append, Env.supportsEach_inSight,
      ← selected]
    constructor
    · rintro ⟨code, after, emitted⟩
      obtain ⟨_, value, mid, _, _, code, mid', last, inner, noted', emitted, typed, _, _, cased,
        defaulted, _⟩ := Stmt.emit_switch_yields.mp emitted
      cases noted.symm.trans noted'
      cases typedSlot.symm.trans typed
      exact ⟨⟨value, mid, emitted⟩, (bodies emitted).mp
        (succeeds_bind.mpr ⟨code, mid', cased, last, inner, defaulted⟩)⟩
    · rintro ⟨⟨value, mid, emitted⟩, supported⟩
      obtain ⟨code, mid', cased, last, inner, defaulted⟩ :=
        succeeds_bind.mp ((bodies emitted).mpr supported)
      have grown : Frame.Emits [] [] frame value mid selector.slots true _ := Expr.emit_emits selector emitted
      obtain ⟨dispatch, dispatched⟩ := emitDispatch_succeeds
        fun pair member => labelled.fit _ (List.of_mem_zip member).1
      exact ⟨_, _, Stmt.emit_switch_yields.mpr ⟨tag, value, mid, type, dispatch, code, mid', last,
        inner, noted, emitted, typedSlot, by rw [grown.count]; omega, dispatched, cased, defaulted, rfl,
        rfl⟩⟩
  | .block ⟨items, _⟩, _, _, _, _, stands, typed, room => by
    rw [Stmt.emit, Stmt.occurrences, inBlock, succeeds_within]
    exact emitItems_succeeds items stands.opened typed room
  | .empty _, _, _, _, _, _, _, _ => by
    rw [Stmt.emit, Stmt.occurrences]
    exact iff_of_true (succeeds_pure _) Env.supportsEach_nil

theorem emitOptional_succeeds : ∀ (stmt : Option Stmt) {sight : Sight} {names : List String}
    {leavable : Bool} {frame : Frame}, env.Stands result frame sight names leavable →
    OptionTyped env.facts result sight leavable stmt →
    frame.locals.length + optionSlots stmt ≤ slotLimit →
    ((emitOptional env stmt).Succeeds frame ↔ env.SupportsEach (optionOccurrences names stmt))
  | none, _, _, _, _, _, _, _ => by
    rw [emitOptional, optionOccurrences]
    exact iff_of_true (succeeds_pure _) Env.supportsEach_nil
  | some stmt, _, _, _, _, stands, typed, room => by
    rw [emitOptional, optionOccurrences]
    exact Stmt.emit_succeeds stmt stands typed room

theorem emitStmts_succeeds : ∀ (stmts : List Stmt) {sight : Sight} {names : List String}
    {frame : Frame}, env.Stands result frame sight names true →
    StmtsTyped env.facts result sight stmts → frame.locals.length + stmtsSlots stmts ≤ slotLimit →
    ((emitStmts env stmts).Succeeds frame ↔ env.SupportsEach (stmtsOccurrences names stmts))
  | [], _, _, _, _, _, _ => by
    rw [emitStmts, stmtsOccurrences]
    exact iff_of_true (succeeds_pure _) Env.supportsEach_nil
  | stmt :: rest, _, _, frame, stands, ⟨typed, others⟩, room => by
    rw [stmtsSlots] at room
    rw [emitStmts, stmtsOccurrences, Env.supportsEach_append]
    refine succeeds_bind_iff (Stmt.emit_succeeds stmt stands typed (by omega)) fun _ mid emitted => ?_
    have grown := Stmt.emit_emits stmt (List.Subset.refl _) emitted
    rw [succeeds_bind_pure]
    exact emitStmts_succeeds rest (stands.emits grown) others (by rw [grown.count]; omega)

theorem emitCases_succeeds : ∀ (cases : List SwitchCase) {labels : List Label} {sight : Sight}
    {names : List String} {selector : Tag} {seen : List Literal} {frame : Frame},
    labels.length = cases.length → env.Stands result frame sight names true →
    CasesTyped env.facts result sight selector seen cases →
    frame.locals.length + casesSlots cases ≤ slotLimit →
    ((emitCases env labels cases).Succeeds frame ↔ env.SupportsEach (casesOccurrences names cases))
  | [], _, _, _, _, _, _, _, _, _, _ => by
    rw [casesOccurrences]
    exact iff_of_true ⟨_, _, emitCases_nil_yields.mpr ⟨rfl, rfl⟩⟩ Env.supportsEach_nil
  | ⟨_, _, _⟩ :: _, [], _, _, _, _, _, length, _, _, _ => by cases length
  | ⟨_, body, _⟩ :: rest, _ :: _, _, _, _, _, frame, length, stands, ⟨_, typed, others⟩, room => by
    rw [casesSlots] at room
    rw [emitCases, casesOccurrences, Env.supportsEach_append]
    refine succeeds_bind_iff (emitStmts_succeeds body stands typed (by omega)) fun _ mid emitted => ?_
    have grown := emitStmts_emits body (List.Subset.refl _) emitted
    rw [succeeds_bind_pure]
    exact emitCases_succeeds rest (Nat.succ.inj length) (stands.emits grown) others
      (by rw [grown.count]; omega)

theorem emitDefault_succeeds : ∀ (default : Option DefaultCase) {label : Label} {sight : Sight}
    {names : List String} {frame : Frame}, env.Stands result frame sight names true →
    DefaultTyped env.facts result sight default →
    frame.locals.length + defaultSlots default ≤ slotLimit →
    ((emitDefault env label default).Succeeds frame ↔
      env.SupportsEach (defaultOccurrences names default))
  | none, _, _, _, _, _, _, _ => by
    rw [emitDefault, defaultOccurrences]
    exact iff_of_true (succeeds_pure _) Env.supportsEach_nil
  | some ⟨body, _⟩, _, _, _, _, stands, typed, room => by
    rw [emitDefault, defaultOccurrences, succeeds_bind_pure]
    exact emitStmts_succeeds body stands typed room

theorem emitItems_succeeds : ∀ (items : List BlockItem) {sight : Sight} {names taken : List String}
    {leavable : Bool} {frame : Frame}, env.Stands result frame sight names leavable →
    ItemsTyped env.facts result sight leavable taken items →
    frame.locals.length + itemsSlots items ≤ slotLimit →
    ((emitItems env items).Succeeds frame ↔ env.SupportsEach (itemsOccurrences names items))
  | [], _, _, _, _, _, _, _, _ => by
    rw [emitItems, itemsOccurrences]
    exact iff_of_true (succeeds_pure _) Env.supportsEach_nil
  | .var ⟨_, idents, _⟩ :: rest, _, _, _, _, frame, stands, ⟨known, value, _, typed⟩, room => by
    simp only [itemsSlots] at room
    have valued := stands.sane.valued_of_stores ⟨known, value⟩
    obtain ⟨type, typedVar, _⟩ := stands.type_of_valued valued
    obtain ⟨after, declared, behind⟩ :=
      emitLocals_stands stands valued typedVar (by omega : frame.locals.length + idents.length ≤ _)
    have grown : Frame.Grows [] [] frame [] after idents.length := (emitLocals_grows declared).1
    rw [emitItems, itemsOccurrences, succeeds_lift (stands.writtenType known),
      succeeds_yields declared]
    exact emitItems_succeeds rest behind typed (by rw [grown.count]; omega)
  | .stmt stmt :: rest, _, _, _, _, frame, stands, ⟨typed, others⟩, room => by
    rw [itemsSlots] at room
    rw [emitItems, itemsOccurrences, Env.supportsEach_append]
    refine succeeds_bind_iff (Stmt.emit_succeeds stmt stands typed (by omega)) fun _ mid emitted => ?_
    have grown := Stmt.emit_emits stmt (List.Subset.refl _) emitted
    rw [succeeds_bind_pure]
    exact emitItems_succeeds rest (stands.emits grown) others (by rw [grown.count]; omega)

end

end Statements

end StackCode
