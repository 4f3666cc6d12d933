import StackCode.Proofs.Emission.ExprCode

namespace StackCode

open Code Emit

variable {env : Env} {before after : Frame} {code : Piece}

/-! Opening an emitter and its binds leaves the pieces as they follow one another. -/

attribute [local simp] yields_bind yields_pure yields_map yields_lift yields_temp yields_newLabel
  yields_get yields_newLocal yields_discard not_yields_throw

theorem CondFact.emit_yields {fact : CondFact} :
    (fact.emit env).Yields before code after ↔ match fact.kind with
      | .expr value => (value.emit env).Yields before code after
      | .relation left op right => ∃ strings l mid r, env.areStrings left right = .ok strings ∧
          (left.emit env).Yields before l mid ∧ (right.emit env).Yields mid r after ∧
          code = l ++ r ++ compareCode strings op := by
  cases kind : fact.kind <;> simp [CondFact.emit, kind]

variable {join : Piece}

theorem emitFacts_nil_yields :
    (emitFacts env join []).Yields before code after ↔ code = [] ∧ after = before := by
  rw [emitFacts, yields_pure]

theorem emitFacts_cons_yields {fact : CondFact} {rest : List CondFact} :
    (emitFacts env join (fact :: rest)).Yields before code after ↔
      ∃ value mid others, (fact.emit env).Yields before value mid ∧
        (emitFacts env [.and] rest).Yields mid others after ∧ code = value ++ join ++ others := by
  simp [emitFacts]

theorem emitCondTerms_nil_yields :
    (emitCondTerms env join []).Yields before code after ↔ code = [] ∧ after = before := by
  rw [emitCondTerms, yields_pure]

theorem emitCondTerms_cons_yields {term : CondTerm} {rest : List CondTerm} :
    (emitCondTerms env join (term :: rest)).Yields before code after ↔
      ∃ value mid others, (emitFacts env [] term.facts).Yields before value mid ∧
        (emitCondTerms env [.or] rest).Yields mid others after ∧
        code = value ++ join ++ others := by
  simp [emitCondTerms]

variable {tag : Tag}

section Places

theorem Designator.emitContainer_yields {target : Designator} :
    (target.emitContainer env).Yields before (code, tag) after ↔
      ∃ value first selected, (emitBase env target.base.name).Yields before (value, first) before ∧
        (emitSelectors env first target.selectors.dropLast).Yields before (selected, tag) after ∧
        code = value ++ selected := by
  simp only [Designator.emitContainer, yields_bind, yields_pure, Prod.exists, emitBase_yields]
  grind

variable {target : Designator} {value : Emit Piece}

theorem Designator.emitStore_name_yields (bare : target.selectors.getLast? = none) :
    (target.emitStore env value).Yields before code after ↔
      ∃ stored home put, value.Yields before stored after ∧
        env.home after target.base.name = .ok home ∧ home.put = some put ∧
        code = stored ++ [put] := by
  simp only [Designator.emitStore, bare, yields_bind, yields_pure, emitPut_yields]
  grind

theorem Designator.emitStore_field_yields {field : Ident}
    (last : target.selectors.getLast? = some (.field field)) :
    (target.emitStore env value).Yields before code after ↔
      ∃ container tag mid className stored,
        (target.emitContainer env).Yields before (container, tag) mid ∧
        env.classNamed tag = .ok className ∧ value.Yields mid stored after ∧
        code = container ++ stored ++ ([.stfld className field.name] : Piece) := by
  simp [Designator.emitStore, last]

theorem Designator.emitStore_index_yields {index : Expr}
    (last : target.selectors.getLast? = some (.index index)) :
    (target.emitStore env value).Yields before code after ↔
      ∃ container tag mid position mid' stored elem,
        (target.emitContainer env).Yields before (container, tag) mid ∧
        (index.emit env).Yields mid position mid' ∧ value.Yields mid' stored after ∧
        env.type tag.element = .ok elem ∧
        code = container ++ position ++ stored ++ ([.callvirt .setItem elem] : Piece) := by
  simp [Designator.emitStore, last]

variable {op : StepOp}

theorem Designator.emitStep_name_yields (bare : target.selectors.getLast? = none) :
    (target.emitStep env op).Yields before code after ↔
      ∃ home value tag put, env.home before target.base.name = .ok home ∧
        home.load = .ok (value, tag) ∧ home.put = some put ∧ after = before ∧
        code = value ++ ([.ldcI4 1, op.instr, put] : Piece) := by
  simp only [Designator.emitStep, bare, yields_bind, yields_pure, Prod.exists, emitPut_yields,
    emitBase_yields]
  grind

theorem Designator.emitStep_field_yields {field : Ident}
    (last : target.selectors.getLast? = some (.field field)) :
    (target.emitStep env op).Yields before code after ↔
      ∃ container tag className, (target.emitContainer env).Yields before (container, tag) after ∧
        env.classNamed tag = .ok className ∧
        code = container ++ ([.dup, .ldfld className field.name, .ldcI4 1, op.instr,
          .stfld className field.name] : Piece) := by
  simp [Designator.emitStep, last]

theorem Designator.emitStep_index_yields {index : Expr}
    (last : target.selectors.getLast? = some (.index index)) :
    (target.emitStep env op).Yields before code after ↔
      ∃ container tag mid elem listType position mid' int,
        (target.emitContainer env).Yields before (container, tag) mid ∧
        env.type tag.element = .ok elem ∧ env.type tag = .ok listType ∧
        mid.locals.length < slotLimit ∧
        (index.emit env).Yields (mid.withTemp listType) position mid' ∧
        env.type .int = .ok int ∧ mid'.locals.length < slotLimit ∧ after = mid'.withTemp int ∧
        code = container ++ ([.stloc mid.locals.length] : Piece) ++ position ++
          ([.stloc mid'.locals.length, .ldloc mid.locals.length, .ldloc mid'.locals.length,
            .ldloc mid.locals.length, .ldloc mid'.locals.length, .callvirt .getItem elem, .ldcI4 1,
            op.instr, .callvirt .setItem elem] : Piece) := by
  simp [Designator.emitStep, last, and_assoc]

end Places

theorem emitWrite_yields {value : Expr} {width : Option Int64} :
    (emitWrite env value width).Yields before code after ↔
      ∃ written tag type, (value.emit env).Yields before written after ∧
        env.nodeType value.id = .ok tag ∧ env.type tag = .ok type ∧
        match width with
        | none => code = written ++ ([.callHost (.write type)] : Piece)
        | some width => fitsInt32 width.toInt = true ∧
            code = written ++ ([.ldcI4 (Int32.ofInt width.toInt), .callHost (.writePadded type)] : Piece) := by
  cases width <;> simp [emitWrite, yields_ite]

def labelsFrom (first count : Nat) : List Label := (List.range' first count).map Label.mk

variable {labels : List Label}

theorem newLabels_yields {count : Nat} :
    (newLabels count).Yields before labels after ↔
      labels = labelsFrom before.labelCount count ∧ after = before.withLabels count := by
  induction count generalizing before after labels with
  | zero => rw [newLabels, yields_pure]; rfl
  | succ count ih =>
    rw [newLabels]
    simp only [yields_bind, yields_newLabel, yields_pure, ih]
    constructor
    · rintro ⟨_, _, ⟨rfl, rfl⟩, _, _, ⟨rfl, rfl⟩, rfl, rfl⟩
      refine ⟨rfl, ?_⟩
      simp only [Frame.withLabels]
      congr 1
      omega
    · rintro ⟨rfl, rfl⟩
      refine ⟨_, _, ⟨rfl, rfl⟩, _, _, ⟨rfl, rfl⟩, rfl, ?_⟩
      simp only [Frame.withLabels]
      congr 1
      omega

theorem emitDispatch_nil_yields {slot : Nat} :
    (emitDispatch slot []).Yields before code after ↔ code = [] ∧ after = before := by
  rw [emitDispatch, yields_pure]

variable {label : Label}

theorem emitDispatch_cons_yields {slot : Nat} {case : SwitchCase} {rest : List (SwitchCase × Label)} :
    (emitDispatch slot ((case, label) :: rest)).Yields before code after ↔
      ∃ value others, literalInstr case.label = .ok value ∧
        (emitDispatch slot rest).Yields before others after ∧
        code = ([.ldloc slot, value, .beq label] : Piece) ++ others := by
  simp [emitDispatch]

theorem emitLocals_nil_yields {u : Unit} :
    (emitLocals env tag []).Yields before u after ↔ after = before := by
  rw [emitLocals, yields_pure]
  simp

theorem emitLocals_cons_yields {name : Ident} {names : List Ident} {u : Unit} :
    (emitLocals env tag (name :: names)).Yields before u after ↔
      ∃ type, env.type tag = .ok type ∧ before.locals.length < slotLimit ∧
        (emitLocals env tag names).Yields (before.withLocal name.name type tag) () after := by
  simp [emitLocals, and_assoc]

def Frame.breaking (frame : Frame) (label : Label) : Frame :=
  { frame with breakLabels := label :: frame.breakLabels }

def Frame.unbroken (frame : Frame) : Frame := { frame with breakLabels := frame.breakLabels.tail }

def Frame.opened (frame : Frame) : Frame := { frame with scopes := [] :: frame.scopes }

def Frame.closed (frame : Frame) : Frame := { frame with scopes := frame.scopes.tail }

theorem yields_breakingTo {α : Type} {action : Emit α} {a : α} :
    (breakingTo label action).Yields before a after ↔
      ∃ inner, action.Yields (before.breaking label) a inner ∧ after = inner.unbroken :=
  yields_within

theorem yields_inBlock {α : Type} {action : Emit α} {a : α} :
    (inBlock action).Yields before a after ↔
      ∃ inner, action.Yields before.opened a inner ∧ after = inner.closed :=
  yields_within

section Statements

variable {span : Span}

attribute [local simp] Stmt.emit emitOptional emitStmts emitCases emitDefault emitItems

theorem Stmt.emit_assign_yields {target : Designator} {value : Expr} :
    (Stmt.emit env (.assign target value span)).Yields before code after ↔
      (target.emitStore env (value.emit env)).Yields before code after := by
  simp

def readCode : Piece := [.callHost .readLine, .callHost .parseInt]

theorem Stmt.emit_read_yields {target : Designator} :
    (Stmt.emit env (.read target span)).Yields before code after ↔
      (target.emitStore env (pure readCode)).Yields before code after := by
  rfl

theorem Stmt.emit_increment_yields {target : Designator} :
    (Stmt.emit env (.increment target span)).Yields before code after ↔
      (target.emitStep env .increment).Yields before code after := by
  simp

theorem Stmt.emit_decrement_yields {target : Designator} :
    (Stmt.emit env (.decrement target span)).Yields before code after ↔
      (target.emitStep env .decrement).Yields before code after := by
  simp

theorem Stmt.emit_call_yields {callee : Designator} {args : List Expr} :
    (Stmt.emit env (.call callee args span)).Yields before code after ↔
      ∃ call result, (callee.emitCall env args).Yields before (call, result) after ∧
        code = call ++ (if result = .void then [] else ([.pop] : Piece)) := by
  simp [Stmt.emit]

theorem Stmt.emit_write_yields {value : Expr} {width : Option Int64} :
    (Stmt.emit env (.write value width span)).Yields before code after ↔
      (emitWrite env value width).Yields before code after := by
  simp

variable {cond : Condition}

theorem Stmt.emit_branch_yields {onTrue onFalse : Stmt} :
    (Stmt.emit env (.branch cond onTrue (some onFalse) span)).Yields before code after ↔
      ∃ test mid yes mid' no, (cond.emit env).Yields (before.withLabels 2) test mid ∧
        (onTrue.emit env).Yields mid yes mid' ∧ (onFalse.emit env).Yields mid' no after ∧
        code = test ++ ([.brfalse ⟨before.labelCount + 1⟩] : Piece) ++ yes ++
          ([.br ⟨before.labelCount⟩, .mark ⟨before.labelCount + 1⟩] : Piece) ++ no ++
          ([.mark ⟨before.labelCount⟩] : Piece) := by
  simp [Stmt.emit, Frame.withLabels]

theorem Stmt.emit_when_yields {onTrue : Stmt} :
    (Stmt.emit env (.branch cond onTrue none span)).Yields before code after ↔
      ∃ test mid yes, (cond.emit env).Yields (before.withLabels 1) test mid ∧
        (onTrue.emit env).Yields mid yes after ∧
        code = test ++ ([.brfalse ⟨before.labelCount⟩] : Piece) ++ yes ++
          ([.mark ⟨before.labelCount⟩] : Piece) := by
  simp [Stmt.emit, Frame.withLabels]

theorem Stmt.emit_while_yields {body : Stmt} :
    (Stmt.emit env (.whileLoop cond body span)).Yields before code after ↔
      ∃ test mid inner loop, (cond.emit env).Yields (before.withLabels 2) test mid ∧
        (body.emit env).Yields (mid.breaking ⟨before.labelCount + 1⟩) loop inner ∧
        after = inner.unbroken ∧
        code = ([.mark ⟨before.labelCount⟩] : Piece) ++ test ++
          ([.brfalse ⟨before.labelCount + 1⟩] : Piece) ++ loop ++
          ([.br ⟨before.labelCount⟩, .mark ⟨before.labelCount + 1⟩] : Piece) := by
  simp only [Stmt.emit, yields_bind, yields_pure, yields_newLabel, yields_breakingTo, Frame.withLabels]
  grind

def emitAgain (env : Env) (start : Label) : Option Condition → Emit Piece
  | some cond => do return (← cond.emit env) ++ ([.brtrue start] : Piece)
  | none => return [.br start]

theorem emitAgain_some_yields {start : Label} :
    (emitAgain env start (some cond)).Yields before code after ↔
      ∃ test, (cond.emit env).Yields before test after ∧
        code = test ++ ([.brtrue start] : Piece) := by
  simp only [emitAgain, yields_bind, yields_pure]
  constructor
  · rintro ⟨test, _, tested, rfl, rfl⟩
    exact ⟨test, tested, rfl⟩
  · rintro ⟨test, tested, rfl⟩
    exact ⟨test, _, tested, rfl, rfl⟩

theorem emitAgain_none_yields {start : Label} :
    (emitAgain env start none).Yields before code after ↔ code = [.br start] ∧ after = before := by
  rw [emitAgain, yields_pure]

theorem Stmt.emit_for_yields {init : Option Stmt} {cond : Option Condition} {update : Option Stmt}
    {body : Stmt} :
    (Stmt.emit env (.forLoop init cond update body span)).Yields before code after ↔
      ∃ first mid loop inner next mid' again,
        (emitOptional env init).Yields (before.withLabels 3) first mid ∧
        (body.emit env).Yields (mid.breaking ⟨before.labelCount + 2⟩) loop inner ∧
        (emitOptional env update).Yields inner.unbroken next mid' ∧
        (emitAgain env ⟨before.labelCount⟩ cond).Yields mid' again after ∧
        code = first ++ ([.br ⟨before.labelCount + 1⟩, .mark ⟨before.labelCount⟩] : Piece) ++ loop ++
          next ++ ([.mark ⟨before.labelCount + 1⟩] : Piece) ++ again ++
          ([.mark ⟨before.labelCount + 2⟩] : Piece) := by
  cases cond <;> simp [Stmt.emit, yields_breakingTo, emitAgain, Frame.withLabels]

theorem Stmt.emit_break_yields :
    (Stmt.emit env (.breakStmt span)).Yields before code after ↔
      ∃ target, before.breakLabels.head? = some target ∧ code = [.br target] ∧ after = before := by
  cases found : before.breakLabels.head? <;> simp [Stmt.emit, found]

theorem Stmt.emit_return_some_yields {value : Expr} :
    (Stmt.emit env (.returnStmt (some value) span)).Yields before code after ↔
      ∃ result, (value.emit env).Yields before result after ∧ code = result ++ ([.ret] : Piece) := by
  simp [Stmt.emit]

theorem Stmt.emit_return_none_yields :
    (Stmt.emit env (.returnStmt none span)).Yields before code after ↔
      code = [.ret] ∧ after = before := by
  rw [Stmt.emit, yields_pure]

theorem Stmt.emit_block_yields {items : List BlockItem} :
    (Stmt.emit env (.block ⟨items, span⟩)).Yields before code after ↔
      ∃ inner, (emitItems env items).Yields before.opened code inner ∧ after = inner.closed := by
  rw [Stmt.emit, yields_inBlock]

theorem Stmt.emit_empty_yields :
    (Stmt.emit env (.empty span)).Yields before code after ↔ code = [] ∧ after = before := by
  rw [Stmt.emit, yields_pure]

theorem emitDispatch_frame {slot : Nat} {pairs : List (SwitchCase × Label)}
    (emitted : (emitDispatch slot pairs).Yields before code after) : after = before := by
  induction pairs generalizing code with
  | nil => exact (emitDispatch_nil_yields.mp emitted).2
  | cons pair rest ih =>
    obtain ⟨_, _, _, more, _⟩ := emitDispatch_cons_yields.mp emitted
    exact ih more

def switchFallback (finish count : Nat) (default : Option DefaultCase) : Label :=
  if default.isSome then ⟨finish + 1 + count⟩ else ⟨finish⟩

def switchLabelCount (cases : List SwitchCase) (default : Option DefaultCase) : Nat :=
  1 + cases.length + if default.isSome then 1 else 0

theorem switchFallback_yields {finish : Label} {default : Option DefaultCase} {k : Label → Emit Piece} :
    (if default.isSome then newLabel >>= k else pure finish >>= k).Yields before code after ↔
      (k (if default.isSome then ⟨before.labelCount⟩ else finish)).Yields
        (before.withLabels default.isSome.toNat) code after := by
  cases default <;> simp [Frame.withLabels]

theorem Stmt.emit_switch_yields {selector : Expr} {cases : List SwitchCase}
    {default : Option DefaultCase} :
    (Stmt.emit env (.switch selector cases default span)).Yields before code after ↔
      ∃ tag value mid type dispatch bodies mid' last inner, env.nodeType selector.id = .ok tag ∧
        (selector.emit env).Yields before value mid ∧ env.type tag = .ok type ∧
        mid.locals.length < slotLimit ∧
        (emitDispatch mid.locals.length
            (cases.zip (labelsFrom (mid.labelCount + 1) cases.length))).Yields
          ((mid.withTemp type).withLabels (switchLabelCount cases default)) dispatch
          ((mid.withTemp type).withLabels (switchLabelCount cases default)) ∧
        (emitCases env (labelsFrom (mid.labelCount + 1) cases.length) cases).Yields
          (((mid.withTemp type).withLabels (switchLabelCount cases default)).breaking
            ⟨mid.labelCount⟩) bodies mid' ∧
        (emitDefault env (switchFallback mid.labelCount cases.length default) default).Yields
          mid' last inner ∧
        after = inner.unbroken ∧
        code = value ++ ([.stloc mid.locals.length] : Piece) ++ dispatch ++
          ([.br (switchFallback mid.labelCount cases.length default)] : Piece) ++ (bodies ++ last) ++
          ([.mark ⟨mid.labelCount⟩] : Piece) := by
  have frames (frame : Frame) :
      (({ frame with labelCount := frame.labelCount + 1 } : Frame).withLabels cases.length).withLabels
        default.isSome.toNat = frame.withLabels (switchLabelCount cases default) := by
    cases default <;> simp [Frame.withLabels, switchLabelCount] <;> omega
  rw [Stmt.emit]
  simp only [yields_bind, yields_lift, yields_pure, yields_temp, yields_newLabel, newLabels_yields,
    switchFallback_yields, yields_breakingTo]
  constructor
  · rintro ⟨tag, _, ⟨noted, rfl⟩, value, mid, selected, _, _, ⟨type, typed, room, rfl, rfl⟩, _, _,
      ⟨rfl, rfl⟩, _, _, ⟨rfl, rfl⟩, dispatch, _, dispatched, _, _,
      ⟨inner, ⟨bodies, mid', cased, last, _, defaulted, rfl, rfl⟩, rfl⟩, rfl, rfl⟩
    cases emitDispatch_frame dispatched
    rw [frames] at dispatched cased
    exact ⟨tag, value, mid, type, dispatch, bodies, mid', last, _, noted, selected, typed, room,
      dispatched, cased, defaulted, rfl, rfl⟩
  · rintro ⟨tag, value, mid, type, dispatch, bodies, mid', last, inner, noted, selected, typed,
      room, dispatched, cased, defaulted, rfl, rfl⟩
    rw [← frames] at dispatched cased
    exact ⟨tag, _, ⟨noted, rfl⟩, value, mid, selected, _, _, ⟨type, typed, room, rfl, rfl⟩, _, _,
      ⟨rfl, rfl⟩, _, _, ⟨rfl, rfl⟩, dispatch, _, dispatched, _, _,
      ⟨inner, ⟨bodies, mid', cased, last, _, defaulted, rfl, rfl⟩, rfl⟩, rfl, rfl⟩

theorem emitOptional_some_yields {stmt : Stmt} :
    (emitOptional env (some stmt)).Yields before code after ↔
      (stmt.emit env).Yields before code after := by
  rw [emitOptional]

theorem emitOptional_none_yields :
    (emitOptional env none).Yields before code after ↔ code = [] ∧ after = before := by
  rw [emitOptional, yields_pure]

theorem emitStmts_nil_yields :
    (emitStmts env []).Yields before code after ↔ code = [] ∧ after = before := by
  rw [emitStmts, yields_pure]

theorem emitStmts_cons_yields {stmt : Stmt} {rest : List Stmt} :
    (emitStmts env (stmt :: rest)).Yields before code after ↔
      ∃ first mid others, (stmt.emit env).Yields before first mid ∧
        (emitStmts env rest).Yields mid others after ∧ code = first ++ others := by
  simp [emitStmts]

theorem emitCases_nil_yields :
    (emitCases env labels []).Yields before code after ↔ code = [] ∧ after = before := by
  simp

theorem emitCases_cons_yields {value : Literal} {body : List Stmt} {cases : List SwitchCase} :
    (emitCases env (label :: labels) (⟨value, body, span⟩ :: cases)).Yields before code after ↔
      ∃ first mid others, (emitStmts env body).Yields before first mid ∧
        (emitCases env labels cases).Yields mid others after ∧
        code = ([.mark label] : Piece) ++ first ++ others := by
  simp [emitCases]

theorem emitDefault_some_yields {body : List Stmt} :
    (emitDefault env label (some ⟨body, span⟩)).Yields before code after ↔
      ∃ rest, (emitStmts env body).Yields before rest after ∧
        code = ([.mark label] : Piece) ++ rest := by
  simp [emitDefault]

theorem emitDefault_none_yields :
    (emitDefault env label none).Yields before code after ↔ code = [] ∧ after = before := by
  rw [emitDefault, yields_pure]

theorem emitItems_nil_yields :
    (emitItems env []).Yields before code after ↔ code = [] ∧ after = before := by
  rw [emitItems, yields_pure]

theorem emitItems_var_yields {decl : VarDecl} {rest : List BlockItem} :
    (emitItems env (.var decl :: rest)).Yields before code after ↔
      ∃ tag mid, env.writtenType decl.type = .ok tag ∧
        (emitLocals env tag decl.names).Yields before () mid ∧
        (emitItems env rest).Yields mid code after := by
  simp [emitItems, Unique.exists_iff]

theorem emitItems_stmt_yields {stmt : Stmt} {rest : List BlockItem} :
    (emitItems env (.stmt stmt :: rest)).Yields before code after ↔
      ∃ first mid others, (stmt.emit env).Yields before first mid ∧
        (emitItems env rest).Yields mid others after ∧ code = first ++ others := by
  simp [emitItems]

end Statements

theorem emitParams_nil_yields {i : Nat} :
    (emitParams env i []).Yields before code after ↔ code = [] ∧ after = before := by
  rw [emitParams, yields_pure]

theorem emitParams_cons_yields {i : Nat} {name : String} {params : List (String × Tag)} :
    (emitParams env i ((name, tag) :: params)).Yields before code after ↔
      ∃ type others, env.type tag = .ok type ∧ before.locals.length < slotLimit ∧
        (emitParams env (i + 1) params).Yields (before.withLocal name type tag) others after ∧
        code = ([.ldarg i, .stloc before.locals.length] : Piece) ++ others := by
  simp [emitParams, and_assoc]

def epilogue (result : Ty) (code : Piece) : Piece :=
  if code.getLast? = some .ret then [] else result.defaultCode ++ ([.ret] : Piece)

theorem emitBody_yields {params : List (String × Tag)} {result : Ty} {items : List BlockItem} :
    (emitBody env params result items).Yields before code after ↔
      ∃ entry mid body, (emitParams env 0 params).Yields before entry mid ∧
        (emitItems env items).Yields mid body after ∧
        code = entry ++ body ++ epilogue result (entry ++ body) := by
  simp only [emitBody, epilogue, yields_bind, yields_ite, yields_pure]
  grind

theorem ite_throw_eq_ok {α : Type} {condition : Prop} [Decidable condition] {a b : α}
    {cause : Unsupported} :
    (if condition then pure a else throw cause : Except Unsupported α) = .ok b ↔
      b = a ∧ condition := by
  split
  · simp [pure_eq_ok, *]
  · simp [throw, throwThe, MonadExceptOf.throw, *]

theorem Env.methodFrom_eq_ok {breaks : List Label} {decl : MethodDecl} {made : Method × List Label} :
    env.methodFrom breaks decl = .ok made ↔
      ∃ resultTag tags params result code frame, env.resultTag decl.result = .ok resultTag ∧
        env.params decl.params = .ok (tags, params) ∧ env.type resultTag = .ok result ∧
        (emitBody env tags result decl.body.items).Yields { scopes := [[]], breakLabels := breaks }
          code frame ∧
        made = ({ name := decl.name.name, params, result, locals := frame.locals, code
                  labelCount := frame.labelCount }, frame.breakLabels) ∧
        made.1.isResolved = true := by
  unfold Env.methodFrom
  simp only [bind_eq_ok (x := env.resultTag _), bind_eq_ok (x := env.params _),
    bind_eq_ok (x := env.type _), Prod.exists]
  constructor
  · rintro ⟨resultTag, written, tags, params, listed, result, typed, rest⟩
    rcases ran : ((emitBody env tags result decl.body.items).run.run
      { scopes := [[]], breakLabels := breaks } : Except Unsupported Piece × Frame) with ⟨code, frame⟩
    rw [ran] at rest
    obtain ⟨code, rfl, rest⟩ := bind_eq_ok.mp rest
    obtain ⟨rfl, resolved⟩ := ite_throw_eq_ok.mp rest
    exact ⟨resultTag, tags, params, result, code, frame, written, listed, typed, ran, rfl, resolved⟩
  · rintro ⟨resultTag, tags, params, result, code, frame, written, listed, typed, emitted, rfl, resolved⟩
    have ran : ((emitBody env tags result decl.body.items).run.run
        { scopes := [[]], breakLabels := breaks } : Except Unsupported Piece × Frame) =
      (.ok code, frame) := emitted
    refine ⟨resultTag, written, tags, params, listed, result, typed, ?_⟩
    rw [ran]
    exact bind_eq_ok.mpr ⟨code, rfl, ite_throw_eq_ok.mpr ⟨rfl, resolved⟩⟩

/-- A method whose `break` statements all have a loop or switch of their own. -/
def Env.method (env : Env) (decl : MethodDecl) : Except Unsupported Method :=
  Prod.fst <$> env.methodFrom [] decl

theorem Env.method_eq_ok {decl : MethodDecl} {method : Method} :
    env.method decl = .ok method ↔
      ∃ resultTag tags params result code frame, env.resultTag decl.result = .ok resultTag ∧
        env.params decl.params = .ok (tags, params) ∧ env.type resultTag = .ok result ∧
        (emitBody env tags result decl.body.items).Yields { scopes := [[]] } code frame ∧
        method = { name := decl.name.name, params, result, locals := frame.locals, code
                   labelCount := frame.labelCount } ∧
        method.isResolved = true := by
  have first : env.method decl = .ok method ↔ ∃ left, env.methodFrom [] decl = .ok (method, left) := by
    rw [Env.method]
    cases env.methodFrom [] decl <;> simp [Prod.ext_iff]
  simp only [first, Env.methodFrom_eq_ok, Prod.mk.injEq]
  constructor
  · rintro ⟨_, resultTag, tags, params, result, code, frame, written, listed, typed, emitted, ⟨made, _⟩,
      resolved⟩
    exact ⟨resultTag, tags, params, result, code, frame, written, listed, typed, emitted, made, resolved⟩
  · rintro ⟨resultTag, tags, params, result, code, frame, written, listed, typed, emitted, made, resolved⟩
    exact ⟨_, resultTag, tags, params, result, code, frame, written, listed, typed, emitted, ⟨made, rfl⟩,
      resolved⟩

def Env.methods (env : Env) : List Item → Except Unsupported (List Method)
  | [] => return []
  | .method decl :: rest => do
    let method ← env.method decl
    return method :: (← env.methods rest)
  | _ :: rest => env.methods rest

end StackCode
