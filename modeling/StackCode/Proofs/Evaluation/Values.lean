import StackCode.Proofs.Evaluation.Pieces
import StackCode.Proofs.Generation.Sees

namespace StackCode

open Code Emit Platform

def Node.isStraight : Node → Bool
  | .factor ⟨_, .newArray _ sizes, _⟩ => sizes.length ≤ 1
  | _ => true

def Node.Gives (env : Env) (built : Module) : Node → Prop
  | .factor ⟨_, .call callee args, _⟩ =>
    ∀ target, env.target callee.base.name args.length = .ok target → target.Gives built
  | _ => True

def Simple (env : Env) (built : Module) (nodes : List Node) : Prop :=
  ∀ node ∈ nodes, node.isStraight = true ∧ node.Gives env built

def Env.homes (env : Env) (frame : Frame) (name : String) : Option Home :=
  (env.home frame name).toOption

variable {P : Platform} {built : Module} {env : Env} {before mid after : Frame} {code : Piece}

theorem simple_cons {node : Node} {nodes : List Node} : Simple env built (node :: nodes) ↔
    (node.isStraight = true ∧ node.Gives env built) ∧ Simple env built nodes :=
  List.forall_mem_cons

theorem simple_append {xs ys : List Node} :
    Simple env built (xs ++ ys) ↔ Simple env built xs ∧ Simple env built ys :=
  List.forall_mem_append

theorem Frame.Emits.homes {slots : Nat} {told : Telling} {home : String → Option Home}
    (emits : Frame.Emits [] [] before code after slots false told) (located : env.homes before = home) :
    env.homes after = home := by
  rw [← located]
  funext name
  exact congrArg Except.toOption (Env.home_congr (by rw [emits.scopes]))

theorem evalExprs_length {home : String → Option Home} {exprs : List Expr}
    {state state' : P.State} {values : List (Value P.Data)}
    (evaluated : evalExprs P env home exprs state = some (values, state')) :
    values.length = exprs.length := by
  induction exprs generalizing state values state' with
  | nil =>
    cases evaluated
    rfl
  | cons e rest ih =>
    rw [evalExprs] at evaluated
    obtain ⟨⟨value, mid⟩, _, evaluated⟩ := Option.bind_eq_some_iff.mp evaluated
    obtain ⟨⟨others, last⟩, found, evaluated⟩ := Option.bind_eq_some_iff.mp evaluated
    cases evaluated
    exact congrArg Nat.succ (ih found)

theorem Env.target_cases {name : String} {argc : Nat} {target : Target}
    (found : env.target name argc = .ok target) :
    (∃ op, Intrinsic.ofName? name = some op ∧ argc = op.arity ∧ target = .intrinsic op) ∨
      Intrinsic.ofName? name = none ∧ ∃ result, target = .method name result := by
  unfold Env.target at found
  cases known : Intrinsic.ofName? name with
  | some op =>
    rw [known] at found
    dsimp only at found
    split at found
    · cases found
      exact .inl ⟨op, rfl, ‹_›, rfl⟩
    · cases found
  | none =>
    rw [known] at found
    dsimp only at found
    split at found
    · split at found
      · cases found
        exact .inr ⟨rfl, _, rfl⟩
      · cases found
    · cases found

theorem Target.emit_gives {callee : Designator} {args : List Expr} {target : Target}
    {home : String → Option Home} {values : Piece} (id : NodeId)
    (found : env.target callee.base.name args.length = .ok target) (gives : target.Gives built)
    (runs : P.Runs built values [] (evalExprs P env home args) List.reverse)
    (emitted : (target.emit env args).Yields before code after) :
    P.Gives built (values ++ code) (FactorKind.eval P env home id (.call callee args)) := by
  rw [FactorKind.eval]
  rcases Env.target_cases found with ⟨op, known, count, rfl⟩ | ⟨other, result, rfl⟩
  · simp only [known]
    refine runs.seq_of fun found _ _ evaluated => ?_
    exact Intrinsic.emit_runs (Target.emit_yields.mp emitted) gives
      ((evalExprs_length evaluated).trans count)
  · simp only [other]
    obtain ⟨rfl, _⟩ := Target.emit_yields.mp emitted
    refine runs.seq_of fun found _ _ evaluated => ?_
    refine runs_value ?_ ?_
    · rw [List.length_reverse]
      exact (evalExprs_length evaluated).symm
    · rw [act, List.reverse_reverse, show built.gives callee.base.name = true from gives]
      rfl

mutual

theorem Expr.emit_gives : ∀ (e : Expr) {before after : Frame} {code : Piece}
    {home : String → Option Home}, env.homes before = home → (e.emit env).Yields before code after →
    Simple env built e.nodes → P.Gives built code (e.eval P env home)
  | ⟨_, neg, cast, head, tail, _⟩, before, after, code, home, located, emitted, simple => by
    obtain ⟨_, simple⟩ := simple_cons.mp simple
    obtain ⟨inHead, inTail⟩ := simple_append.mp simple
    rw [Expr.eval]
    obtain ⟨type, noted, ⟨least, _, sum, rfl⟩ |
      ⟨other, first, mid, _, _, _, headed, casts, sum, rfl⟩⟩ := Expr.emit_yields.mp emitted
    · obtain rfl := (eq_of_isLeastInt least).1
      have loads : P.Gives built [.ldcI4 Int32.minValue] (pure (.word Int32.minValue)) :=
        runs_value rfl rfl
      rw [Action.known (Env.nodeType_eq_ok.mp noted), if_pos least]
      exact loads.seq fun value => emitSum_runs tail located sum inTail value
    · obtain ⟨rfl, converts⟩ := Env.castCode_eq_ok casts
      have behind := (Term.emit_emits head headed).homes located
      rw [Action.known (Env.nodeType_eq_ok.mp noted), other, if_neg Bool.false_ne_true]
      simp only [List.append_assoc]
      exact (Term.emit_gives head located headed inHead).seq fun value =>
        (conversion_runs converts value).seq fun value => (sign_runs neg value).seq fun value =>
          emitSum_runs tail behind sum inTail value

theorem emitSum_runs : ∀ (tail : List (AddOp × Term)) {type : Tag} {before after : Frame}
    {code : Piece} {home : String → Option Home}, env.homes before = home →
    (emitSum env type tail).Yields before code after → Simple env built (sumNodes tail) →
    ∀ value : Value P.Data, P.Runs built code [value] (evalSum P env home type value tail) ([·])
  | [], type, before, after, code, home, located, emitted, simple, value => by
    obtain ⟨rfl, rfl⟩ := emitSum_nil_yields.mp emitted
    rw [evalSum]
    exact runs_nil rfl
  | (op, term) :: rest, type, before, after, code, home, located, emitted, simple, value => by
    obtain ⟨inTerm, inRest⟩ := simple_append.mp simple
    obtain ⟨right, common, l, r, operand, mid, others, noted, joins, added, sum, rfl⟩ :=
      emitSum_cons_yields.mp emitted
    have behind := (Term.emit_emits term added).homes located
    rw [evalSum]
    exact joins.chained noted (Term.emit_gives term located added inTerm) op.instr_runs
      (fun value => emitSum_runs rest behind sum inRest value) value

theorem Term.emit_gives : ∀ (term : Term) {before after : Frame} {code : Piece}
    {home : String → Option Home}, env.homes before = home →
    (term.emit env).Yields before code after → Simple env built term.nodes →
    P.Gives built code (term.eval P env home)
  | ⟨_, head, tail, _⟩, before, after, code, home, located, emitted, simple => by
    obtain ⟨_, simple⟩ := simple_cons.mp simple
    obtain ⟨inHead, inTail⟩ := simple_append.mp simple
    obtain ⟨_, mid, type, _, headed, noted, product, rfl⟩ := Term.emit_yields.mp emitted
    have behind := (Factor.emit_emits head headed).homes located
    rw [Term.eval]
    simp only [Action.known (Env.nodeType_eq_ok.mp noted)]
    exact (Factor.emit_gives head located headed inHead).seq fun value =>
      emitProduct_runs tail behind product inTail value

theorem emitProduct_runs : ∀ (tail : List (MulOp × Factor)) {type : Tag} {before after : Frame}
    {code : Piece} {home : String → Option Home}, env.homes before = home →
    (emitProduct env type tail).Yields before code after → Simple env built (productNodes tail) →
    ∀ value : Value P.Data, P.Runs built code [value] (evalProduct P env home type value tail) ([·])
  | [], type, before, after, code, home, located, emitted, simple, value => by
    obtain ⟨rfl, rfl⟩ := emitProduct_nil_yields.mp emitted
    rw [evalProduct]
    exact runs_nil rfl
  | (op, factor) :: rest, type, before, after, code, home, located, emitted, simple, value => by
    obtain ⟨inFactor, inRest⟩ := simple_append.mp simple
    obtain ⟨right, common, l, r, operand, mid, others, noted, joins, multiplied, product, rfl⟩ :=
      emitProduct_cons_yields.mp emitted
    have behind := (Factor.emit_emits factor multiplied).homes located
    rw [evalProduct]
    exact joins.chained noted (Factor.emit_gives factor located multiplied inFactor) op.instr_runs
      (fun value => emitProduct_runs rest behind product inRest value) value

theorem Factor.emit_gives : ∀ (factor : Factor) {before after : Frame} {code : Piece}
    {home : String → Option Home}, env.homes before = home →
    (factor.emit env).Yields before code after → Simple env built factor.nodes →
    P.Gives built code (factor.eval P env home)
  | ⟨_, kind, _⟩, _, _, _, _, located, emitted, simple => by
    obtain ⟨⟨straight, gives⟩, simple⟩ := simple_cons.mp simple
    rw [Factor.eval]
    exact FactorKind.emit_gives kind located emitted straight gives simple

theorem FactorKind.emit_gives : ∀ (kind : FactorKind) {id : NodeId} {span : Span}
    {before after : Frame} {code : Piece} {home : String → Option Home}, env.homes before = home →
    (kind.emit env id).Yields before code after →
    (Node.factor ⟨id, kind, span⟩).isStraight = true → (Node.factor ⟨id, kind, span⟩).Gives env built →
    Simple env built kind.nodes → P.Gives built code (kind.eval P env home id)
  | .literal value, _, _, _, _, _, _, _, emitted, _, _, _ => by
    obtain ⟨_, loaded, rfl, _⟩ := FactorKind.emit_literal_yields.mp emitted
    rw [FactorKind.eval]
    exact literalInstr_gives loaded
  | .designator target, _, _, _, _, _, _, located, emitted, _, _, simple => by
    rw [FactorKind.eval]
    exact Designator.emitLoad_gives target located (FactorKind.emit_designator_yields.mp emitted)
      simple
  | .call callee args, id, _, _, _, _, _, located, emitted, _, gives, simple => by
    obtain ⟨target, _, _, _, found, given, called, rfl⟩ := FactorKind.emit_call_yields.mp emitted
    exact Target.emit_gives id found (gives target found)
      (emitExprs_runs args located given (simple_append.mp simple).2) called
  | .newObject className, _, _, _, _, _, _, _, emitted, _, _, _ => by
    obtain ⟨rfl, _⟩ := FactorKind.emit_newObject_yields.mp emitted
    rw [FactorKind.eval]
    exact runs_value rfl rfl
  | .newArray _ [], _, _, _, _, _, _, _, emitted, _, _, _ => by
    obtain ⟨_, _, _, _, _, _, sized, filled, _⟩ :=
      (FactorKind.emit_newArray_yields (by simp)).mp emitted
    obtain ⟨_, rfl, _⟩ := emitSizes_nil_yields.mp sized
    exact absurd filled not_yields_throw
  | .newArray elem [size], _, _, _, _, _, _, located, emitted, _, _, simple => by
    obtain ⟨base, _, type, written, sized, typed, rfl⟩ :=
      FactorKind.emit_newArray_one_yields.mp emitted
    obtain rfl := Env.typeOf_of_written written
    rw [FactorKind.eval]
    simp only [Action.known (congrArg Except.toOption typed)]
    exact (Expr.emit_gives size located sized (simple_append.mp simple).1).seq fun count =>
      runs_value rfl rfl
  | .newArray _ (_ :: _ :: _), _, _, _, _, _, _, _, _, straight, _, _ => by
    simp [Node.isStraight] at straight
  | .paren inner, _, _, _, _, _, _, located, emitted, _, _, simple => by
    rw [FactorKind.eval]
    exact Expr.emit_gives inner located (FactorKind.emit_paren_yields.mp emitted) simple
  | .list elems, _, _, _, _, _, _, located, emitted, _, _, simple => by
    obtain ⟨tag, elem, _, noted, typed, filled, rfl⟩ := FactorKind.emit_list_yields.mp emitted
    have creates : P.Gives built [.newlist elem false] (P.serving (.newList elem false) []) :=
      runs_value rfl rfl
    rw [FactorKind.eval, Action.known (Env.nodeType_eq_ok.mp noted),
      Action.known (congrArg Except.toOption typed)]
    exact creates.seq fun list => Runs.map (f := fun _ => list)
      (emitElems_runs elems located filled simple list)

theorem emitExprs_runs : ∀ (exprs : List Expr) {before after : Frame} {code : Piece}
    {home : String → Option Home}, env.homes before = home →
    (emitExprs env exprs).Yields before code after → Simple env built (exprsNodes exprs) →
    P.Runs built code [] (evalExprs P env home exprs) List.reverse
  | [], _, _, _, _, _, emitted, _ => by
    obtain ⟨rfl, _⟩ := emitExprs_nil_yields.mp emitted
    rw [evalExprs]
    exact runs_nil rfl
  | e :: rest, _, _, _, _, located, emitted, simple => by
    obtain ⟨inFirst, inRest⟩ := simple_append.mp simple
    obtain ⟨_, _, _, first, others, rfl⟩ := emitExprs_cons_yields.mp emitted
    have behind := (Expr.emit_emits e first).homes located
    rw [evalExprs]
    refine (Expr.emit_gives e located first inFirst).seq fun value => Runs.map ?_
    simp only [List.reverse_cons]
    exact (emitExprs_runs rest behind others inRest).above [value]

theorem emitElems_runs : ∀ (elems : List Expr) {elem : Ty} {before after : Frame} {code : Piece}
    {home : String → Option Home}, env.homes before = home →
    (emitElems env elem elems).Yields before code after → Simple env built (exprsNodes elems) →
    ∀ list : Value P.Data,
      P.Runs built code [list] (evalElems P env home elem list elems) fun _ => [list]
  | [], _, _, _, _, _, _, emitted, _, list => by
    obtain ⟨rfl, _⟩ := emitElems_nil_yields.mp emitted
    rw [evalElems]
    exact runs_nil rfl
  | e :: rest, elem, _, _, _, _, located, emitted, simple, list => by
    obtain ⟨inFirst, inRest⟩ := simple_append.mp simple
    obtain ⟨_, _, _, first, others, rfl⟩ := emitElems_cons_yields.mp emitted
    have behind := (Expr.emit_emits e first).homes located
    have doubles : P.Runs built [.dup] [list] (pure ()) fun _ => [list, list] :=
      runs_value rfl rfl
    have adds (value : Value P.Data) : P.Runs built [.callvirt .add elem] [value, list]
        (P.serving (.member .add elem) [list, value]) fun _ => [] := runs_value rfl rfl
    rw [evalElems]
    simp only [List.append_assoc]
    exact doubles.seq fun _ => ((Expr.emit_gives e located first inFirst).above [list, list]).seq
      fun value => ((adds value).above [list]).seq fun _ =>
        emitElems_runs rest behind others inRest list

theorem Designator.emitLoad_gives : ∀ (target : Designator) {before after : Frame} {code : Piece}
    {home : String → Option Home}, env.homes before = home →
    (target.emitLoad env).Yields before code after → Simple env built target.nodes →
    P.Gives built code (target.eval P env home)
  | ⟨_, base, selectors, _⟩, _, _, _, _, located, emitted, simple => by
    obtain ⟨_, simple⟩ := simple_cons.mp simple
    obtain ⟨_, tag, _, _, loaded, selected, rfl⟩ := Designator.emitLoad_yields.mp emitted
    obtain ⟨place, found, loaded, _⟩ := emitBase_yields.mp loaded
    obtain ⟨rfl, gives⟩ := Home.load_eq_ok loaded
    rw [Designator.eval, Action.known (show _ = some place by
      rw [← located]; exact congrArg Except.toOption found)]
    exact gives.seq fun value => emitSelectors_runs selectors located selected simple value

theorem emitSelectors_runs : ∀ (selectors : List Selector) {tag last : Tag}
    {before after : Frame} {code : Piece} {home : String → Option Home}, env.homes before = home →
    (emitSelectors env tag selectors).Yields before (code, last) after →
    Simple env built (selectorsNodes selectors) → ∀ value : Value P.Data,
      P.Runs built code [value] (evalSelectors P env home tag value selectors) ([·])
  | [], _, _, _, _, _, _, _, emitted, _, value => by
    obtain ⟨rfl, _, _⟩ := emitSelectors_nil_yields.mp emitted
    rw [evalSelectors]
    exact runs_nil rfl
  | .field name :: rest, _, _, _, _, _, _, located, emitted, simple, value => by
    obtain ⟨className, member, _, named, typed, selected, rfl⟩ :=
      emitSelectors_field_yields.mp emitted
    obtain ⟨symbol, found, rfl⟩ := Env.memberType_eq_ok.mp typed
    rw [evalSelectors, Action.known (Env.classNamed_eq_ok.mp named), Action.known found]
    exact Runs.seq (runs_value rfl rfl) fun value =>
      emitSelectors_runs rest located selected simple value
  | .index e :: rest, tag, _, _, _, _, _, located, emitted, simple, value => by
    obtain ⟨inIndex, inRest⟩ := simple_append.mp simple
    obtain ⟨_, _, elem, _, indexed, typed, selected, rfl⟩ :=
      emitSelectors_index_yields.mp emitted
    have behind := (Expr.emit_emits e indexed).homes located
    rw [evalSelectors]
    simp only [Action.known (congrArg Except.toOption typed), List.append_assoc]
    exact ((Expr.emit_gives e located indexed inIndex).above [value]).seq fun index =>
      Runs.seq (runs_value rfl rfl) fun value =>
        emitSelectors_runs rest behind selected inRest value

end

variable {home : String → Option Home}

theorem CondFact.emit_gives {fact : CondFact} (located : env.homes before = home)
    (emitted : (fact.emit env).Yields before code after) (simple : Simple env built fact.nodes) :
    P.Gives built code (fact.eval P env home) := by
  obtain ⟨_, simple⟩ := simple_cons.mp simple
  replace emitted := CondFact.emit_yields.mp emitted
  unfold CondFact.eval
  cases kind : fact.kind with
  | expr value =>
    rw [kind] at emitted simple
    exact Expr.emit_gives value located emitted simple
  | relation left op right =>
    rw [kind] at emitted simple
    obtain ⟨inLeft, inRight⟩ := simple_append.mp simple
    obtain ⟨strings, l, mid, r, asked, first, second, rfl⟩ := emitted
    obtain rfl := Env.areStrings_eq_ok asked
    have behind := (Expr.emit_emits left first).homes located
    rw [List.append_assoc]
    exact (Expr.emit_gives left located first inLeft).seq fun a =>
      ((Expr.emit_gives right behind second inRight).above [a]).seq fun b =>
        (compareCode_runs _ op a b).map

theorem emitFacts_runs {facts : List CondFact} (located : env.homes before = home)
    (emitted : (emitFacts env [.and] facts).Yields before code after)
    (simple : Simple env built (facts.flatMap CondFact.nodes)) (value : Value P.Data) :
    P.Runs built code [value] (evalFacts P env home value facts) ([·]) := by
  induction facts generalizing before code value with
  | nil =>
    obtain ⟨rfl, _⟩ := emitFacts_nil_yields.mp emitted
    exact runs_nil rfl
  | cons fact rest ih =>
    obtain ⟨inFirst, inRest⟩ := simple_append.mp simple
    obtain ⟨_, mid, _, first, others, rfl⟩ := emitFacts_cons_yields.mp emitted
    have behind := (CondFact.emit_emits first).homes located
    have joins (a b : Value P.Data) :
        P.Runs built [.and] [b, a] (P.joined (· &&& ·) a b) ([·]) := runs_value rfl rfl
    rw [evalFacts, List.append_assoc]
    exact ((CondFact.emit_gives located first inFirst).above [value]).seq fun other =>
      (joins value other).seq fun value => ih behind others inRest value

theorem CondTerm.emit_gives {term : CondTerm} (located : env.homes before = home)
    (nonempty : term.facts ≠ []) (emitted : (emitFacts env [] term.facts).Yields before code after)
    (simple : Simple env built term.nodes) : P.Gives built code (term.eval P env home) := by
  obtain ⟨_, simple⟩ := simple_cons.mp simple
  unfold CondTerm.eval
  cases listed : term.facts with
  | nil => exact absurd listed nonempty
  | cons fact rest =>
    rw [listed] at emitted simple
    obtain ⟨inFirst, inRest⟩ := simple_append.mp simple
    obtain ⟨_, mid, _, first, others, rfl⟩ := emitFacts_cons_yields.mp emitted
    have behind := (CondFact.emit_emits first).homes located
    rw [List.append_nil]
    exact (CondFact.emit_gives located first inFirst).seq fun value =>
      emitFacts_runs behind others inRest value

theorem emitCondTerms_runs {terms : List CondTerm} (located : env.homes before = home)
    (nonempty : ∀ term ∈ terms, term.facts ≠ [])
    (emitted : (emitCondTerms env [.or] terms).Yields before code after)
    (simple : Simple env built (terms.flatMap CondTerm.nodes)) (value : Value P.Data) :
    P.Runs built code [value] (evalTerms P env home value terms) ([·]) := by
  induction terms generalizing before code value with
  | nil =>
    obtain ⟨rfl, _⟩ := emitCondTerms_nil_yields.mp emitted
    exact runs_nil rfl
  | cons term rest ih =>
    obtain ⟨some, nonempty⟩ := List.forall_mem_cons.mp nonempty
    obtain ⟨inFirst, inRest⟩ := simple_append.mp simple
    obtain ⟨_, mid, _, first, others, rfl⟩ := emitCondTerms_cons_yields.mp emitted
    have behind := (emitFacts_emits bare_nil first).homes located
    have joins (a b : Value P.Data) :
        P.Runs built [.or] [b, a] (P.joined (· ||| ·) a b) ([·]) := runs_value rfl rfl
    rw [evalTerms, List.append_assoc]
    exact ((CondTerm.emit_gives located some first inFirst).above [value]).seq fun other =>
      (joins value other).seq fun value => ih behind nonempty others inRest value

theorem Condition.emit_gives {cond : Condition} (located : env.homes before = home)
    (nonempty : cond.terms ≠ []) (formed : ∀ term ∈ cond.terms, term.facts ≠ [])
    (emitted : (cond.emit env).Yields before code after) (simple : Simple env built cond.nodes) :
    P.Gives built code (cond.eval P env home) := by
  obtain ⟨_, simple⟩ := simple_cons.mp simple
  unfold Condition.emit at emitted
  unfold Condition.eval
  cases listed : cond.terms with
  | nil => exact absurd listed nonempty
  | cons term rest =>
    rw [listed] at emitted simple formed
    obtain ⟨some, formed⟩ := List.forall_mem_cons.mp formed
    obtain ⟨inFirst, inRest⟩ := simple_append.mp simple
    obtain ⟨_, mid, _, first, others, rfl⟩ := emitCondTerms_cons_yields.mp emitted
    have behind := (emitFacts_emits bare_nil first).homes located
    rw [List.append_nil]
    exact (CondTerm.emit_gives located some first inFirst).seq fun value =>
      emitCondTerms_runs behind formed others inRest value

end StackCode
