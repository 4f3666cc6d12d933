import StackCode.Proofs.Emission.Frames
import StackCode.Proofs.Evaluation.Source
import StackCode.Proofs.Machine.Flat

namespace StackCode

open Code Emit Platform

variable {P : Platform} {built : Module} {env : Env}

theorem Platform.Action.known {α β : Type} {o : Option α} {a : α} (found : o = some a)
    (f : α → P.Action β) : (do f (← o) : P.Action β) = f a := by
  rw [found]
  rfl

theorem literalInstr_gives {literal : Literal} {instr : Instr}
    (loaded : literalInstr literal = .ok instr) :
    P.Gives built [instr] (pure (P.literal literal)) := by
  cases literal with
  | int n =>
    rw [literalInstr] at loaded
    split at loaded
    · cases loaded
      exact runs_value rfl rfl
    · cases loaded
  | _ =>
    cases loaded
    exact runs_value rfl rfl

theorem Platform.reaches_literal {literal : Literal} {instr : Instr} {whole rest : Piece}
    {stack : List (Value P.Data)} {s : P.State} (loaded : literalInstr literal = .ok instr) :
    P.Reaches built whole ⟨instr :: rest, stack, s⟩ ⟨rest, P.literal literal :: stack, s⟩ := by
  have given : P.exec built [instr] (stack, s) = some (P.literal literal :: stack, s) :=
    literalInstr_gives loaded stack s
  rw [exec] at given
  obtain ⟨config, steps, ended⟩ := Option.bind_eq_some_iff.mp given
  cases ended
  exact reaches_step (literalInstr_plain loaded) steps

theorem conversion_runs {source target : Tag} {code : Piece}
    (converts : conversion source target = .ok code) (value : Value P.Data) :
    P.Runs built code [value] (P.convert source target value) ([·]) := by
  unfold conversion at converts
  unfold convert
  split_ifs at converts ⊢ with same
  · cases converts
    exact runs_nil rfl
  all_goals
    cases converts
    exact runs_value rfl rfl

theorem Env.castCode_eq_ok {type target : Tag} {cast : Option TypeName} {code : Piece}
    (casts : env.castCode type cast = .ok (code, target)) :
    target = env.castType type cast ∧ conversion type (env.castType type cast) = .ok code := by
  cases cast with
  | none =>
    cases casts
    exact ⟨rfl, if_pos rfl⟩
  | some name =>
    simp only [Env.castCode, bind_eq_ok, pure_eq_ok, Prod.mk.injEq] at casts
    obtain ⟨found, written, _, converts, rfl, rfl⟩ := casts
    obtain rfl := Env.typeOf_of_written written
    exact ⟨rfl, converts⟩

theorem AddOp.instr_runs (op : AddOp) (a b : Value P.Data) :
    P.Runs built [op.instr] [b, a] (P.compute op.arith a b) ([·]) := by
  cases op <;> exact runs_value rfl rfl

theorem MulOp.instr_runs (op : MulOp) (a b : Value P.Data) :
    P.Runs built [op.instr] [b, a] (P.compute op.arith a b) ([·]) := by
  cases op <;> exact runs_value rfl rfl

theorem Platform.combine_eq (op : Arith) (left right common : Tag) (a b : Value P.Data) :
    (P.combine op left right common a b : P.Action (Value P.Data)) = (do
      let a ← P.convert left common a
      let b ← P.convert right common b
      P.compute op a b) := by
  unfold combine
  cases P.convert left common a with
  | none => rfl
  | some a =>
    cases P.convert right common b with
    | none => rfl
    | some b => rfl

/-- An operand that is combined with the value on the stack. The machine converts that value before
it comes to the operand. -/
theorem Joins.runs {left right common : Tag} {l r code : Piece} {instr : Instr} {op : Arith}
    (joins : Joins left right common l r) {operand : P.Action (Value P.Data)}
    (given : P.Gives built code operand)
    (computes : ∀ a b, P.Runs built [instr] [b, a] (P.compute op a b) ([·]))
    (value : Value P.Data) :
    P.Runs built (l ++ code ++ r ++ [instr]) [value]
      (do P.combine op left right common value (← operand)) ([·]) := by
  have steps := (conversion_runs joins.left value).seq fun a =>
    (given.above [a]).seq fun b =>
      ((conversion_runs joins.right b).above [a]).seq fun b => computes a b
  rw [Action.lift_comm] at steps
  simp only [Platform.combine_eq, List.append_assoc]
  exact steps

theorem Joins.chained {left right common : Tag} {l r code others : Piece} {instr : Instr} {op : Arith}
    {id : NodeId} (joins : Joins left right common l r) (noted : env.nodeType id = .ok right)
    {operand : P.Action (Value P.Data)} (given : P.Gives built code operand)
    (computes : ∀ a b, P.Runs built [instr] [b, a] (P.compute op a b) ([·]))
    {chain : Tag → Value P.Data → P.Action (Value P.Data)}
    (goesOn : ∀ value, P.Runs built others [value] (chain common value) ([·]))
    (value : Value P.Data) :
    P.Runs built (l ++ code ++ r ++ [instr] ++ others) [value] (do
      let other ← operand
      let right ← env.annotations.type? id
      let common ← Tag.promote left right
      chain common (← P.combine op left right common value other)) ([·]) := by
  simp only [Action.known (Env.nodeType_eq_ok.mp noted),
    Action.known (commonType_eq_ok.mp joins.common)]
  have steps := (joins.runs given computes value).seq goesOn
  rw [bind_assoc] at steps
  exact steps

theorem sign_runs (neg : Bool) (value : Value P.Data) :
    P.Runs built (if neg then [.neg] else []) [value] (P.signed neg value) ([·]) := by
  cases neg with
  | true => exact runs_value rfl rfl
  | false => exact runs_nil rfl

theorem Home.load_eq_ok {home : Home} {code : Piece} {tag : Tag}
    (loaded : home.load = .ok (code, tag)) :
    tag = home.tag ∧ P.Gives built code (home.value P) := by
  cases home with
  | constant value =>
    simp only [Home.load, bind_eq_ok, pure_eq_ok, Prod.mk.injEq] at loaded
    obtain ⟨instr, loaded, rfl, rfl⟩ := loaded
    exact ⟨rfl, literalInstr_gives loaded⟩
  | _ =>
    cases loaded
    exact ⟨rfl, runs_value rfl rfl⟩

def Target.Gives (built : Module) : Target → Prop
  | .intrinsic op => op.result ≠ .void
  | .method name _ => built.gives name = true

theorem Intrinsic.emit_runs {op : Intrinsic} {args : List Expr} {before after : Frame} {code : Piece}
    (emitted : (op.emit env (args.head?.map (·.id))).Yields before code after)
    (valued : op.result ≠ .void) {values : List (Value P.Data)} (full : values.length = op.arity) :
    P.Runs built code values.reverse (op.eval P env
      ((args.head?.bind fun arg => env.annotations.type? arg.id).getD .unknown) values) ([·]) := by
  obtain ⟨_, listed | ⟨instr, converts, rfl⟩⟩ := Intrinsic.emit_yields.mp emitted
  · obtain ⟨method, id, tag, elem, member, first, noted, typed, rfl⟩ := listed
    obtain ⟨arg, head, rfl⟩ := Option.map_eq_some_iff.mp first
    cases op with
    | len =>
      obtain ⟨list, rfl⟩ := List.length_eq_one_iff.mp full
      cases member
      rw [head, Option.bind_some, Env.nodeType_eq_ok.mp noted, Option.getD_some, Intrinsic.eval]
      rw [Action.known (congrArg Except.toOption typed)]
      exact runs_value rfl rfl
    | add => exact absurd rfl valued
    | del => exact absurd rfl valued
    | ord => cases member
    | chr => cases member
  · cases op with
    | ord | chr =>
      obtain ⟨value, rfl⟩ := List.length_eq_one_iff.mp full
      cases converts
      exact runs_value rfl rfl
    | _ => cases converts

section Comparisons

/-- A comparison of the machine is the relation that it has for words and for other values. -/
theorem Platform.comparing_eq (words : Int32 → Int32 → Bool)
    (others : P.Data → P.Data → Option Bool) (op : RelOp)
    (ordered : ∀ a b, words a b = op.holds a.toInt b.toInt)
    (related : ∀ a b, others a b = P.relateData a b op) (a b : Value P.Data) :
    (do return [← P.comparing words others a b] : P.Action (List (Value P.Data))) =
      (do return [.truth (← P.relate op a b)]) := by
  cases a with
  | word a =>
    cases b with
    | word b =>
      rw [comparing, relate, ordered]
      rfl
    | data b => rfl
  | data a =>
    cases b with
    | word b => rfl
    | data b =>
      rw [comparing, relate, related]
      cases P.relateData a b op with
      | none => rfl
      | some holds => rfl

theorem ceq_runs (a b : Value P.Data) :
    P.Runs built [.ceq] [b, a] (P.relate .eq a b) fun holds => [.truth holds] :=
  runs_value rfl (Platform.comparing_eq _ _ .eq (fun a b => by
    rw [RelOp.holds, Bool.eq_iff_iff, beq_iff_eq, decide_eq_true_iff, Int32.toInt_inj])
    (fun _ _ => rfl) a b)

theorem clt_runs (a b : Value P.Data) :
    P.Runs built [.clt] [b, a] (P.relate .lt a b) fun holds => [.truth holds] :=
  runs_value rfl (Platform.comparing_eq _ _ .lt (fun a b => by
    rw [RelOp.holds, decide_eq_decide, Int32.lt_iff_toInt_lt]) (fun _ _ => rfl) a b)

theorem cgt_runs (a b : Value P.Data) :
    P.Runs built [.cgt] [b, a] (P.relate .gt a b) fun holds => [.truth holds] :=
  runs_value rfl (Platform.comparing_eq _ _ .gt (fun a b => by
    rw [RelOp.holds, decide_eq_decide, Int32.lt_iff_toInt_lt]) (fun _ _ => rfl) a b)

theorem stringEquals_runs (a b : Value P.Data) :
    P.Runs built [.callHost .stringEquals] [b, a] (P.sameTexts a b) fun holds => [.truth holds] :=
  runs_value rfl rfl

theorem negation_runs (holds : Bool) :
    P.Runs built [.ldcI4 0, .ceq] [.truth holds] (pure !holds) fun holds => [.truth holds] := by
  intro stack state
  cases holds <;> rfl

theorem Platform.relate_not (op other : RelOp) (opposite : ∀ a b, other.holds a b = !op.holds a b)
    (negated : ∀ a b, P.relateData a b other = (P.relateData a b op).map (!·))
    (a b : Value P.Data) :
    (P.relate other a b : P.Action Bool) = (do return !(← P.relate op a b)) := by
  cases a with
  | word a =>
    cases b with
    | word b =>
      rw [relate, relate, opposite]
      rfl
    | data b => rfl
  | data a =>
    cases b with
    | word b => rfl
    | data b =>
      rw [relate, relate, negated]
      cases P.relateData a b op with
      | none => rfl
      | some holds => rfl

theorem compareCode_runs (strings : Bool) (op : RelOp) (a b : Value P.Data) :
    P.Runs built (compareCode strings op) [b, a] (P.related strings op a b)
      fun holds => [.truth holds] := by
  have less : P.Runs built [.clt, .ldcI4 0, .ceq] [b, a] (P.relate .ge a b)
      fun holds => [.truth holds] := by
    rw [Platform.relate_not .lt .ge (fun a b => by simp [RelOp.holds, ← decide_not])
      (fun _ _ => rfl)]
    exact (clt_runs a b).seq negation_runs
  have greater : P.Runs built [.cgt, .ldcI4 0, .ceq] [b, a] (P.relate .le a b)
      fun holds => [.truth holds] := by
    rw [Platform.relate_not .gt .le (fun a b => by simp [RelOp.holds, ← decide_not])
      (fun _ _ => rfl)]
    exact (cgt_runs a b).seq negation_runs
  have equal : P.Runs built [.ceq, .ldcI4 0, .ceq] [b, a] (P.relate .ne a b)
      fun holds => [.truth holds] := by
    rw [Platform.relate_not .eq .ne (fun a b => by simp [RelOp.holds]) (fun _ _ => rfl)]
    exact (ceq_runs a b).seq negation_runs
  cases strings with
  | false =>
    cases op with
    | eq => exact ceq_runs a b
    | ne => exact equal
    | lt => exact clt_runs a b
    | ge => exact less
    | gt => exact cgt_runs a b
    | le => exact greater
  | true =>
    cases op with
    | eq => exact stringEquals_runs a b
    | ne => exact (stringEquals_runs a b).seq negation_runs
    | lt => exact clt_runs a b
    | ge => exact less
    | gt => exact cgt_runs a b
    | le => exact greater

theorem Env.areStrings_eq_ok {left right : Expr} {strings : Bool}
    (asked : env.areStrings left right = .ok strings) : strings = env.bothTexts left right := by
  simp only [Env.areStrings, bind_eq_ok] at asked
  obtain ⟨type, noted, asked⟩ := asked
  rw [Env.bothTexts, Env.nodeType_eq_ok.mp noted]
  split at asked
  · obtain ⟨other, found, asked⟩ := bind_eq_ok.mp asked
    rw [pure_eq_ok.mp asked, Env.nodeType_eq_ok.mp found, ‹type = _›]
    simp
  · rw [pure_eq_ok.mp asked]
    simp [‹type ≠ _›]

end Comparisons

end StackCode
