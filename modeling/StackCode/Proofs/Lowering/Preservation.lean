import StackCode.Proofs.Generation.Linked
import StackCode.Proofs.Lowering.Simulation

namespace StackCode

open Code Emit

def Frame.entering (frame : Frame) : List (String × Tag) → List Slot → Frame
  | (name, tag) :: tags, slot :: slots => (frame.withLocal name slot.type tag).entering tags slots
  | _, _ => frame

namespace Platform

variable (P : Platform)

def blank (result : Ty) : List (Value P.Data) := if result = .void then [] else [P.zero result]

def given (result : Ty) : Ending P.Data → List (Value P.Data)
  | .returned value => value.toList
  | .normal | .broken => P.blank result

variable {P}

def State.entered (state : P.State) : P.State :=
  { state with locals := fun slot => state.args[slot]?.getD (state.locals slot) }

theorem State.entered_keep {state : P.State} {i : Nat} {value : Value P.Data}
    (there : state.args[i]? = some value) : (state.keep i value).entered = state.entered := by
  have locals : (state.keep i value).entered.locals = state.entered.locals := by
    funext slot
    by_cases same : slot = i
    · subst same
      simp [State.entered, State.keep, there]
    · simp [State.entered, State.keep, same]
  exact congrArg (fun locals => { state with locals }) locals

theorem State.entered_eq_self {state : P.State}
    (held : ∀ (slot : Nat) value, state.args[slot]? = some value → state.locals slot = value) :
    state.entered = state := by
  have locals : state.entered.locals = state.locals := by
    funext slot
    cases there : state.args[slot]? with
    | none => simp [State.entered, there]
    | some value => simp [State.entered, there, held slot value there]
  exact congrArg (fun locals => { state with locals }) locals

variable {built : Module} {env : Env} {whole : Piece}

theorem step_ldarg {s : P.State} {i : Nat} {value : Value P.Data} {stack : List (Value P.Data)}
    (there : s.args[i]? = some value) :
    P.step built (.ldarg i) (stack, s) = some (value :: stack, s) := by
  have acts : P.act built (.ldarg i) [] s = s.args[i]?.bind fun value => some ([value], s) := by
    change (Option.bind (StateT.lift s.args[i]? s) fun found => some ([found.1], found.2)) = _
    cases s.args[i]? <;> rfl
  rw [there] at acts
  exact congrArg (Option.map fun result => (result.1 ++ stack, result.2)) acts

theorem reaches_entry {params : List Param} {tags : List (String × Tag)} {slots : List Slot}
    {before frame : Frame} {i : Nat} {entry rest : Piece} {s : P.State}
    (taken : env.params params = .ok (tags, slots))
    (entered : (emitParams env i tags).Yields before entry frame) (first : before.locals.length = i)
    (enough : s.args.length = i + slots.length)
    (held : ∀ (slot : Nat) value, slot < i → s.args[slot]? = some value → s.locals slot = value) :
    frame = before.entering tags slots ∧
      P.Reaches built whole ⟨entry ++ rest, [], s⟩ ⟨rest, [], s.entered⟩ := by
  induction params generalizing tags slots before i entry s with
  | nil =>
    cases taken
    obtain ⟨rfl, rfl⟩ := emitParams_nil_yields.mp entered
    have done : s.entered = s := by
      refine State.entered_eq_self fun slot value there => held slot value ?_ there
      have bound := (List.getElem?_eq_some_iff.mp there).1
      simpa [enough] using bound
    rw [done]
    exact ⟨rfl, .refl⟩
  | cons param params ih =>
    rw [Env.params] at taken
    simp only [bind_eq_ok, pure_eq_ok, Prod.exists, Prod.mk.injEq] at taken
    obtain ⟨tag, _, type, typed, tags, slots, more, rfl, rfl⟩ := taken
    obtain ⟨_, others, typed', _, declared, rfl⟩ := emitParams_cons_yields.mp entered
    cases typed.symm.trans typed'
    rw [List.length_cons] at enough
    obtain ⟨value, there⟩ : ∃ value, s.args[i]? = some value :=
      ⟨_, List.getElem?_eq_getElem (by omega)⟩
    have copied (behind : Piece) : P.Reaches built whole
        ⟨.ldarg i :: .stloc before.locals.length :: behind, [], s⟩ ⟨behind, [], s.keep i value⟩ := by
      rw [first]
      exact (reaches_step rfl (step_ldarg there)).trans (reaches_step rfl rfl)
    have next : (before.withLocal param.name.name type tag).locals.length = i + 1 := by
      simp [Frame.withLocal, first]
    have enough' : (s.keep i value).args.length = i + 1 + slots.length := by
      rw [State.keep, enough]
      omega
    obtain ⟨same, reaches⟩ := ih more declared next enough' fun slot other below found => by
      by_cases last : slot = i
      · subst last
        cases there.symm.trans found
        simp [State.keep]
      · simpa [State.keep, last] using held slot other (by omega) found
    rw [State.entered_keep there] at reaches
    exact ⟨same, (copied _).trans reaches⟩

theorem next_stays {config after : P.Config} (ends : whole.getLast? = some .ret)
    (located : config.rest <:+ whole) (steps : P.next built whole config = some after) :
    after.rest <:+ whole ∧ after.rest ≠ [] := by
  obtain ⟨rest, stack, state⟩ := config
  cases rest with
  | nil => cases steps
  | cons instr rest =>
    -- What is behind an instruction other than a return is not empty.
    have behind : instr ≠ .ret → rest <:+ whole ∧ rest ≠ [] := by
      intro other
      refine ⟨behind_cons located, ?_⟩
      rintro rfl
      obtain ⟨before, rfl⟩ := located
      rw [List.getLast?_concat] at ends
      exact other (Option.some.inj ends)
    have resumed {label : Label} {target : Piece} (found : resume whole label = some target) :
        target <:+ whole ∧ target ≠ [] := by
      obtain ⟨suffix, _, rfl⟩ := resume_eq_some found
      exact ⟨suffix, List.cons_ne_nil _ _⟩
    have jumped {label : Label} {target : Piece} {taken : Bool} (other : instr ≠ .ret)
        (found : jump whole label rest taken = some target) : target <:+ whole ∧ target ≠ [] := by
      cases taken with
      | true => exact resumed found
      | false =>
        cases found
        exact behind other
    rw [next] at steps
    split at steps
    · obtain ⟨_, acts, rfl⟩ := Option.map_eq_some_iff.mp steps
      refine behind ?_
      rintro rfl
      cases acts
    · obtain ⟨⟨target, stack'⟩, goes, rfl⟩ := Option.map_eq_some_iff.mp steps
      change target <:+ whole ∧ target ≠ []
      unfold go at goes
      split at goes
      · cases goes
        exact behind (by simp)
      · obtain ⟨_, found, same⟩ := Option.map_eq_some_iff.mp goes
        cases same
        exact resumed found
      · obtain ⟨_, found, same⟩ := Option.map_eq_some_iff.mp goes
        cases same
        exact jumped (by simp) found
      · obtain ⟨_, found, same⟩ := Option.map_eq_some_iff.mp goes
        cases same
        exact jumped (by simp) found
      · obtain ⟨_, _, goes⟩ := Option.bind_eq_some_iff.mp goes
        obtain ⟨_, found, same⟩ := Option.map_eq_some_iff.mp goes
        cases same
        exact jumped (by simp) found
      · cases goes

theorem Reaches.stays {config final : P.Config} (ends : whole.getLast? = some .ret)
    (located : config.rest <:+ whole ∧ config.rest ≠ []) (reaches : P.Reaches built whole config final) :
    final.rest <:+ whole ∧ final.rest ≠ [] := by
  induction reaches with
  | refl => exact located
  | tail _ steps ih => exact next_stays ends ih.1 steps

theorem reaches_epilogue {result : Ty} {code : Piece} {s s' : P.State}
    (reaches : P.Reaches built (code ++ epilogue result code) ⟨code ++ epilogue result code, [], s⟩
      ⟨epilogue result code, [], s'⟩) :
    P.Reaches built (code ++ epilogue result code) ⟨code ++ epilogue result code, [], s⟩
      ⟨[.ret], P.blank result, s'⟩ := by
  by_cases ends : code.getLast? = some .ret
  · -- The last instruction is a return, so the run would not have left the code.
    have none : epilogue result code = [] := if_pos ends
    have nonempty : code ≠ [] := by
      rintro rfl
      cases ends
    rw [none, List.append_nil] at reaches
    exact absurd rfl (reaches.stays ends ⟨List.suffix_refl _, nonempty⟩).2
  · have blank : epilogue result code = result.defaultCode ++ ([.ret] : Piece) := if_neg ends
    refine reaches.trans ?_
    rw [blank]
    cases result with
    | void => exact .refl
    | _ => exact reaches_step rfl rfl

theorem Exec.lowered {decl : MethodDecl} {method : Method} {tags : List (String × Tag)}
    {slots : List Slot} {s s' : P.State} {o : Ending P.Data} (made : env.method decl = .ok method)
    (taken : env.params decl.params = .ok (tags, slots)) (enough : s.args.length = slots.length)
    (runs : P.Exec built env (Frame.entering { scopes := [[]] } tags slots) (.items decl.body.items)
      s.entered o s') :
    o ≠ .broken ∧ ∃ rest, P.Reaches built method.code ⟨method.code, [], s⟩
      ⟨.ret :: rest, P.given method.result o, s'⟩ := by
  obtain ⟨_, _, _, result, code, final, _, taken', _, emitted, rfl, _⟩ := Env.method_eq_ok.mp made
  obtain ⟨rfl, rfl⟩ := Prod.mk.inj (Except.ok.inj (taken.symm.trans taken'))
  have marked := (emitBody_grows rfl emitted).marked
  obtain ⟨entry, frame, body, entered, stated, rfl⟩ := emitBody_yields.mp emitted
  have declares : Frame.Grows [] [] _ _ _ _ := (emitParams_grows entered).1
  have outside : frame.breakLabels = [] := declares.breaks
  have leaves : Leaves (entry ++ body ++ epilogue result (entry ++ body)) frame.breakLabels := by
    rw [outside]
    intro label first
    cases first
  obtain ⟨rfl, enters⟩ := reaches_entry taken entered rfl (by rw [enough, Nat.zero_add]) nofun
  rw [List.append_assoc] at marked leaves
  have arrives := runs.simulated _ body body _ marked ⟨rfl, final, stated⟩
    (List.suffix_append entry _) leaves
  rw [outside] at arrives
  have whole := arrives.from enters
  rw [← List.append_assoc] at whole
  cases o with
  | normal => exact ⟨nofun, [], reaches_epilogue whole⟩
  | broken =>
    obtain ⟨_, _, target, _⟩ := whole
    cases target
  | returned value =>
    obtain ⟨rest, reaches⟩ := whole
    exact ⟨nofun, rest, reaches⟩

end Platform

/-- In every method that is generated, the flat code runs as the statements of the body do: to a
return, with the same state and the value that they give. -/
theorem Program.statements_lowered {program : Program} {table : SymbolTable}
    {annotations : Annotations} {entry : String} {built : Module}
    (generated : program.generate table annotations entry = .ok built) {decl : MethodDecl}
    (member : Item.method decl ∈ program.items) :
    ∃ method ∈ built.methods, method.name = decl.name.name ∧
      ∃ tags, (program.env table annotations).params decl.params = .ok (tags, method.params) ∧
        ∀ (P : Platform) (s s' : P.State) (o : Ending P.Data),
          s.args.length = method.params.length →
          P.Exec built (program.env table annotations)
            (Frame.entering { scopes := [[]] } tags method.params) (.items decl.body.items)
            s.entered o s' →
          o ≠ .broken ∧ ∃ rest, P.Reaches built method.code ⟨method.code, [], s⟩
            ⟨.ret :: rest, P.given method.result o, s'⟩ := by
  have methods := Program.methods_of_generate generated
  obtain ⟨method, listed, made⟩ := Env.method_of_methods methods member
  obtain ⟨_, tags, slots, _, _, _, _, taken, _, _, same, _⟩ := Env.method_eq_ok.mp made
  have params : method.params = slots := by rw [same]
  rw [← params] at taken
  refine ⟨method, listed, Env.method_name made, tags, taken, ?_⟩
  intro P s s' o enough runs
  exact runs.lowered made taken enough

namespace Sample

/-- A machine without numbers, texts, objects and a console. -/
def bare : Platform where
  Data := Unit
  World := Unit
  single := fun _ => ()
  double := fun _ => ()
  text := fun _ => ()
  null := ()
  arith := fun _ _ _ => none
  negate := fun _ => none
  equal := fun _ _ => none
  less := fun _ _ => none
  greater := fun _ _ => none
  sameText := fun _ _ _ => none
  toInt := fun _ => none
  toChar := fun _ => none
  toSingle := fun _ => none
  toDouble := fun _ => none
  serve := fun _ _ _ => none

/-- `void Main() { int n; n = 7;
while (n == 7) { switch (n) { case 1: return; case 7: break; } return; } }` -/
def leaves : Program :=
  program [method none "Main" [] [
    .var (vars "int" ["n"]),
    .stmt (.assign (place "n" []) (value (int 7)) {}),
    .stmt (.whileLoop (test (value (load "n" [])) .eq (value (int 7)))
      (.block ⟨[
        .stmt (.switch (value (load "n" []))
          [⟨.int 1, [.returnStmt none {}], {}⟩, ⟨.int 7, [.breakStmt {}], {}⟩] none {}),
        .stmt (.returnStmt none {})], {}⟩) {})]]

def leavesEnv : Env := leaves.env (leaves.check "Main").table (leaves.check "Main").annotations

def declared : Frame := { locals := [⟨"n", .int32⟩], scopes := [[("n", 0, Tag.int)]] }

def switched : Frame :=
  { locals := [⟨"n", .int32⟩, ⟨"$t0", .int32⟩], labelCount := 5, scopes := [[], [("n", 0, Tag.int)]]
    breakLabels := [⟨1⟩], tempCount := 1 }

def switchCode : Piece :=
  [.ldloc 0, .stloc 1, .ldloc 1, .ldcI4 1, .beq ⟨3⟩, .ldloc 1, .ldcI4 7, .beq ⟨4⟩, .br ⟨2⟩, .mark ⟨3⟩,
    .ret, .mark ⟨4⟩, .br ⟨2⟩, .mark ⟨2⟩]

open Platform in
theorem leaves_runs (built : Module) (s : bare.State) : ∃ decl, leaves.items = [.method decl] ∧
    decl.name.name = "Main" ∧ decl.params = [] ∧
    bare.Exec built leavesEnv { scopes := [[]] } (.items decl.body.items) s (.returned none)
      ((s.keep 0 (.word 7)).keep 1 (.word 7)) := by
  have stored : bare.Passes built [.ldcI4 7, .stloc 0] s [] (s.keep 0 (.word 7)) :=
    (reaches_step rfl rfl).trans (reaches_step rfl rfl)
  have tested : bare.Passes built [.ldloc 0, .ldcI4 7, .ceq] (s.keep 0 (.word 7)) [.word 1]
      (s.keep 0 (.word 7)) :=
    (reaches_step rfl rfl).trans ((reaches_step rfl rfl).trans (reaches_step rfl rfl))
  have selected : bare.Passes built [.ldloc 0] (s.keep 0 (.word 7)) [.word 7]
      (s.keep 0 (.word 7)) := reaches_step rfl rfl
  refine ⟨_, rfl, rfl, rfl, ?_⟩
  refine .itemsVar rfl (emits () declared (by decide +kernel)) ?_
  refine .itemsNext (.simple rfl (emits [.ldcI4 7, .stloc 0] declared (by decide +kernel)) stored)
    (emits [.ldcI4 7, .stloc 0] declared (by decide +kernel)) ?_
  refine .itemsLeft (.whileLeft (o := .returned none)
    ⟨_, 1, emits _ (declared.withLabels 2) (by decide +kernel), tested, rfl⟩ (.block ?_) nofun) nofun
  refine .itemsNext ?_ (emits switchCode switched (by decide +kernel)) (.itemsLeft .returns nofun)
  have typed : leavesEnv.type .int = .ok .int32 := rfl
  have enters : bare.Enters (.word 7)
      [⟨.int 1, [.returnStmt none {}], {}⟩, ⟨.int 7, [.breakStmt {}], {}⟩] 1 := ⟨rfl, rfl⟩
  refine .switch (o := .broken) (by decide +kernel) typed
    (emits _ ((declared.withLabels 2).breaking ⟨1⟩).opened (by decide +kernel)) selected enters ?_
  exact .skip (emitStmts_cons_yields.mpr ⟨_, _, _, Stmt.emit_return_none_yields.mpr ⟨rfl, rfl⟩,
    emitStmts_nil_yields.mpr ⟨rfl, rfl⟩, rfl⟩) (.caseLeft (.stmtsLeft .breaks nofun) nofun)

end Sample

theorem leaves_lowered : ∃ built, Sample.leaves.generate (Sample.leaves.check "Main").table
      (Sample.leaves.check "Main").annotations "Main" = .ok built ∧
    ∃ method ∈ built.methods, method.name = "Main" ∧ ∃ rest, Sample.bare.Reaches built method.code
      ⟨method.code, [], ⟨fun _ => .word 0, [], ()⟩⟩
      ⟨.ret :: rest, [], ⟨fun slot => if slot < 2 then .word 7 else .word 0, [], ()⟩⟩ := by
  obtain ⟨built, generated⟩ : ∃ built, Sample.leaves.generate (Sample.leaves.check "Main").table
      (Sample.leaves.check "Main").annotations "Main" = .ok built :=
    Sample.exists_ok (by decide +kernel)
  let start : Sample.bare.State := ⟨fun _ => .word 0, [], ()⟩
  obtain ⟨decl, items, named, alone, runs⟩ := Sample.leaves_runs built start.entered
  have member : Item.method decl ∈ Sample.leaves.items := by
    rw [items]
    exact List.mem_singleton_self _
  obtain ⟨method, listed, same, tags, taken, lowered⟩ := Program.statements_lowered generated member
  rw [alone] at taken
  obtain ⟨rfl, none⟩ := Prod.mk.inj (Except.ok.inj taken)
  rw [← none] at lowered
  obtain ⟨_, rest, reaches⟩ := lowered Sample.bare start _ _ rfl runs
  have final : (start.entered.keep 0 (.word 7)).keep 1 (.word 7) =
      ⟨fun slot => if slot < 2 then .word 7 else .word 0, [], ()⟩ := by
    refine congrArg (fun locals => (⟨locals, [], ()⟩ : Sample.bare.State)) (funext fun slot => ?_)
    rcases slot with _ | _ | slot
    · rfl
    · rfl
    · simp [Platform.State.keep, Platform.State.entered, start]
  rw [final] at reaches
  exact ⟨built, generated, method, listed, same.trans named, rest, reaches⟩

end StackCode
