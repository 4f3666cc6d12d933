import StackCode.Proofs.Resolution.Alignment
import StackCode.Proofs.Resolution.Walk

namespace StackCode

open Checking Code Emit

def CheckState.age (state : CheckState) : Nat := state.table.history.size

theorem CheckState.Grown.age_le {before after : CheckState} (grown : before.Grown after) :
    before.age ≤ after.age := by
  simpa [CheckState.age] using grown.history.length_le

variable {uses : List Use} {α : Type}

theorem Checking.Quiet.resolves {f : Checking α} {state : CheckState} {literals : List Literal}
    (quiet : f.Quiet state) (clears : f.Clears uses literals) : ∀ use ∈ uses, use.Resolves state.table := by
  obtain ⟨g, run, clears⟩ := clears state
  rw [Checking.Quiet, run] at quiet
  exact clears.clear state.toNotes quiet

/-- What can be said of a point: the two passes are aligned there, and what is used is resolved. -/
structure Spot.Agrees (link : Nat → Nat → Prop) (global : SymbolTable) (spot : Spot) : Prop where
  aligned : Aligned link global spot.table spot.frame.scopes
  resolves : ∀ use ∈ spot.uses, use.Resolves spot.table

/-- The declarations of a walk have positions from `lo` to `hi` and slots from `first` to `last`, no
two the same; and if the passes are aligned at its start and its declarations are linked, they agree
at all its points. -/
structure Walk.Sound (link : Nat → Nat → Prop) (global : SymbolTable) (start : Prop) (walk : Walk)
    (lo hi first last : Nat) : Prop where
  within : ∀ entry ∈ walk.declared, lo ≤ entry.1 ∧ entry.1 < hi ∧ first ≤ entry.2 ∧ entry.2 < last
  distinct : walk.declared.Pairwise fun a b => a.1 ≠ b.1 ∧ a.2 ≠ b.2
  agrees : start → (∀ entry ∈ walk.declared, link entry.1 entry.2) →
    ∀ spot ∈ walk.spots, spot.Agrees link global

variable {frame : Frame}

namespace Walk

variable {link : Nat → Nat → Prop} {global : SymbolTable} {start start' : Prop} {v w : Walk}
  {a b m n c d p q lo hi first last : Nat}

theorem sound_nil : ({} : Walk).Sound link global start lo hi first last :=
  ⟨nofun, .nil, fun _ _ => nofun⟩

theorem sound_here {state : CheckState} (aligned : start → Aligned link global state.table frame.scopes)
    (resolves : ∀ use ∈ uses, use.Resolves state.table) :
    (here state frame uses).Sound link global start lo hi first last :=
  ⟨nofun, .nil, fun begin _ => List.forall_mem_singleton.mpr ⟨aligned begin, resolves⟩⟩

theorem Sound.mono (sound : v.Sound link global start a b m n) (earlier : start' → start)
    (wider : lo ≤ a ∧ b ≤ hi ∧ first ≤ m ∧ n ≤ last) : v.Sound link global start' lo hi first last :=
  ⟨fun entry member => by have := sound.within entry member; omega, sound.distinct,
    fun begin => sound.agrees (earlier begin)⟩

theorem Sound.append (one : v.Sound link global start a b m n) (two : w.Sound link global start c d p q)
    (apart : b ≤ c ∨ d ≤ a) (ahead : n ≤ p)
    (wider : lo ≤ a ∧ lo ≤ c ∧ b ≤ hi ∧ d ≤ hi ∧ first ≤ m ∧ first ≤ p ∧ n ≤ last ∧ q ≤ last) :
    (v ++ w).Sound link global start lo hi first last := by
  refine ⟨?_, ?_, fun begin linked => ?_⟩
  · refine List.forall_mem_append.mpr ⟨fun entry member => ?_, fun entry member => ?_⟩
    · have := one.within entry member
      omega
    · have := two.within entry member
      omega
  · refine List.pairwise_append.mpr ⟨one.distinct, two.distinct, fun x left y right => ?_⟩
    have := one.within x left
    have := two.within y right
    omega
  · obtain ⟨left, right⟩ := List.forall_mem_append.mp linked
    exact List.forall_mem_append.mpr ⟨one.agrees begin left, two.agrees begin right⟩

theorem sound_behind {part : Emit α} {next : Frame → Walk}
    (sound : ∀ a after, part.Yields frame a after → (next after).Sound link global start lo hi first last) :
    (behind part frame next).Sound link global start lo hi first last := by
  unfold behind
  split
  · rename_i a after found
    exact sound a after found
  · exact sound_nil

end Walk

structure DeclaresLocal (step : Checking Unit × Emit Nat) : Prop where
  grows : step.1.Grows
  declares : ∀ state, step.1.Quiet state → ∃ (name : Ident) (type : Tag) (site : Site) (decl : Span),
    (site = .param ∨ site = .localVar) ∧
      (step.1.outcome state).2.table = state.table.push name type site (.var false) decl ∧
      ∀ frame slot after, step.2.Yields frame slot after → ∃ type tag,
        after = frame.withLocal name.name type tag

def checkSteps : List (Checking Unit × Emit Nat) → Checking Unit
  | [] => pure ()
  | step :: rest => do
    step.1
    checkSteps rest

theorem checkSteps_grows {steps : List (Checking Unit × Emit Nat)}
    (each : ∀ step ∈ steps, DeclaresLocal step) : (checkSteps steps).Grows := by
  induction steps with
  | nil => exact fun _ => le_refl _
  | cons step rest ih =>
    rw [List.forall_mem_cons] at each
    exact each.1.grows.bind fun _ => ih each.2

open Walk

variable {check : Checking Unit}

section Steps

variable {link : Nat → Nat → Prop} {global : SymbolTable}

theorem DeclaresLocal.age {step : Checking Unit × Emit Nat} (declares : DeclaresLocal step)
    {state : CheckState} (quiet : step.1.Quiet state) :
    (step.1.outcome state).2.age = state.age + 1 := by
  obtain ⟨name, type, site, decl, _, table, _⟩ := declares.declares state quiet
  rw [CheckState.age, table]
  exact Array.size_push _

theorem age_checkSteps : ∀ {steps : List (Checking Unit × Emit Nat)},
    (∀ step ∈ steps, DeclaresLocal step) → ∀ {state : CheckState}, (checkSteps steps).Quiet state →
    ((checkSteps steps).outcome state).2.age = state.age + steps.length
  | [], _, _, _ => rfl
  | step :: steps, each, state, quiet => by
    rw [List.forall_mem_cons] at each
    obtain ⟨first, rest⟩ := quiet.bind each.1.grows fun _ => checkSteps_grows each.2
    have behind := age_checkSteps each.2 rest
    have one := each.1.age first
    change ((checkSteps steps).outcome (step.1.outcome state).2).2.age = _
    rw [behind, one, List.length_cons]
    omega

theorem sound_declaring {next : CheckState → Frame → Walk} {hi more : Nat} :
    ∀ {steps : List (Checking Unit × Emit Nat)}, (∀ step ∈ steps, DeclaresLocal step) →
    ∀ {state : CheckState} {frame : Frame}, (checkSteps steps).Quiet state →
    (∀ after : Frame, after.locals.length = frame.locals.length + steps.length →
      (next ((checkSteps steps).outcome state).2 after).Sound link global
        (Aligned link global ((checkSteps steps).outcome state).2.table after.scopes)
        ((checkSteps steps).outcome state).2.age hi after.locals.length (after.locals.length + more)) →
    ((checkSteps steps).outcome state).2.age ≤ hi →
    (declaring steps state frame next).Sound link global (Aligned link global state.table frame.scopes)
      state.age hi frame.locals.length (frame.locals.length + (steps.length + more))
  | [], _, state, frame, _, sound, _ => by
    rw [List.length_nil, Nat.zero_add]
    exact sound frame rfl
  | step :: steps, each, state, frame, quiet, sound, below => by
    have ages := age_checkSteps each quiet
    rw [List.forall_mem_cons] at each
    obtain ⟨first, rest⟩ := quiet.bind each.1.grows fun _ => checkSteps_grows each.2
    have older := each.1.age first
    obtain ⟨name, _, site, decl, sited, table, allocates⟩ := each.1.declares state first
    refine sound_behind fun slot after allocated => ?_
    obtain ⟨type, tag, rfl⟩ := allocates frame slot after allocated
    have longer : (frame.withLocal name.name type tag).locals.length = frame.locals.length + 1 :=
      List.length_append
    have behind : (declaring steps (step.1.outcome state).2 (frame.withLocal name.name type tag)
        next).Sound link global _ _ hi _ _ :=
      sound_declaring each.2 rest
        (fun after length => sound after (by rw [length, longer, List.length_cons]; omega)) below
    rw [List.length_cons] at ages ⊢
    refine ⟨List.forall_mem_cons.mpr ⟨?_, fun entry member => ?_⟩,
      List.pairwise_cons.mpr ⟨fun entry member => ?_, behind.distinct⟩, fun aligned linked => ?_⟩
    · change state.age ≤ state.age ∧ state.age < hi ∧ _ ≤ frame.locals.length ∧ frame.locals.length < _
      omega
    · have := behind.within entry member
      omega
    · have := behind.within entry member
      change state.age ≠ entry.1 ∧ frame.locals.length ≠ entry.2
      omega
    · obtain ⟨head, tail⟩ := List.forall_mem_cons.mp linked
      refine behind.agrees ?_ tail
      rw [table]
      exact aligned.declare tag sited head

theorem declaresLocal_of_introduce (env : Env) {name : Ident} {type : CheckState → Tag} (tag : Tag)
    {site : Site} {decl : Span} (sited : site = .param ∨ site = .localVar)
    (made : ∀ state, (check.outcome state).2 =
      ((introduce name (·.declareVar? name (type state) false site decl)).outcome state).2) :
    DeclaresLocal (check, newLocal env name.name tag) := by
  have complains : ∀ state, state.errors.size <
      ((report (.redeclaration name.name) name.span).outcome state).2.errors.size :=
    fun state => Noting.complains_report (.redeclaration name.name) name.span state.toNotes
  have made : ∀ state, (check.outcome state).2 =
      if (state.table.lookupCurrent? name.name).isSome then
        ((report (.redeclaration name.name) name.span).outcome state).2
      else { state with table := state.table.push name (type state) site (.var false) decl } := by
    intro state
    rw [made, outcome_introduce, SymbolTable.declareVar?]
    cases (state.table.lookupCurrent? name.name).isSome <;> rfl
  refine ⟨fun state => ?_, fun state quiet => ?_⟩
  · rw [made]
    split
    · exact (complains state).le
    · exact le_refl _
  · rw [Quiet, made] at quiet
    rw [made]
    split at quiet
    · exact absurd quiet (complains state).ne'
    · rename_i free
      rw [if_neg free]
      refine ⟨name, _, site, decl, sited, rfl, fun frame slot after allocated => ?_⟩
      obtain ⟨type, _, _, _, rfl⟩ := yields_newLocal.mp allocated
      exact ⟨type, tag, rfl⟩

theorem VarDecl.steps_declare (env : Env) (decl : VarDecl) (type tag : Tag) :
    ∀ step ∈ decl.steps env type tag, DeclaresLocal step := by
  intro step member
  obtain ⟨name, _, rfl⟩ := List.mem_map.mp member
  exact declaresLocal_of_introduce env tag (.inr rfl) fun _ => rfl

theorem VarDecl.checkSteps_steps (env : Env) (decl : VarDecl) (type tag : Tag) :
    checkSteps (decl.steps env type tag) = declareNames type .localVar decl.span decl.names := by
  unfold VarDecl.steps
  induction decl.names with
  | nil => rfl
  | cons name names ih =>
    rw [List.map_cons, checkSteps, ih]
    rfl

theorem paramSteps_declare (env : Env) : ∀ (params : List Param) {tags : List (String × Tag)}
    {slots : List Slot}, env.params params = .ok (tags, slots) →
    (∀ step ∈ paramSteps env params tags, DeclaresLocal step) ∧
      checkSteps (paramSteps env params tags) = declareParams params ∧
      (paramSteps env params tags).length = params.length
  | [], _, _, _ => ⟨nofun, rfl, rfl⟩
  | param :: params, tags, slots, found => by
    rw [Env.params] at found
    obtain ⟨tag, _, found⟩ := bind_eq_ok.mp found
    obtain ⟨_, _, found⟩ := bind_eq_ok.mp found
    obtain ⟨⟨rest, others⟩, behind, found⟩ := bind_eq_ok.mp found
    obtain ⟨rfl, rfl⟩ := Prod.mk.inj (pure_eq_ok.mp found)
    obtain ⟨each, same, length⟩ := paramSteps_declare env params behind
    refine ⟨List.forall_mem_cons.mpr ⟨?_, each⟩, ?_, congrArg Nat.succ length⟩
    · exact declaresLocal_of_introduce env tag (.inl rfl) fun _ => rfl
    · change (do declareParams [param]; checkSteps (paramSteps env params rest)) = _
      rw [same]
      rfl

end Steps

section Kept

variable (state : CheckState)

theorem Stmt.check_kept (stmt : Stmt) : state.Kept (stmt.check.outcome state).2 := by
  have checks : stmt.check.Checks stmt.annotated CheckState.Kept (·.At state.table.sight [] false .void)
    fun facts _ _ => stmt.Typed facts .void state.table.sight false := Stmt.check_checks stmt
  exact (checks state).2.1

theorem checkOption_kept (stmt : Option Stmt) : state.Kept ((checkOption stmt).outcome state).2 := by
  cases stmt with
  | none => exact .refl state
  | some stmt => exact Stmt.check_kept state stmt

theorem checkStmts_kept (stmts : List Stmt) : state.Kept ((checkStmts stmts).outcome state).2 := by
  have checks : (checkStmts stmts).Checks (stmtsAnnotated stmts) CheckState.Kept
    (·.At state.table.sight [] true .void)
    fun facts _ _ => StmtsTyped facts .void state.table.sight stmts := checkStmts_checks stmts
  exact (checks state).2.1

theorem checkCases_kept (selector : Tag) (seen : List Literal) (cases : List SwitchCase) :
    state.Kept ((checkCases selector seen cases).outcome state).2 := by
  have checks : (checkCases selector seen cases).Checks (casesAnnotated cases) CheckState.Kept
    (·.At state.table.sight [] true .void)
    fun facts _ _ => selector.isSelector = true →
      CasesTyped facts .void state.table.sight selector seen cases := checkCases_checks cases selector seen
  exact (checks state).2.1

theorem checkItems_grown (items : List BlockItem) : state.Grown ((checkItems items).outcome state).2 := by
  have checks : (checkItems items).Checks (itemsAnnotated items) CheckState.Grown
    (·.At state.table.sight [] false .void)
    fun facts _ _ => ItemsTyped facts .void state.table.sight false [] items := checkItems_checks items
  exact (checks state).2.1

theorem checkDefault_kept (default : Option DefaultCase) :
    state.Kept ((checkDefault default).outcome state).2 := by
  cases default with
  | none => exact .refl state
  | some default =>
    obtain ⟨body, span⟩ := default
    exact checkStmts_kept state body

end Kept

theorem Aligned.moves {link : Nat → Nat → Prop} {global table later : SymbolTable}
    {scopes scopes' : List (List (String × Nat × Tag))} (aligned : Aligned link global table scopes)
    (longer : table.Extends later) (same : scopes' = scopes) : Aligned link global later scopes' :=
  same ▸ aligned.longer longer

section Parts

variable {env : Env} {link : Nat → Nat → Prop} {global : SymbolTable}

/-- The walk through a part of a method about which nothing is reported. -/
def Walked (link : Nat → Nat → Prop) (global : SymbolTable) (check : Checking Unit)
    (walk : CheckState → Frame → Walk) (slots : Nat) : Prop :=
  ∀ state frame, check.Quiet state → (walk state frame).Sound link global
    (Aligned link global state.table frame.scopes) state.age (check.outcome state).2.age
    frame.locals.length (frame.locals.length + slots)

/-- Both passes go through a part of a method and leave the names in sight as they are. -/
structure Passes {α : Type} (link : Nat → Nat → Prop) (global : SymbolTable) (check : Checking Unit)
    (emit : Emit α) (walk : CheckState → Frame → Walk) (slots : Nat) : Prop where
  grows : check.Grows
  kept : ∀ state : CheckState, state.Kept (check.outcome state).2
  emits : ∀ frame a after, emit.Yields frame a after →
    after.scopes = frame.scopes ∧ after.locals.length = frame.locals.length + slots
  walked : Walked link global check walk slots

theorem Stmt.passes (stmt : Stmt) (walked : Walked link global stmt.check (stmt.walk env) stmt.slots) :
    Passes link global stmt.check (stmt.emit env) (stmt.walk env) stmt.slots where
  grows := (Stmt.check_follows stmt).grows
  kept state := Stmt.check_kept state stmt
  emits frame code after emitted := by
    have emits : Frame.Emits frame.breakLabels [] _ _ _ _ true _ :=
      Stmt.emit_emits stmt (List.Subset.refl _) emitted
    exact ⟨emits.scopes, emits.count⟩
  walked := walked

theorem passes_option (stmt : Option Stmt)
    (walked : Walked link global (checkOption stmt) (walkOption env stmt) (optionSlots stmt)) :
    Passes link global (checkOption stmt) (emitOptional env stmt) (walkOption env stmt)
      (optionSlots stmt) where
  grows := (checkOption_follows stmt).grows
  kept state := checkOption_kept state stmt
  emits frame code after emitted := by
    have emits : Frame.Emits frame.breakLabels [] _ _ _ _ true _ :=
      emitOptional_emits stmt (List.Subset.refl _) emitted
    exact ⟨emits.scopes, emits.count⟩
  walked := walked

theorem passes_stmts (stmts : List Stmt)
    (walked : Walked link global (checkStmts stmts) (walkStmts env stmts) (stmtsSlots stmts)) :
    Passes link global (checkStmts stmts) (emitStmts env stmts) (walkStmts env stmts)
      (stmtsSlots stmts) where
  grows := (checkStmts_follows stmts).grows
  kept state := checkStmts_kept state stmts
  emits frame code after emitted := by
    have emits : Frame.Emits frame.breakLabels [] _ _ _ _ true _ :=
      emitStmts_emits stmts (List.Subset.refl _) emitted
    exact ⟨emits.scopes, emits.count⟩
  walked := walked

theorem passes_cases (selector : Tag) (cases : List SwitchCase) (labels : List Label)
    (length : labels.length = cases.length)
    (walked : Walked link global (checkCases selector [] cases) (walkCases env selector [] cases)
      (casesSlots cases)) :
    Passes link global (checkCases selector [] cases) (emitCases env labels cases)
      (walkCases env selector [] cases) (casesSlots cases) where
  grows := (checkCases_follows selector [] cases).grows
  kept state := checkCases_kept state selector [] cases
  emits frame code after emitted := by
    have emits : Frame.Emits frame.breakLabels labels _ _ _ _ true _ :=
      emitCases_emits cases length (List.Subset.refl _) emitted
    exact ⟨emits.scopes, emits.count⟩
  walked := walked

variable {slots : Nat} {walk : CheckState → Frame → Walk}

theorem Passes.then {check' : Checking Unit} {emit : Emit α} {walk' : CheckState → Frame → Walk}
    {slots' : Nat} (first : Passes link global check emit walk slots) (grows : check'.Grows)
    (grown : ∀ state : CheckState, state.Grown (check'.outcome state).2)
    (second : Walked link global check' walk' slots') :
    Walked link global (do check; check') (fun state frame =>
      walk state frame ++ behind emit frame fun after => walk' (check.outcome state).2 after)
      (slots + slots') := by
  intro state frame quiet
  obtain ⟨one, two⟩ := quiet.bind first.grows fun _ => grows
  have kept := first.kept state
  have rest : (behind emit frame fun after => walk' (check.outcome state).2 after).Sound link global
      (Aligned link global state.table frame.scopes) (check.outcome state).2.age
      (check'.outcome (check.outcome state).2).2.age (frame.locals.length + slots)
      (frame.locals.length + slots + slots') := by
    refine sound_behind fun a after emitted => ?_
    obtain ⟨scopes, length⟩ := first.emits frame a after emitted
    have sound := second (check.outcome state).2 after two
    rw [length] at sound
    exact sound.mono (fun aligned => aligned.moves kept.table scopes)
      ⟨le_refl _, le_refl _, le_refl _, le_refl _⟩
  have ages := kept.grown.age_le
  have ages' := (grown (check.outcome state).2).age_le
  have run : ((do check; check').outcome state).2 = (check'.outcome (check.outcome state).2).2 := rfl
  rw [run]
  exact (first.walked state frame one).append rest (.inl (le_refl _)) (le_refl _) (by omega)

theorem sound_test {part : Emit α} {state : CheckState} {before : Frame} {next : Frame → Walk}
    {hi more : Nat} (scopes : before.scopes = frame.scopes)
    (resolves : ∀ use ∈ uses, use.Resolves state.table)
    (emits : ∀ a after, part.Yields before a after →
      after.scopes = before.scopes ∧ after.locals.length = frame.locals.length + slots)
    (sound : ∀ after : Frame, after.scopes = frame.scopes →
      (next after).Sound link global (Aligned link global state.table after.scopes) state.age hi
        after.locals.length (after.locals.length + more)) :
    (here state before uses ++ behind part before next).Sound link global
      (Aligned link global state.table frame.scopes) state.age hi frame.locals.length
      (frame.locals.length + (slots + more)) := by
  have rest : (behind part before next).Sound link global (Aligned link global state.table frame.scopes)
      state.age hi (frame.locals.length + slots) (frame.locals.length + slots + more) := by
    refine sound_behind fun a after emitted => ?_
    obtain ⟨same, length⟩ := emits a after emitted
    have sound := sound after (same.trans scopes)
    rw [length] at sound
    exact sound.mono (fun aligned => aligned.moves (.refl _) (same.trans scopes))
      ⟨le_refl _, le_refl _, le_refl _, le_refl _⟩
  have point : (here state before uses).Sound link global (Aligned link global state.table frame.scopes)
      state.age 0 frame.locals.length 0 :=
    sound_here (fun aligned => aligned.moves (.refl _) scopes) resolves
  exact point.append rest (.inl (Nat.zero_le _)) (Nat.zero_le _) (by omega)

variable {cond : Condition}

theorem Condition.emit_frame {after : Frame} {code : Piece}
    (emitted : (cond.emit env).Yields frame code after) :
    after.scopes = frame.scopes ∧ after.locals.length = frame.locals.length + cond.slots := by
  have emits : Frame.Emits [] [] _ _ _ _ true _ := Condition.emit_emits emitted
  exact ⟨emits.scopes, emits.count⟩

variable {span : Span}

theorem walked_branch {onTrue : Stmt} {onFalse : Option Stmt}
    (yes : Walked link global onTrue.check (onTrue.walk env) onTrue.slots)
    (no : Walked link global (checkOption onFalse) (walkOption env onFalse) (optionSlots onFalse)) :
    Walked link global (Stmt.branch cond onTrue onFalse span).check
      ((Stmt.branch cond onTrue onFalse span).walk env) (Stmt.branch cond onTrue onFalse span).slots := by
  intro state frame quiet
  have both := (onTrue.passes yes).then (checkOption_follows onFalse).grows
    (fun state => (checkOption_kept state onFalse).grown) no
  rw [Stmt.check] at quiet ⊢
  obtain ⟨test, rest⟩ := quiet.bind (cond_follows cond).grows fun _ =>
    Grows.bind (Stmt.check_follows onTrue).grows fun _ => (checkOption_follows onFalse).grows
  rw [Stmt.walk, Stmt.slots, Nat.add_assoc]
  exact sound_test rfl (test.resolves (clears_note fun _ => cond.check_clears))
    (fun _ _ => Condition.emit_frame)
    fun after _ => both _ after rest

variable {emit : Emit Piece}

theorem Passes.loop (body : Passes link global check emit walk slots) (label : Label) :
    Walked link global (do enterLoop; check; leaveLoop)
      (fun state frame => walk (enterLoop.outcome state).2 (frame.breaking label)) slots :=
  fun state frame quiet => body.walked (enterLoop.outcome state).2 (frame.breaking label) quiet

theorem Passes.loop_grows (body : Passes link global check emit walk slots) :
    (do enterLoop; check; leaveLoop).Grows :=
  Grows.bind enterLoop_follows.grows fun _ => body.grows.bind fun _ => leaveLoop_follows.grows

theorem walked_while {body : Stmt} (walked : Walked link global body.check (body.walk env) body.slots) :
    Walked link global (Stmt.whileLoop cond body span).check ((Stmt.whileLoop cond body span).walk env)
      (Stmt.whileLoop cond body span).slots := by
  intro state frame quiet
  have inside := body.passes walked
  rw [Stmt.check] at quiet ⊢
  obtain ⟨test, rest⟩ := quiet.bind (cond_follows cond).grows fun _ => inside.loop_grows
  rw [Stmt.walk, Stmt.slots]
  exact sound_test rfl (test.resolves (clears_note fun _ => cond.check_clears))
    (fun _ _ => Condition.emit_frame)
    fun after _ => inside.loop _ _ after rest

theorem checkTest_grows (cond : Option Condition) : (checkTest cond).Grows := by
  cases cond with
  | none => exact fun _ => le_refl _
  | some cond => exact (cond_follows cond).grows

theorem table_checkTest (cond : Option Condition) (state : CheckState) :
    ((checkTest cond).outcome state).2.table = state.table := by
  cases cond <;> rfl

theorem sound_bottom {begun : CheckState} {cond : Option Condition}
    (update : Passes link global check emit walk slots) (test : (checkTest cond).Quiet begun)
    (quiet : check.Quiet ((checkTest cond).outcome begun).2) :
    (walk ((checkTest cond).outcome begun).2 frame ++
      behind emit frame fun bottom => here begun bottom (testUses cond)).Sound link global
        (Aligned link global begun.table frame.scopes) begun.age
        (check.outcome ((checkTest cond).outcome begun).2).2.age frame.locals.length
        (frame.locals.length + slots) := by
  have resolves : ∀ use ∈ testUses cond, use.Resolves begun.table := by
    cases cond with
    | none => exact nofun
    | some cond => exact test.resolves (clears_note fun _ => cond.check_clears)
  have sound := update.walked _ frame quiet
  rw [CheckState.age, table_checkTest] at sound
  have rest : (behind emit frame fun bottom => here begun bottom (testUses cond)).Sound link global
      (Aligned link global begun.table frame.scopes) begun.age 0 (frame.locals.length + slots) 0 := by
    refine sound_behind fun code after emitted => sound_here (fun aligned => ?_) resolves
    exact aligned.moves (.refl _) (update.emits frame code after emitted).1
  exact sound.append rest (.inr (Nat.zero_le _)) (le_refl _)
    ⟨le_refl _, le_refl _, le_refl _, Nat.zero_le _, le_refl _, by omega, le_refl _, Nat.zero_le _⟩

/-- A loop with a head. The check comes to its body last, generation before the update. -/
theorem walked_for {init update : Option Stmt} {cond : Option Condition} {body : Stmt}
    (first : Walked link global (checkOption init) (walkOption env init) (optionSlots init))
    (next : Walked link global (checkOption update) (walkOption env update) (optionSlots update))
    (loop : Walked link global body.check (body.walk env) body.slots) :
    Walked link global (Stmt.forLoop init cond update body span).check
      ((Stmt.forLoop init cond update body span).walk env)
      (Stmt.forLoop init cond update body span).slots := by
  intro state frame quiet
  have first := passes_option init first
  have next := passes_option update next
  have loop := body.passes loop
  have unfolded : (Stmt.forLoop init cond update body span).check = (do
      checkOption init
      checkTest cond
      checkOption update
      enterLoop
      body.check
      leaveLoop) := by
    rw [Stmt.check]
    cases cond <;> rfl
  rw [unfolded] at quiet ⊢
  obtain ⟨one, rest⟩ := quiet.bind first.grows fun _ =>
    (checkTest_grows cond).bind fun _ => next.grows.bind fun _ => loop.loop_grows
  obtain ⟨test, rest⟩ := rest.bind (checkTest_grows cond) fun _ => next.grows.bind fun _ => loop.loop_grows
  obtain ⟨two, three⟩ := rest.bind next.grows fun _ => loop.loop_grows
  rw [Stmt.walk, Stmt.slots]
  let begun := ((checkOption init).outcome state).2
  let tested := ((checkTest cond).outcome begun).2
  let updated := ((checkOption update).outcome tested).2
  let ended := ((do enterLoop; body.check; leaveLoop).outcome updated).2
  let label : Label := ⟨frame.labelCount + 2⟩
  have table : tested.table = begun.table := table_checkTest cond begun
  have begins : state.table.Extends begun.table := (first.kept state).table
  have updates : tested.table.Extends updated.table := (next.kept tested).table
  have ages : state.age ≤ begun.age ∧ begun.age ≤ updated.age ∧ updated.age ≤ ended.age := by
    refine ⟨(first.kept state).grown.age_le, ?_, (loop.kept (enterLoop.outcome updated).2).grown.age_le⟩
    have later := (next.kept tested).grown.age_le
    rwa [CheckState.age, table] at later
  have bottom : ∀ mid : Frame, mid.scopes = frame.scopes →
      mid.locals.length = frame.locals.length + optionSlots init →
      (behind (body.emit env) (mid.breaking label) fun last =>
        walkOption env update tested last.unbroken ++
          behind (emitOptional env update) last.unbroken fun bottom =>
            here begun bottom (testUses cond)).Sound link global
        (Aligned link global state.table frame.scopes) begun.age updated.age
        (frame.locals.length + optionSlots init + body.slots)
        (frame.locals.length + optionSlots init + body.slots + optionSlots update) := by
    intro mid scopes length
    refine sound_behind fun code last emitted => ?_
    obtain ⟨same, count⟩ := loop.emits _ _ _ emitted
    have count : last.unbroken.locals.length =
        frame.locals.length + optionSlots init + body.slots := by
      rw [← length]
      exact count
    have sound : (walkOption env update tested last.unbroken ++
        behind (emitOptional env update) last.unbroken fun bottom =>
          here begun bottom (testUses cond)).Sound link global _ begun.age updated.age _ _ :=
      sound_bottom next test two
    rw [count] at sound
    exact sound.mono (fun aligned => aligned.moves begins (same.trans scopes))
      ⟨le_refl _, le_refl _, le_refl _, le_refl _⟩
  have inside : (behind (emitOptional env init) (frame.withLabels 3) fun mid =>
      body.walk env (enterLoop.outcome updated).2 (mid.breaking label) ++
        behind (body.emit env) (mid.breaking label) fun last =>
          walkOption env update tested last.unbroken ++
            behind (emitOptional env update) last.unbroken fun bottom =>
              here begun bottom (testUses cond)).Sound link global
      (Aligned link global state.table frame.scopes) begun.age ended.age
      (frame.locals.length + optionSlots init)
      (frame.locals.length + optionSlots init + body.slots + optionSlots update) := by
    refine sound_behind fun code mid emitted => ?_
    obtain ⟨scopes, length⟩ := first.emits _ _ _ emitted
    have length : mid.locals.length = frame.locals.length + optionSlots init := length
    have sound := loop.loop label updated mid three
    rw [length] at sound
    have start : (body.walk env (enterLoop.outcome updated).2 (mid.breaking label)).Sound link global
        (Aligned link global state.table frame.scopes) updated.age ended.age _ _ :=
      sound.mono (fun aligned => aligned.moves (begins.trans (table ▸ updates)) scopes)
        ⟨le_refl _, le_refl _, le_refl _, le_refl _⟩
    exact start.append (bottom mid scopes length) (.inr (le_refl _)) (le_refl _) (by omega)
  have head : (walkOption env init state (frame.withLabels 3)).Sound link global
      (Aligned link global state.table frame.scopes) state.age begun.age frame.locals.length
      (frame.locals.length + optionSlots init) := first.walked state (frame.withLabels 3) one
  change Walk.Sound link global _ _ _ ended.age _ _
  exact head.append inside (.inl (le_refl _)) (le_refl _) (by omega)

theorem emitSelector_frame {selector : Expr} {after : Frame} {slot : Nat}
    (emitted : (emitSelector env selector).Yields frame slot after) :
    after.scopes = frame.scopes ∧ after.locals.length = frame.locals.length + (selector.slots + 1) := by
  obtain ⟨tag, _, typed, rest⟩ := yields_bind.mp emitted
  obtain ⟨_, rfl⟩ := yields_lift.mp typed
  obtain ⟨_, mid, selected, kept⟩ := yields_bind.mp rest
  obtain ⟨code, selected⟩ := yields_discard.mp selected
  obtain ⟨type, _, _, _, rfl⟩ := yields_temp.mp kept
  have emits : Frame.Emits [] [] _ _ _ _ true _ := Expr.emit_emits selector selected
  have length : (mid.withTemp type).locals.length = mid.locals.length + 1 := List.length_append
  refine ⟨emits.scopes, ?_⟩
  rw [length, emits.count, Nat.add_assoc]

theorem walked_switch {selector : Expr} {cases : List SwitchCase} {default : Option DefaultCase}
    (bodies : ∀ type, Walked link global (checkCases type [] cases) (walkCases env type [] cases)
      (casesSlots cases))
    (last : Walked link global (checkDefault default) (walkDefault env default) (defaultSlots default)) :
    Walked link global (Stmt.switch selector cases default span).check
      ((Stmt.switch selector cases default span).walk env)
      (Stmt.switch selector cases default span).slots := by
  intro state frame quiet
  have grows : ∀ type,
      (do enterSwitch; checkCases type [] cases; checkDefault default; leaveSwitch).Grows :=
    fun type => Grows.bind (fun _ => le_refl _) fun _ =>
      Grows.bind (checkCases_follows type [] cases).grows fun _ =>
      Grows.bind (checkDefault_follows default).grows fun _ => leaveSwitch_follows.grows
  rw [Stmt.check] at quiet ⊢
  obtain ⟨first, rest⟩ := quiet.bind (checkSelector_follows selector span).grows grows
  rw [Stmt.walk, Stmt.slots, Nat.add_assoc]
  refine sound_test rfl (first.resolves (checkSelector_clears selector span))
    (fun _ _ => emitSelector_frame) fun after _ => ?_
  have length : (labelsFrom (after.labelCount + 1) cases.length).length = cases.length := by
    simp [labelsFrom]
  have both := (passes_cases _ cases _ length (bodies ((checkSelector selector span).outcome state).1)).then
    (checkDefault_follows default).grows (fun state => (checkDefault_kept state default).grown) last
  exact both (enterSwitch.outcome ((checkSelector selector span).outcome state).2).2
    ((after.withLabels (switchLabelCount cases default)).breaking ⟨after.labelCount⟩) rest

theorem age_closeScope (state : CheckState) : (closeScope.outcome state).2.age = state.age := by
  change (state.table.closeScope?.getD state.table).history.size = state.table.history.size
  unfold SymbolTable.closeScope?
  cases state.table.boundaries <;> rfl

theorem walked_block {items : List BlockItem}
    (walked : Walked link global (checkItems items) (walkItems env items) (itemsSlots items)) :
    Walked link global (Stmt.block ⟨items, span⟩).check ((Stmt.block ⟨items, span⟩).walk env)
      (Stmt.block ⟨items, span⟩).slots := by
  intro state frame quiet
  rw [Stmt.check] at quiet ⊢
  obtain ⟨_, rest⟩ := quiet.bind openScope_follows.grows fun _ =>
    Grows.bind (checkItems_follows items).grows fun _ => closeScope_follows.grows
  obtain ⟨inside, _⟩ := rest.bind (checkItems_follows items).grows fun _ => closeScope_follows.grows
  have sound := walked (openScope.outcome state).2 frame.opened inside
  rw [Stmt.walk, Stmt.slots]
  refine sound.mono (fun aligned => aligned.opened) ⟨le_refl _, ?_, le_refl _, le_refl _⟩
  exact (age_closeScope _).ge

theorem walked_var {decl : VarDecl} {rest : List BlockItem}
    (walked : Walked link global (checkItems rest) (walkItems env rest) (itemsSlots rest)) :
    Walked link global (checkItems (.var decl :: rest)) (walkItems env (.var decl :: rest))
      (itemsSlots (.var decl :: rest)) := by
  intro state frame quiet
  rw [checkItems] at quiet ⊢
  obtain ⟨declared, others⟩ := quiet.bind (VarDecl.declare_follows decl .localVar).grows fun _ =>
    (checkItems_follows rest).grows
  obtain ⟨named, names⟩ := declared.bind ((namedValueType_clears decl.type).grows ·.toNotes) fun type =>
    (declareNames_follows type .localVar decl.span decl.names).grows
  have point : (here state frame [.written decl.type]).Sound link global
      (Aligned link global state.table frame.scopes) state.age 0 frame.locals.length 0 :=
    sound_here id (named.resolves (clears_note fun _ => namedValueType_clears decl.type))
  rw [walkItems, itemsSlots]
  cases env.writtenType decl.type with
  | error cause =>
    have ended : ({} : Walk).Sound link global (Aligned link global state.table frame.scopes) state.age 0
      frame.locals.length 0 := sound_nil
    exact point.append ended (.inl (Nat.zero_le _)) (Nat.zero_le _) (by omega)
  | ok tag =>
    let typed := (note (·.namedValueType decl.type)).outcome state
    have same := decl.checkSteps_steps env typed.1 tag
    have run : (decl.declare .localVar).outcome state =
        (checkSteps (decl.steps env typed.1 tag)).outcome typed.2 := by
      rw [same]
      exact Checking.outcome_bind _ _ state
    rw [run] at others
    rw [Checking.outcome_bind, run]
    have sound : (declaring (decl.steps env typed.1 tag) typed.2 frame (walkItems env rest)).Sound
        link global (Aligned link global typed.2.table frame.scopes) typed.2.age
        ((checkItems rest).outcome ((checkSteps (decl.steps env typed.1 tag)).outcome typed.2).2).2.age
        frame.locals.length
        (frame.locals.length + ((decl.steps env typed.1 tag).length + itemsSlots rest)) :=
      sound_declaring (decl.steps_declare env typed.1 tag) (by rw [same]; exact names)
        (fun after _ => walked _ after others) (checkItems_grown _ rest).age_le
    have length : (decl.steps env typed.1 tag).length = decl.names.length := List.length_map _
    rw [length] at sound
    exact point.append sound (.inl (Nat.zero_le _)) (Nat.zero_le _)
      ⟨le_refl _, le_refl _, Nat.zero_le _, le_refl _, le_refl _, le_refl _, Nat.zero_le _, le_refl _⟩

end Parts

section Statements

variable {env : Env} {link : Nat → Nat → Prop} {global : SymbolTable}

mutual

theorem Stmt.walked : ∀ stmt : Stmt, Walked link global stmt.check (stmt.walk env) stmt.slots
  | .assign target value span => fun state frame quiet =>
    sound_here id (quiet.resolves (checkAssign_clears target value span))
  | .call callee args span => fun state frame quiet => by
    have quiet : (note fun table => callee.checkCall table args span).Quiet state := quiet
    exact sound_here id (quiet.resolves (clears_note fun _ => callee.checkCall_clears args span))
  | .increment target span | .decrement target span | .read target span => fun state frame quiet =>
    sound_here id (quiet.resolves (checkTarget_clears target _ _ span))
  | .write value width span => fun state frame quiet =>
    sound_here id (quiet.resolves (checkWrite_clears value width span))
  | .returnStmt (some value) span => fun state frame quiet =>
    sound_here id (quiet.resolves (checkResult_clears value span))
  | .returnStmt none _ | .breakStmt _ | .empty _ => fun state frame quiet => sound_nil
  | .branch cond onTrue onFalse span => walked_branch onTrue.walked (walked_option onFalse)
  | .whileLoop cond body span => walked_while body.walked
  | .forLoop init cond update body span =>
    walked_for (walked_option init) (walked_option update) body.walked
  | .switch selector cases default span =>
    walked_switch (fun type => walked_cases type cases []) (walked_default default)
  | .block ⟨items, _⟩ => walked_block (walked_items items)

theorem walked_option : ∀ stmt : Option Stmt,
    Walked link global (checkOption stmt) (walkOption env stmt) (optionSlots stmt)
  | none => fun _ _ _ => sound_nil
  | some stmt => stmt.walked

theorem walked_stmts : ∀ stmts : List Stmt,
    Walked link global (checkStmts stmts) (walkStmts env stmts) (stmtsSlots stmts)
  | [] => fun _ _ _ => sound_nil
  | stmt :: rest => (stmt.passes stmt.walked).then (checkStmts_follows rest).grows
    (fun state => (checkStmts_kept state rest).grown) (walked_stmts rest)

theorem walked_cases (selector : Tag) : ∀ (cases : List SwitchCase) (seen : List Literal),
    Walked link global (checkCases selector seen cases) (walkCases env selector seen cases)
      (casesSlots cases)
  | [], _ => fun _ _ _ => sound_nil
  | ⟨label, body, span⟩ :: rest, seen => fun state frame quiet => by
    have both := (passes_stmts body (walked_stmts body)).then
      (checkCases_follows selector (label :: seen) rest).grows
      (fun state => (checkCases_kept state selector (label :: seen) rest).grown)
      (walked_cases selector rest (label :: seen))
    rw [checkCases] at quiet ⊢
    obtain ⟨_, quiet⟩ := quiet.bind (checkLabel_follows selector seen label span).grows fun _ =>
      Grows.bind (checkStmts_follows body).grows fun _ =>
        (checkCases_follows selector (label :: seen) rest).grows
    exact both ((checkLabel selector seen label span).outcome state).2 frame quiet

theorem walked_default : ∀ default : Option DefaultCase,
    Walked link global (checkDefault default) (walkDefault env default) (defaultSlots default)
  | none => fun _ _ _ => sound_nil
  | some ⟨body, _⟩ => walked_stmts body

theorem walked_items : ∀ items : List BlockItem,
    Walked link global (checkItems items) (walkItems env items) (itemsSlots items)
  | [] => fun _ _ _ => sound_nil
  | .stmt stmt :: rest => (stmt.passes stmt.walked).then (checkItems_follows rest).grows
    (fun state => checkItems_grown state rest) (walked_items rest)
  | .var _ :: rest => walked_var (walked_items rest)

end

end Statements

end StackCode
