import StackCode.Proofs.Strict.Names

namespace StackCode

open Noting

/-- The result and the parameters of a method that is called are known. -/
def Callee.IsKnown : Callee → Prop
  | .method result params => result.isKnown = true ∧ ∀ param ∈ params, param.isKnown = true
  | _ => True

theorem SymbolTable.Known.isKnown_callee {table : SymbolTable} (known : table.Known)
    (callee : Designator) : (table.callee callee).IsKnown := by
  cases called : table.callee callee with
  | method result params => exact known.callee called
  | intrinsic op => trivial
  | undeclared => trivial
  | notCallable => trivial

theorem Intrinsic.isProper_result (op : Intrinsic) : op.result.isProper = true := by
  cases op <;> rfl

variable {op : Intrinsic}

section Calls

variable {table : SymbolTable} {start : Nat} {pre : Prop}

theorem checkListArgument_follows {list : Argument} {span : Span} {more : Noting Unit} {rule : Bool}
    {R : Unit → Unit → Prop} (clear : pre → list.excused = false)
    (rest : more.Follows start pre (Strict.require rule) R) :
    (checkListArgument op list span more).Follows start pre
      (Strict.require (list.type.isList && rule)) R := by
  unfold checkListArgument
  cases excused : list.excused with
  | true =>
    rw [Bool.or_true]
    exact follows_never rest.grows fun holds => absurd excused (by simp [clear holds])
  | false =>
    rw [Bool.or_false]
    cases list.type.isList with
    | true => exact rest
    | false => exact follows_refuse (complains_mismatch _ _)

theorem Intrinsic.checkArguments_follows (span : Span) (op : Intrinsic) (arguments : List Argument)
    (arity : arguments.length = op.arity)
    (clear : pre → ∀ argument ∈ arguments, argument.excused = false) :
    (op.checkArguments table span arguments).Follows start pre
      (Strict.require (op.takes table (arguments.map (·.type)))) fun a b => a = b ∧ True := by
  cases op with
  | len =>
    obtain ⟨list, rfl⟩ := List.length_eq_one_iff.mp arity
    have takes : Intrinsic.len.takes table [list.type] = (list.type.isList && true) :=
      (Bool.and_true _).symm
    rw [List.map_singleton, takes]
    exact checkListArgument_follows (fun holds => clear holds list (by simp))
      (follows_return () fun _ => trivial)
  | add =>
    obtain ⟨list, value, rfl⟩ := List.length_eq_two.mp arity
    refine checkListArgument_follows (fun holds => clear holds list (by simp))
      ((follows_guard (complains_mismatch _ _) fun holds => ?_).mono fun _ _ _ found => ⟨found.1, trivial⟩)
    simp [clear holds list (by simp), clear holds value (by simp)]
  | del =>
    obtain ⟨list, index, rfl⟩ := List.length_eq_two.mp arity
    refine checkListArgument_follows (fun holds => clear holds list (by simp))
      ((follows_guard (complains_mismatch _ _) fun holds => ?_).mono fun _ _ _ found => ⟨found.1, trivial⟩)
    simp [clear holds index (by simp)]
  | ord | chr =>
    obtain ⟨value, rfl⟩ := List.length_eq_one_iff.mp arity
    refine (follows_guard (complains_mismatch _ _) fun holds => ?_).mono fun _ _ _ found => ⟨found.1, trivial⟩
    simp [clear holds value (by simp), Intrinsic.takes]

theorem checkParams_follows (name : String) (span : Span) (position : Nat) (params : List Tag)
    (arguments : List Argument) (arity : params.length = arguments.length)
    (clear : pre → ∀ argument ∈ arguments, argument.excused = false)
    (real : pre → ∀ param ∈ params, param.isKnown = true) :
    (checkParams table name span position params arguments).Follows start pre
      (Strict.require (table.passes params (arguments.map (·.type)))) fun a b => a = b ∧ True := by
  induction params generalizing position arguments pre with
  | nil =>
    cases List.eq_nil_of_length_eq_zero arity.symm
    exact follows_return () fun _ => trivial
  | cons param params ih =>
    cases arguments with
    | nil => cases arity
    | cons argument arguments =>
      rw [checkParams, List.map_cons, SymbolTable.passes, require_and]
      refine follows_require (complains_mismatch _ _) (fun holds => ?_)
        (ih (position + 1) arguments (Nat.succ.inj arity)
          (fun holds => (List.forall_mem_cons.mp (clear holds.1)).2)
          fun holds => (List.forall_mem_cons.mp (real holds.1)).2)
      have clear := (List.forall_mem_cons.mp (clear holds)).1
      have real := Tag.isUnknown_of_isKnown (List.forall_mem_cons.mp (real holds)).1
      simp [clear, real]

theorem Intrinsic.takes_length {types : List Tag} (takes : op.takes table types = true) :
    types.length = op.arity := by
  unfold Intrinsic.takes at takes
  split at takes
  all_goals first | rfl | cases takes

theorem SymbolTable.passes_length {params types : List Tag} (fit : table.passes params types = true) :
    params.length = types.length := by
  induction params generalizing types with
  | nil =>
    cases types with
    | nil => rfl
    | cons type types => cases fit
  | cons param params ih =>
    cases types with
    | nil => cases fit
    | cons type types =>
      rw [passes, Bool.and_eq_true] at fit
      rw [List.length_cons, List.length_cons, ih fit.2]


theorem Callee.check_follows (name : String) (span : Span) (arguments : List Argument)
    (callee : Callee) (clear : pre → ∀ argument ∈ arguments, argument.excused = false)
    (real : pre → callee.IsKnown) :
    (callee.check table name span arguments).Follows start pre
      (callee.strict table (arguments.map (·.type))) SameProper := by
  cases callee with
  | intrinsic op =>
    unfold Callee.check Callee.strict
    dsimp only
    by_cases arity : arguments.length = op.arity
    · rw [if_neg (by simpa using arity)]
      exact (op.checkArguments_follows span arguments arity clear).bind_same fun _ =>
        follows_return _ fun _ => op.isProper_result
    · rw [if_pos (by simpa using arity)]
      have refused : op.takes table (arguments.map (·.type)) = false := by
        refine Bool.eq_false_iff.mpr fun takes => arity ?_
        rw [← Intrinsic.takes_length takes, List.length_map]
      rw [refused]
      exact follows_refuse ((complains_report _ _).bind_pure _)
  | method result params =>
    unfold Callee.check Callee.strict
    dsimp only
    by_cases arity : params.length = arguments.length
    · rw [if_neg (by simpa using arity)]
      exact (checkParams_follows name span 1 params arguments arity clear
        fun holds => (real holds).2).bind_same fun _ =>
          follows_return _ fun holds => Tag.isProper_of_isKnown (real holds.1).1
    · rw [if_pos (by simpa using arity)]
      have refused : table.passes params (arguments.map (·.type)) = false := by
        refine Bool.eq_false_iff.mpr fun fit => arity ?_
        rw [SymbolTable.passes_length fit, List.length_map]
      rw [refused]
      exact follows_refuse ((complains_report _ _).bind_pure _)
  | undeclared | notCallable => exact follows_refuse ((complains_report _ _).bind_pure _)

end Calls

def Expectation.IsProper : Expectation → Prop
  | .each types => ∀ type ∈ types, type.isProper = true
  | .element => True

namespace Expectation

variable {expectation : Expectation}

theorem IsProper.head (proper : expectation.IsProper) : expectation.head.isProper = true := by
  match expectation, proper with
  | .each (type :: _), proper => exact proper type (by simp)
  | .each [], _ => rfl
  | .element, _ => rfl

theorem IsProper.next (proper : expectation.IsProper) {found : Tag} (found_proper : found.isProper = true) :
    (expectation.next found).IsProper := by
  match expectation, proper with
  | .each types, proper => exact fun type member => proper type (List.mem_of_mem_tail member)
  | .element, _ =>
    intro type member
    rw [List.mem_singleton.mp member]
    exact Tag.isProper_element found_proper

end Expectation

variable {callee : Callee}

theorem Callee.IsKnown.isProper (known : callee.IsKnown) : callee.expectation.IsProper := by
  match callee, known with
  | .intrinsic .add, _ => trivial
  | .intrinsic .len, _ | .intrinsic .del, _ | .intrinsic .ord, _ | .intrinsic .chr, _ => exact nofun
  | .method _ _, known => exact fun param member => Tag.isProper_of_isKnown (known.2 param member)
  | .undeclared, _ | .notCallable, _ => exact nofun

/-- An argument of unknown type stands where no type is expected, and up to there nothing is
excused. -/
def Stray : Expectation → List Argument → Prop
  | _, [] => False
  | expectation, argument :: rest => argument.excused = false ∧ argument.type.isProper = true ∧
    ((expectation.head = .unknown ∧ argument.type = .unknown) ∨
      Stray (expectation.next argument.type) rest)

theorem Stray.single {expectation : Expectation} {argument : Argument}
    (stray : Stray expectation [argument]) :
    argument.excused = false ∧ expectation.head = .unknown ∧ argument.type = .unknown := by
  obtain ⟨clear, _, found | none⟩ := stray
  · exact ⟨clear, found⟩
  · exact none.elim

theorem Stray.length {params : List Tag} {arguments : List Argument}
    (stray : Stray (.each params) arguments) (known : ∀ param ∈ params, param.isKnown = true) :
    params.length < arguments.length := by
  induction params generalizing arguments with
  | nil =>
    cases arguments with
    | nil => exact stray.elim
    | cons argument rest => exact Nat.succ_pos _
  | cons param params ih =>
    cases arguments with
    | nil => exact stray.elim
    | cons argument rest =>
      rw [List.forall_mem_cons] at known
      obtain ⟨_, _, ⟨unknown, _⟩ | stray⟩ := stray
      · have unknown : param = .unknown := unknown
        exact absurd known.1 (by rw [unknown]; decide)
      · exact Nat.succ_lt_succ (ih stray known.2)

section Stray

variable {table : SymbolTable}

theorem checkListArgument_complains {list : Argument} {span : Span} {more : Noting Unit}
    (clear : list.excused = false) (wrong : list.type.isList = true → more.Complains) :
    (checkListArgument op list span more).Complains := by
  unfold checkListArgument
  rw [clear, Bool.or_false]
  by_cases isList : list.type.isList = true
  · rw [if_pos isList]
    exact wrong isList
  · rw [if_neg isList]
    exact complains_mismatch _ _

theorem Intrinsic.checkArguments_complains {arguments : List Argument} (span : Span)
    (arity : arguments.length = op.arity) (stray : Stray (Callee.intrinsic op).expectation arguments) :
    (op.checkArguments table span arguments).Complains := by
  cases op with
  | len =>
    obtain ⟨list, rfl⟩ := List.length_eq_one_iff.mp arity
    obtain ⟨clear, _, unknown⟩ := stray.single
    exact checkListArgument_complains clear fun isList => absurd isList (by rw [unknown]; decide)
  | add =>
    obtain ⟨list, value, rfl⟩ := List.length_eq_two.mp arity
    obtain ⟨clear, proper, ⟨_, unknown⟩ | stray⟩ := stray
    · exact checkListArgument_complains clear fun isList => absurd isList (by rw [unknown]; decide)
    · -- The element of a list that is known is known too.
      refine checkListArgument_complains clear fun isList => ?_
      have known : list.type ≠ .unknown := by
        intro unknown
        exact absurd isList (by rw [unknown]; decide)
      have element := Tag.isKnown_element (Tag.isKnown_of_isProper proper known) isList
      have unknown : list.type.element = .unknown := stray.single.2.1
      exact absurd element (by rw [unknown]; decide)
  | del =>
    obtain ⟨list, index, rfl⟩ := List.length_eq_two.mp arity
    obtain ⟨clear, proper, ⟨_, unknown⟩ | stray⟩ := stray
    · exact checkListArgument_complains clear fun isList => absurd isList (by rw [unknown]; decide)
    · obtain ⟨excused, _, unknown⟩ := stray.single
      refine checkListArgument_complains clear fun _ => ?_
      rw [if_pos (by simp [excused, unknown]; decide)]
      exact complains_mismatch _ _
  | ord | chr =>
    obtain ⟨value, rfl⟩ := List.length_eq_one_iff.mp arity
    obtain ⟨clear, _, unknown⟩ := stray.single
    rw [Intrinsic.checkArguments, if_pos (by simp [clear, unknown]; decide)]
    exact complains_mismatch _ _

theorem Callee.check_complains (known : callee.IsKnown) {arguments : List Argument}
    (stray : Stray callee.expectation arguments) (name : String) (span : Span) :
    (callee.check table name span arguments).Complains := by
  cases callee with
  | intrinsic op =>
    unfold Callee.check
    dsimp only
    by_cases arity : arguments.length = op.arity
    · rw [if_neg (by simpa using arity)]
      exact (op.checkArguments_complains span arity stray).bind_pure _
    · rw [if_pos (by simpa using arity)]
      exact (complains_report _ _).bind_pure _
  | method result params =>
    unfold Callee.check
    have longer := Stray.length stray known.2
    dsimp only
    rw [if_pos (by simpa using longer.ne)]
    exact (complains_report _ _).bind_pure _
  | undeclared | notCallable => exact (complains_report _ _).bind_pure _

end Stray

namespace Noting

/-- Checking arguments follows a strict check of them, except that something may only have gone
astray where that finds a rule broken. -/
structure Passes (f : Noting (List Argument)) (start : Nat) (pre : Prop) (expectation : Expectation)
    (g : Strict (List Tag)) : Prop where
  grows : ∀ notes, notes.errors.size ≤ (f.outcome notes).2.errors.size
  accepted : pre → ∀ notes, notes.tally = start → ∀ types annotations,
    g.run notes.annotations = some (types, annotations) →
      ∃ arguments, f.outcome notes = (arguments, { notes with annotations }) ∧
        arguments.map (·.type) = types ∧ ∀ argument ∈ arguments, argument.excused = false
  refused : pre → ∀ notes, notes.tally = start → g.run notes.annotations = none →
    notes.errors.size < (f.outcome notes).2.errors.size ∨ Stray expectation (f.outcome notes).1

variable {start : Nat} {pre : Prop} {expectation : Expectation}

theorem passes_nil : (pure [] : Noting (List Argument)).Passes start pre expectation (pure []) where
  grows _ := le_refl _
  accepted _ notes _ types annotations runs := by
    cases runs
    exact ⟨[], rfl, rfl, nofun⟩
  refused _ _ _ runs := by cases runs

section Cons

variable {first : Noting Tag} {first' : Strict Tag} {more : Tag → Noting (List Argument)}
  {more' : Tag → Strict (List Tag)} (span : Span)

def argument (first : Noting Tag) (more : Tag → Noting (List Argument)) (span : Span) :
    Noting (List Argument) := do
  let start ← tally
  let type ← first
  let silent ← excused start [type]
  return ⟨type, silent, span⟩ :: (← more type)

theorem outcome_argument (notes : Notes) : (argument first more span).outcome notes =
    (⟨(first.outcome notes).1, decide (notes.tally < (first.outcome notes).2.tally) &&
        [(first.outcome notes).1].any Tag.isUnknown, span⟩ ::
      ((more (first.outcome notes).1).outcome (first.outcome notes).2).1,
      ((more (first.outcome notes).1).outcome (first.outcome notes).2).2) := rfl

theorem run_map_cons {g : Strict (List Tag)} {type : Tag} {annotations : Annotations}
    (refused : (do return type :: (← g) : Strict (List Tag)).run annotations = none) :
    g.run annotations = none := by
  rw [StateT.run_bind] at refused
  cases ran : g.run annotations with
  | none => rfl
  | some result =>
    rw [ran] at refused
    cases refused

theorem Passes.argument (follows : first.Follows start pre first' SameProper)
    (passes : ∀ type, (more type).Passes start (pre ∧ type.isProper = true) (expectation.next type)
      (more' type)) :
    (Noting.argument first more span).Passes start pre expectation
      (do let type ← first'; return type :: (← more' type)) := by
  have found : ∀ notes, notes.tally = start → ∀ type between,
      first.outcome notes = (type, { notes with annotations := between }) →
      (Noting.argument first more span).outcome notes =
        (⟨type, false, span⟩ :: ((more type).outcome { notes with annotations := between }).1,
          ((more type).outcome { notes with annotations := between }).2) := by
    intro notes same type between done
    rw [outcome_argument, done]
    simp [Notes.tally]
  refine ⟨fun notes => ?_, fun holds notes same types annotations runs => ?_,
    fun holds notes same runs => ?_⟩
  · exact (follows.grows notes).trans ((passes _).grows _)
  · rw [StateT.run_bind] at runs
    obtain ⟨⟨type, between⟩, ran, runs⟩ := Option.bind_eq_some_iff.mp runs
    obtain ⟨_, done, rfl, proper⟩ := follows.accepted holds notes same type between ran
    rw [StateT.run_bind] at runs
    obtain ⟨⟨rest, after⟩, ran, runs⟩ := Option.bind_eq_some_iff.mp runs
    obtain ⟨arguments, others, rfl, clear⟩ :=
      (passes _).accepted ⟨holds, proper⟩ { notes with annotations := between } same rest after ran
    cases runs
    rw [found notes same _ _ done, others]
    exact ⟨_, rfl, rfl, List.forall_mem_cons.mpr ⟨rfl, clear⟩⟩
  · rw [StateT.run_bind] at runs
    cases ran : first'.run notes.annotations with
    | none => exact .inl ((follows.refused holds notes same ran).trans_le ((passes _).grows _))
    | some result =>
      obtain ⟨type, between⟩ := result
      rw [ran] at runs
      obtain ⟨_, done, rfl, proper⟩ := follows.accepted holds notes same type between ran
      rw [found notes same _ _ done]
      rcases (passes _).refused ⟨holds, proper⟩ { notes with annotations := between } same
          (run_map_cons runs) with
        reported | stray
      · exact .inl reported
      · exact .inr ⟨rfl, proper, .inr stray⟩

theorem Passes.stray_argument {arg : Expr} (unexpected : expectation.head = .unknown)
    (refused : ∀ annotations, first'.run annotations = none)
    (passes : ∀ type, (more type).Passes start (pre ∧ type.isProper = true) (expectation.next type)
      (more' type)) :
    (Noting.argument (arg.adopt .unknown) more span).Passes start pre expectation
      (do let type ← first'; return type :: (← more' type)) := by
  have adopts : (arg.adopt .unknown).Follows start pre (arg.strictAdopt .unknown) SameProper :=
    arg.adopt_follows fun _ => rfl
  refine ⟨fun notes => (adopts.grows notes).trans ((passes _).grows _), fun _ notes _ _ _ runs => ?_,
    fun _ notes _ _ => .inr ⟨?_, rfl, .inl ⟨unexpected, rfl⟩⟩⟩
  · rw [StateT.run_bind, refused] at runs
    cases runs
  · simp [Notes.tally]

end Cons

end Noting

theorem Callee.takes_follows (table : SymbolTable) {start : Nat} {pre : Prop}
    {arguments : Noting (List Argument)} {types : Strict (List Tag)} (known : pre → callee.IsKnown)
    (passes : arguments.Passes start pre callee.expectation types) (name : String) (span : Span) :
    (arguments >>= fun arguments => callee.check table name span arguments).Follows start pre
      (types >>= fun types => callee.strict table types) SameProper := by
  refine ⟨fun notes => ?_, fun holds notes same result annotations runs => ?_,
    fun holds notes same runs => ?_⟩
  · have called : (callee.check table name span (arguments.outcome notes).1).Follows start False _ _ :=
      Callee.check_follows name span _ callee nofun nofun
    exact (passes.grows notes).trans (called.grows _)
  · rw [StateT.run_bind] at runs
    obtain ⟨⟨_, between⟩, ran, runs⟩ := Option.bind_eq_some_iff.mp runs
    obtain ⟨arguments, done, rfl, clear⟩ := passes.accepted holds notes same _ between ran
    rw [outcome_bind, done]
    exact (Callee.check_follows name span arguments callee (fun _ => clear) known).accepted holds
      { notes with annotations := between } same result annotations runs
  · have called : (callee.check table name span (arguments.outcome notes).1).Follows start False _ _ :=
      Callee.check_follows name span _ callee nofun nofun
    rw [StateT.run_bind] at runs
    rw [outcome_bind]
    cases ran : types.run notes.annotations with
    | none =>
      rcases passes.refused holds notes same ran with reported | stray
      · exact reported.trans_le (called.grows _)
      · exact (passes.grows notes).trans_lt (Callee.check_complains (known holds) stray name span _)
    | some found =>
      obtain ⟨_, between⟩ := found
      rw [ran] at runs
      obtain ⟨arguments, done, rfl, clear⟩ := passes.accepted holds notes same _ between ran
      rw [done]
      exact (Callee.check_follows name span arguments callee (fun _ => clear) known).refused holds
        { notes with annotations := between } same runs

theorem Callee.use_follows {start : Nat} {pre : Prop} (known : pre → callee.IsKnown) :
    callee.use.Follows start pre (pure ()) fun a b => a = b ∧ True := by
  cases callee with
  | method result params =>
    have used : (asDeclared result).Follows start pre (pure result) SameKnown :=
      asDeclared_follows result fun holds => (known holds).1
    refine ⟨used.grows, fun holds notes same b annotations runs => ?_, fun _ _ _ runs => nomatch runs⟩
    cases runs
    obtain ⟨_, done, _⟩ := used.accepted holds notes same result notes.annotations rfl
    exact ⟨(), congrArg (fun outcome => ((), outcome.2)) done, rfl, trivial⟩
  | intrinsic | undeclared | notCallable => exact follows_return () fun _ => trivial

theorem Callee.call_follows {table : SymbolTable} {start : Nat} {pre : Prop}
    {arguments : Noting (List Argument)} {types : Strict (List Tag)} (known : pre → callee.IsKnown)
    (passes : arguments.Passes start pre callee.expectation types) (name : String) (span : Span) :
    (do
      callee.use
      callee.check table name span (← arguments)).Follows start pre
      (types >>= fun types => callee.strict table types) SameProper := by
  have called := (Callee.use_follows known).bind_same fun _ : Unit =>
    (Callee.takes_follows table known passes name span).of_pre And.left
  rwa [pure_bind] at called

end StackCode
