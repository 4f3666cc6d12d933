import StackCode.Proofs.Evaluation.Calls
import StackCode.Proofs.Evaluation.Values
import StackCode.Proofs.Generation.Methods
import StackCode.Proofs.Tree.Below

namespace StackCode

open Code Emit Platform

variable {program : Program} {table : SymbolTable} {annotations : Annotations} {entry : String}
  {built : Module}

theorem Program.Declared.gives (declared : program.Declared table)
    (generated : program.generate table annotations entry = .ok built) {name : String}
    {tag result : Tag} {params : List Tag}
    (meant : table.sight.meaning? name = some ⟨tag, .method result params⟩)
    (valued : result ≠ .void) : built.gives name = true := by
  obtain ⟨method, found, typed, _⟩ := declared.method? generated meant
  have returned := ((declared.sane.method name tag result params meant).1).resolve_left valued
  obtain ⟨type, typed', notVoid⟩ : ∃ type,
      (program.env table annotations).type result = .ok type ∧ type ≠ .void :=
    Env.type_of_valued returned
  obtain rfl := Except.ok.inj (typed'.symm.trans typed)
  rw [Module.gives, found, Option.any_some, bne_iff_ne]
  exact notVoid

theorem Program.Declared.node_gives (declared : program.Declared table)
    (generated : program.generate table annotations entry = .ok built) {node : Node}
    (called : node.Called table.sight) : node.Gives (program.env table annotations) built := by
  cases node with
  | factor value =>
    obtain ⟨id, kind, span⟩ := value
    cases kind with
    | call callee args =>
      intro target found
      replace called : (table.sight.callee callee).Gives := called
      unfold Sight.callee at called
      split at called
      · cases called
      · rcases Env.target_cases found with ⟨op, known, _, rfl⟩ | ⟨other, result, rfl⟩
        · rw [known] at called
          exact called
        · rw [other] at called
          dsimp only at called
          split at called
          · cases called
          · exact declared.gives generated ‹_› called
          · cases called
    | _ => trivial
  | _ => trivial

theorem Program.Accepted.simple {facts : Facts} (accepted : program.Accepted table facts)
    (generated : program.generate table annotations entry = .ok built) {node : Node}
    (member : node ∈ program.nodes) (straight : node.below.all Node.isStraight = true) :
    Simple (program.env table annotations) built node.below := by
  intro other among
  obtain ⟨occurrence, listed, rfl⟩ := List.mem_map.mp (program.closed node member among)
  exact ⟨List.all_eq_true.mp straight _ among,
    accepted.toDeclared.node_gives generated (accepted.called occurrence listed)⟩

structure Program.Computes (program : Program) (env : Env) (built : Module) (P : Platform) : Prop where
  expr : ∀ e, Node.expr e ∈ program.nodes → e.nodes.all Node.isStraight = true →
    ∀ before code after, (e.emit env).Yields before code after →
      P.Gives built code (e.eval P env (env.homes before))
  fact : ∀ fact, Node.fact fact ∈ program.nodes → fact.nodes.all Node.isStraight = true →
    ∀ before code after, (fact.emit env).Yields before code after →
      P.Gives built code (fact.eval P env (env.homes before))
  condition : ∀ cond, Node.condition cond ∈ program.nodes → cond.nodes.all Node.isStraight = true →
    cond.terms ≠ [] → (∀ term ∈ cond.terms, term.facts ≠ []) →
    ∀ before code after, (cond.emit env).Yields before code after →
      P.Gives built code (cond.eval P env (env.homes before))

theorem Platform.joined_truth (P : Platform) (a b : Bool) :
    P.joined (· &&& ·) (.truth a) (.truth b) = some (.truth (a && b)) ∧
      P.joined (· ||| ·) (.truth a) (.truth b) = some (.truth (a || b)) := by
  cases a <;> cases b <;> exact ⟨rfl, rfl⟩

/-- The values of expressions and conditions, for the types that the typing rules give, are those
that their code puts onto the stack. -/
theorem Program.code_computes_values {program : Program} {entry : String} {built : Module}
    (numbered : program.IsNumbered) (accepted : (program.check entry).errors = #[])
    (known : (program.check entry).unknownUses = 0)
    (generated : program.generate (program.check entry).table (program.check entry).annotations
      entry = .ok built) :
    program.Accepted (program.check entry).table
        (program.env (program.check entry).table (program.check entry).annotations).facts ∧
      ∀ P : Platform, program.Computes
          (program.env (program.check entry).table (program.check entry).annotations) built P ∧
        ∀ a b : Bool, P.joined (· &&& ·) (.truth a) (.truth b) = some (.truth (a && b)) ∧
          P.joined (· ||| ·) (.truth a) (.truth b) = some (.truth (a || b)) := by
  have quiet : (program.check entry).tally = 0 := by
    rw [Notes.tally, accepted, known]
    rfl
  have typed := Program.accepted_of_quiet numbered quiet
  refine ⟨typed, fun P => ⟨⟨?_, ?_, ?_⟩, P.joined_truth⟩⟩
  · intro e member straight before code after emitted
    exact e.emit_gives rfl emitted (typed.simple generated member straight)
  · intro fact member straight before code after emitted
    exact CondFact.emit_gives rfl emitted (typed.simple generated member straight)
  · intro cond member straight nonempty formed before code after emitted
    exact Condition.emit_gives rfl nonempty formed emitted (typed.simple generated member straight)

theorem totals_code_computes : ∃ built, Sample.totals.IsNumbered ∧
    (Sample.totals.check "Main").errors = #[] ∧ (Sample.totals.check "Main").unknownUses = 0 ∧
    Sample.totals.generate (Sample.totals.check "Main").table
      (Sample.totals.check "Main").annotations "Main" = .ok built ∧
    Sample.totals.Accepted (Sample.totals.check "Main").table (Sample.totals.env
      (Sample.totals.check "Main").table (Sample.totals.check "Main").annotations).facts ∧
    ∀ P : Platform, Sample.totals.Computes (Sample.totals.env (Sample.totals.check "Main").table
      (Sample.totals.check "Main").annotations) built P := by
  obtain ⟨numbered, accepted, known⟩ := Sample.totals_accepted
  obtain ⟨_, built, generated⟩ := Sample.totals_generated
  obtain ⟨typed, computes⟩ := Program.code_computes_values numbered accepted known generated
  exact ⟨built, numbered, accepted, known, generated, typed, fun P => (computes P).1⟩

end StackCode
