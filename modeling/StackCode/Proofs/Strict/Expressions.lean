import StackCode.Proofs.Strict.Calls

namespace StackCode

open Noting

theorem Expr.strict_isBareList {e : Expr} (bare : e.isBareList = true) (table : SymbolTable)
    (annotations : Annotations) : (e.strict table).run annotations = none := by
  obtain ⟨id, neg, cast, ⟨termId, ⟨factorId, kind, factorSpan⟩, product, termSpan⟩, sum, span⟩ := e
  unfold Expr.isBareList at bare
  split at bare
  · simp_all only
    rfl
  · cases bare

section

variable {table : SymbolTable} {start : Nat}

mutual

theorem Expr.check_follows {pre : Prop} (known : pre → table.Known) : ∀ e : Expr,
    (e.check table).Follows start pre (e.strict table) SameProper
  | ⟨id, neg, cast, head, tail, span⟩ => by
    have rest : ∀ n type, (do
        let type ← checkCast table n type span cast
        let type ← checkSign n neg type span
        let type ← checkSum table n span type tail
        record id type
        return type).Follows start ((pre ∧ n = start) ∧ type.isProper = true) (do
        let type ← strictCast table type cast
        let type ← strictSign neg type
        let type ← strictSum table type tail
        Strict.record id type
        return type) SameProper := fun n type =>
      (checkCast_follows (fun holds => known holds.1.1) (fun holds => holds.1.2) And.right span
        cast).bind_same fun type =>
      (checkSign_follows (fun holds => holds.1.1.2) neg And.right span).bind_same fun type =>
      (checkSum_follows (fun holds => known holds.1.1.1.1) (fun holds => holds.1.1.1.2) tail span type
        And.right).bind_same fun type =>
      (follows_record id type).bind_same fun _ => follows_return _ fun holds => holds.1.2
    rw [Expr.check, Expr.strict]
    cases isLeastInt neg cast head with
    | true =>
      exact follows_tally fun n => (follows_record _ _).bind_same fun _ =>
        (follows_record _ _).bind_same fun _ =>
        (rest n .int).of_pre fun holds => ⟨holds.1.1, rfl⟩
    | false =>
      exact follows_tally fun n =>
        (Term.check_follows (fun holds => known holds.1) head).bind_same (rest n)

theorem checkSum_follows {pre : Prop} {n : Nat} (known : pre → table.Known) (begin : pre → n = start) :
    ∀ (tail : List (AddOp × Term)) (span : Span) (type : Tag) (_ : pre → type.isProper = true),
    (checkSum table n span type tail).Follows start pre (strictSum table type tail) SameProper
  | [], _, type, proper => follows_return _ proper
  | (op, term) :: rest, span, type, proper => by
    rw [checkSum, strictSum]
    exact (Term.check_follows known term).bind_same fun right =>
      (checkArith_follows (fun holds => begin holds.1) op.symbol type right _).bind_same fun next =>
      checkSum_follows (fun holds => known holds.1.1) (fun holds => begin holds.1.1) rest span next And.right

theorem Term.check_follows {pre : Prop} (known : pre → table.Known) : ∀ term : Term,
    (term.check table).Follows start pre (term.strict table) SameProper
  | ⟨id, head, tail, span⟩ => by
    rw [Term.check, Term.strict]
    exact follows_tally fun n => (Factor.check_follows (fun holds => known holds.1) head).bind_same fun type =>
      (checkProduct_follows (fun holds => known holds.1.1) (fun holds => holds.1.2) tail span type
        And.right).bind_same fun type =>
      (follows_record id type).bind_same fun _ => follows_return _ fun holds => holds.1.2

theorem checkProduct_follows {pre : Prop} {n : Nat} (known : pre → table.Known)
    (begin : pre → n = start) :
    ∀ (tail : List (MulOp × Factor)) (span : Span) (type : Tag) (_ : pre → type.isProper = true),
    (checkProduct table n span type tail).Follows start pre (strictProduct table type tail) SameProper
  | [], _, type, proper => follows_return _ proper
  | (op, factor) :: rest, span, type, proper => by
    rw [checkProduct, strictProduct]
    exact (Factor.check_follows known factor).bind_same fun right =>
      (checkArith_follows (fun holds => begin holds.1) op.symbol type right _).bind_same fun next =>
      checkProduct_follows (fun holds => known holds.1.1) (fun holds => begin holds.1.1) rest span next
        And.right

theorem Factor.check_follows {pre : Prop} (known : pre → table.Known) : ∀ factor : Factor,
    (factor.check table).Follows start pre (factor.strict table) SameProper
  | ⟨id, kind, span⟩ => by
    rw [Factor.check, Factor.strict]
    exact (FactorKind.check_follows known kind span).bind_same fun type =>
      (follows_record id type).bind_same fun _ => follows_return _ fun holds => holds.1.2

theorem FactorKind.check_follows {pre : Prop} (known : pre → table.Known) :
    ∀ (kind : FactorKind) (span : Span),
    (kind.check table span).Follows start pre (kind.strict table) SameProper
  | .literal value, span =>
    (value.check_follows span).mono fun _ _ _ found => ⟨found.1, found.2 ▸ value.isProper_tag⟩
  | .designator target, _ =>
    (Designator.check_follows known target).mono fun _ _ _ found =>
      ⟨found.1, Tag.isProper_of_isKnown found.2⟩
  | .call callee args, span => by
    have real : pre → (table.callee callee).IsKnown := fun holds => (known holds).isKnown_callee callee
    have called : (do
        (table.callee callee).use
        (table.callee callee).check table callee.base.name (span.orElse callee.span)
          (← checkArguments table (table.callee callee).expectation args)).Follows start pre
        (strictArguments table (table.callee callee).expectation args >>= fun types =>
          (table.callee callee).strict table types) SameProper :=
      Callee.call_follows real
        (checkArguments_follows known args _ fun holds => (real holds).isProper) _ _
    have valued := called.bind_same fun result => checkValue_follows callee And.right span
    rw [FactorKind.check, FactorKind.strict]
    simpa only [bind_assoc] using valued
  | .newObject className, _ => checkNew_follows known className
  | .newArray elem sizes, _ => by
    rw [FactorKind.check, FactorKind.strict]
    exact (namedValueType_follows known elem).bind_same fun type =>
      (checkSizes_follows (fun holds => known holds.1) sizes).bind_same fun _ =>
      follows_return _ fun holds => Tag.isProper_foldl_listOf sizes (Tag.isProper_of_isKnown holds.1.2)
  | .paren inner, _ => Expr.check_follows known inner
  | .list elems, span => by
    rw [FactorKind.check, FactorKind.strict]
    refine follows_tally fun n =>
      (checkExprs_follows (fun holds => known holds.1) elems).bind fun types tags =>
      Follows.congr ?_ fun holds => congrArg strictList holds.2.1
    cases types with
    | nil => exact follows_refuse ((complains_mismatch _ _).bind_pure _)
    | cons first rest =>
      refine checkElements_follows (fun holds => holds.1.2) (fun holds => ?_) span rest
      exact holds.2.2 first.1 (holds.2.1 ▸ List.mem_cons_self)

theorem checkExprs_follows {pre : Prop} (known : pre → table.Known) : ∀ exprs : List Expr,
    (checkExprs table exprs).Follows start pre (strictExprs table exprs) fun types tags =>
      types.map Prod.fst = tags ∧ ∀ type ∈ tags, type.isProper = true
  | [] => follows_pure _ _ fun _ => ⟨rfl, nofun⟩
  | e :: rest => by
    rw [checkExprs, strictExprs]
    refine (Expr.check_follows known e).bind_same fun type =>
      (checkExprs_follows (fun holds => known holds.1) rest).bind fun types tags => follows_pure _ _ ?_
    rintro ⟨⟨_, proper⟩, rfl, others⟩
    exact ⟨rfl, List.forall_mem_cons.mpr ⟨proper, others⟩⟩

theorem checkSizes_follows {pre : Prop} (known : pre → table.Known) : ∀ sizes : List Expr,
    (checkSizes table sizes).Follows start pre (strictSizes table sizes) fun a b => a = b ∧ True
  | [] => follows_return _ fun _ => trivial
  | size :: rest => by
    rw [checkSizes, strictSizes]
    exact follows_demand (fun _ => Expr.check_follows (known ∘ And.left) size) fun _ _ _ =>
      checkSizes_follows (fun holds => known holds.1.1.1.1) rest

theorem checkArguments_follows {pre : Prop} (known : pre → table.Known) :
    ∀ (args : List Expr) (expectation : Expectation), (pre → expectation.IsProper) →
      (checkArguments table expectation args).Passes start pre expectation
        (strictArguments table expectation args)
  | [], _, _ => passes_nil
  | arg :: rest, expectation, proper => by
    have more : ∀ type, (checkArguments table (expectation.next type) rest).Passes start
        (pre ∧ type.isProper = true) (expectation.next type)
        (strictArguments table (expectation.next type) rest) := fun type =>
      checkArguments_follows (fun holds => known holds.1) rest (expectation.next type)
        fun holds => (proper holds.1).next holds.2
    rw [checkArguments, strictArguments]
    cases bare : arg.isBareList with
    | false =>
      simp only [Expr.adopts, bare, Bool.and_false]
      exact .argument arg.span (Expr.check_follows known arg) more
    | true =>
      by_cases list : expectation.head.isList = true
      · simp only [Expr.adopts, bare, list, Bool.true_or, Bool.and_true, if_true]
        exact .argument arg.span (arg.adopt_follows fun holds => (proper holds).head) more
      · by_cases unknown : expectation.head = .unknown
        · have adopts : arg.adopts expectation.head = true := by
            simp [Expr.adopts, bare, unknown, Tag.isUnknown]
          simp only [adopts, list, if_true, Bool.false_and]
          rw [unknown]
          exact .stray_argument arg.span unknown (arg.strict_isBareList bare table) more
        · have adopts : arg.adopts expectation.head = false := by
            simp [Expr.adopts, list, unknown, Tag.isUnknown]
          simp only [adopts, list, Bool.false_and]
          exact .argument arg.span (Expr.check_follows known arg) more

theorem Designator.check_follows {pre : Prop} (known : pre → table.Known) : ∀ target : Designator,
    (target.check table).Follows start pre (target.strict table) SameKnown
  | ⟨id, base, selectors, span⟩ => by
    rw [Designator.check, Designator.strict]
    exact (checkBase_follows known base).bind_same fun type =>
      (checkSelectors_follows (fun holds => known holds.1) selectors span type And.right).bind_same fun type =>
      (follows_record id type).bind_same fun _ => follows_return _ fun holds => holds.1.2

theorem checkSelectors_follows {pre : Prop} (known : pre → table.Known) :
    ∀ (selectors : List Selector) (span : Span) (type : Tag), (pre → type.isKnown = true) →
      (checkSelectors table span type selectors).Follows start pre
        (strictSelectors table type selectors) SameKnown
  | [], _, type, real => follows_return _ real
  | .field name :: rest, span, type, real => by
    rw [checkSelectors, strictSelectors]
    exact (checkField_follows known real name).bind_same fun next =>
      checkSelectors_follows (fun holds => known holds.1) rest span next And.right
  | .index value :: rest, span, type, real => by
    rw [checkSelectors, strictSelectors]
    exact follows_demand (fun _ => Expr.check_follows (known ∘ And.left) value) fun _ _ _ =>
      (checkElement_follows (fun holds => real holds.1.1.1.1) _).bind_same fun next =>
      checkSelectors_follows (fun holds => known holds.1.1.1.1.1) rest span next And.right

end

variable {pre : Prop} (known : pre → table.Known)

include known

theorem checkExpected_follows (e : Expr) {expected : Tag} (real : pre → expected.isKnown = true) :
    (checkExpected table e expected).Follows start pre (strictExpected table e expected) SameProper := by
  unfold checkExpected strictExpected
  have plain : expected.isUnknown = true → ¬ pre := fun unknown holds =>
    absurd unknown (by simp [Tag.isUnknown_of_isKnown (real holds)])
  cases unknown : expected.isUnknown with
  | false =>
    rw [Expr.adopts, unknown, Bool.or_false]
    cases expected.isList && e.isBareList with
    | true => exact e.adopt_follows fun holds => Tag.isProper_of_isKnown (real holds)
    | false => exact Expr.check_follows known e
  | true =>
    refine follows_never ?_ (plain unknown)
    cases e.adopts expected with
    | true => exact fun notes => le_refl _
    | false =>
      have follows : (e.check table).Follows start pre (e.strict table) SameProper :=
        Expr.check_follows known e
      exact follows.grows

theorem Designator.checkCall_follows (callee : Designator) (args : List Expr) (span : Span) :
    (callee.checkCall table args span).Follows start pre (callee.strictCall table args) SameProper := by
  have real : pre → (table.callee callee).IsKnown := fun holds => (known holds).isKnown_callee callee
  exact Callee.call_follows real
    (checkArguments_follows known args _ fun holds => (real holds).isProper) _ _

theorem Designator.checkWritten_follows (target : Designator) :
    (target.checkWritten table).Follows start pre (target.strictWritten table) SameKnown := by
  unfold Designator.checkWritten Designator.strictWritten
  exact (Designator.check_follows known target).bind_same fun type =>
    follows_require (complains_report _ _) (fun _ => by simp) (follows_return _ fun holds => holds.1.2)

theorem CondFact.check_follows (fact : CondFact) :
    (fact.check table).Follows start pre (fact.strict table) SameProper := by
  obtain ⟨id, kind, span⟩ := fact
  unfold CondFact.check CondFact.strict
  cases kind with
  | expr value =>
    exact (Expr.check_follows known value).bind_same fun type =>
      (follows_record id type).bind_same fun _ => follows_return _ fun holds => holds.1.2
  | relation left op right =>
    have truth : ∀ pre, (pure Tag.bool : Noting Tag).Follows start pre (pure Tag.bool) SameProper :=
      fun _ => follows_return _ fun _ => rfl
    refine follows_tally fun n => (Expr.check_follows (fun holds => known holds.1) left).bind_same fun l =>
      (Expr.check_follows (fun holds => known holds.1.1) right).bind_same fun r =>
      follows_excused (fun holds => holds.1.1.2) fun silent =>
      follows_require (complains_mismatch _ _) (fun holds => ?_)
        ((truth _).bind_same fun type => (follows_record id type).bind_same fun _ =>
          follows_return _ fun holds => holds.1.2)
    simp [holds.2]

theorem checkFacts_follows (span : Span) (facts : List CondFact) :
    (checkFacts table span facts).Follows start pre (strictFacts table facts) fun a b =>
      a = b ∧ True := by
  induction facts generalizing pre with
  | nil => exact follows_return _ fun _ => trivial
  | cons fact rest ih =>
    rw [checkFacts, strictFacts]
    exact follows_demand (fun _ => CondFact.check_follows (known ∘ And.left) fact)
      fun _ _ _ => ih fun holds => known holds.1.1.1.1

theorem checkCondTerms_follows (span : Span) (terms : List CondTerm) :
    (checkCondTerms table span terms).Follows start pre (strictCondTerms table terms) fun a b =>
      a = b ∧ True := by
  induction terms generalizing pre with
  | nil => exact follows_return _ fun _ => trivial
  | cons term rest ih =>
    rw [checkCondTerms, strictCondTerms]
    exact (checkFacts_follows known span term.facts).bind_same fun _ =>
      (follows_record term.id .bool).bind_same fun _ => ih fun holds => known holds.1.1

theorem Condition.check_follows (cond : Condition) :
    (cond.check table).Follows start pre (cond.strict table) fun a b => a = b ∧ True := by
  unfold Condition.check Condition.strict
  exact (checkCondTerms_follows known cond.span cond.terms).bind_same fun _ => follows_record _ _

end

end StackCode
