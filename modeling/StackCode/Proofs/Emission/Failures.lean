import StackCode.Proofs.Account.Inventory
import StackCode.Proofs.Emission.Frames

namespace StackCode

open Code Emit

/-- A failure that is foreseen where the nodes `ids` are to have types and `literals` are in the code: a
node is without a type or a literal does not fit; but no branch is open. -/
def Env.Foresees (env : Env) (ids : List NodeId) (literals : List Literal) : Unsupported → Prop
  | .untypedNode id => id ∈ ids ∧ env.annotations.type? id = none
  | .unresolvedBranch _ => False
  | .intRange _ | .widthRange => ∃ literal, (literal ∈ literals ∨ literal ∈ env.constants.map Prod.snd) ∧
    ¬ literal.Fits
  | _ => True

theorem Env.Foresees.mono {env : Env} {ids ids' : List NodeId} {literals literals' : List Literal}
    {cause : Unsupported} (foreseen : env.Foresees ids literals cause) (more : ids ⊆ ids')
    (more' : literals ⊆ literals') : env.Foresees ids' literals' cause := by
  cases cause with
  | untypedNode id => exact ⟨more foreseen.1, foreseen.2⟩
  | unresolvedBranch _ => exact foreseen
  | intRange _ | widthRange =>
    obtain ⟨literal, known, broken⟩ := foreseen
    exact ⟨literal, known.imp_left (more' ·), broken⟩
  | _ => trivial

namespace Emit

variable {α β : Type} {env : Env} {ids ids' : List NodeId} {literals literals' : List Literal}

/-- The action fails for foreseen causes only, and fails or not, it keeps the `break` labels. -/
def Steady (env : Env) (ids : List NodeId) (literals : List Literal) (action : Emit α) : Prop :=
  ∀ frame, (action.outcome frame).2.breakLabels = frame.breakLabels ∧
    ∀ cause, (action.outcome frame).1 = .error cause → env.Foresees ids literals cause

theorem Steady.bind {x : Emit α} {f : α → Emit β} (first : x.Steady env ids literals)
    (second : ∀ a, Steady env ids literals (f a)) : Steady env ids literals (x >>= f) := by
  intro frame
  obtain ⟨breaks, causes⟩ := first frame
  rw [outcome_bind]
  cases run : x.outcome frame with
  | mk result mid =>
    rw [run] at breaks causes
    cases result with
    | ok a =>
      obtain ⟨breaks', causes'⟩ := second a mid
      exact ⟨breaks'.trans breaks, causes'⟩
    | error cause =>
      refine ⟨breaks, fun other same => ?_⟩
      cases same
      exact causes cause rfl

theorem steady_pure (a : α) : Steady env ids literals (pure a : Emit α) :=
  fun _ => ⟨rfl, fun _ impossible => nomatch impossible⟩

theorem Steady.map {x : Emit α} (steady : x.Steady env ids literals) (f : α → β) :
    Steady env ids literals (x >>= fun a => pure (f a)) :=
  steady.bind fun _ => steady_pure _

theorem Steady.mono {x : Emit α} (steady : x.Steady env ids literals) (more : ids ⊆ ids')
    (more' : literals ⊆ literals') : x.Steady env ids' literals' := by
  intro frame
  exact ⟨(steady frame).1, fun cause fails => ((steady frame).2 cause fails).mono more more'⟩

theorem Steady.left {x : Emit α} (steady : x.Steady env ids literals) :
    x.Steady env (ids ++ ids') (literals ++ literals') :=
  steady.mono (List.subset_append_left _ _) (List.subset_append_left _ _)

theorem Steady.right {x : Emit α} (steady : x.Steady env ids' literals') :
    x.Steady env (ids ++ ids') (literals ++ literals') :=
  steady.mono (List.subset_append_right _ _) (List.subset_append_right _ _)

/-- The node itself comes behind its parts. -/
theorem Steady.node {x : Emit α} (steady : x.Steady env ids literals) (id : NodeId) :
    x.Steady env (ids ++ [id]) literals :=
  steady.mono (List.subset_append_left _ _) (List.Subset.refl _)

theorem Steady.then {x : Emit α} {f : α → Emit β} (first : x.Steady env ids literals)
    (second : ∀ a, Steady env ids' literals' (f a)) :
    Steady env (ids ++ ids') (literals ++ literals') (x >>= f) :=
  first.left.bind fun a => (second a).right

theorem steady_throw {cause : Unsupported} (foreseen : env.Foresees ids literals cause) :
    Steady env ids literals (throw cause : Emit α) := by
  intro frame
  refine ⟨rfl, fun other same => ?_⟩
  cases same
  exact foreseen

theorem steady_get : Steady env ids literals (get : Emit Frame) :=
  fun _ => ⟨rfl, fun _ impossible => nomatch impossible⟩

theorem steady_modify {f : Frame → Frame} (keeps : ∀ frame, (f frame).breakLabels = frame.breakLabels) :
    Steady env ids literals (modify f : Emit PUnit) :=
  fun frame => ⟨keeps frame, fun _ impossible => nomatch impossible⟩

theorem steady_lift {x : Except Unsupported α}
    (foreseen : ∀ cause, x = .error cause → env.Foresees ids literals cause) :
    Steady env ids literals (liftM x : Emit α) := by
  intro frame
  cases x with
  | ok a => exact ⟨rfl, fun _ impossible => nomatch impossible⟩
  | error cause =>
    refine ⟨rfl, fun other same => ?_⟩
    cases same
    exact foreseen cause rfl

theorem steady_lift_bind {x : Except Unsupported α} {f : α → Emit β}
    (foreseen : ∀ cause, x = .error cause → env.Foresees ids literals cause)
    (second : ∀ a, x = .ok a → Steady env ids literals (f a)) :
    Steady env ids literals ((liftM x : Emit α) >>= f) := by
  cases x with
  | ok a => exact second a rfl
  | error cause => exact steady_throw (foreseen cause rfl)

theorem steady_discard {x : Emit α} (steady : x.Steady env ids literals) :
    Steady env ids literals (discard x) := by
  have unfolded : discard x = x >>= fun _ => pure PUnit.unit := by
    rw [Functor.discard, LawfulFunctor.map_const, Function.comp_apply, map_eq_pure_bind]
  rw [unfolded]
  exact steady.map _

theorem Steady.within {enter leave : Frame → Frame} {action : Emit α}
    (steady : Steady env ids literals action)
    (leaves : ∀ frame inner : Frame, inner.breakLabels = (enter frame).breakLabels →
      (leave inner).breakLabels = frame.breakLabels) :
    Steady env ids literals (within enter leave action) := by
  intro frame
  obtain ⟨breaks, causes⟩ := steady (enter frame)
  exact ⟨leaves frame _ breaks, causes⟩

theorem Steady.breakingTo {label : Label} {action : Emit α} (steady : Steady env ids literals action) :
    Steady env ids literals (breakingTo label action) :=
  steady.within fun _ _ same => by simp only [same, List.tail_cons]

theorem Steady.inBlock {action : Emit α} (steady : Steady env ids literals action) :
    Steady env ids literals (inBlock action) :=
  steady.within fun _ _ same => same

theorem steady_newLabel : Steady env ids literals newLabel :=
  fun _ => ⟨rfl, fun _ impossible => nomatch impossible⟩

end Emit

section Lookups

variable {env : Env} {ids : List NodeId} {literals : List Literal}

theorem Env.foresees_baseType {tag : Tag} {cause : Unsupported}
    (fails : env.baseType tag = .error cause) : env.Foresees ids literals cause := by
  unfold Env.baseType at fails
  split_ifs at fails
  split at fails
  · cases fails
  · cases fails
    trivial

theorem Env.foresees_type {tag : Tag} {cause : Unsupported} (fails : env.type tag = .error cause) :
    env.Foresees ids literals cause := by
  unfold Env.type at fails
  split at fails
  · cases based : env.baseType tag.base with
    | ok type =>
      rw [based] at fails
      cases fails
    | error other =>
      rw [based] at fails
      cases fails
      exact Env.foresees_baseType based
  · exact Env.foresees_baseType fails

theorem steady_type (tag : Tag) : Steady env ids literals (liftM (env.type tag) : Emit Ty) :=
  steady_lift fun _ => Env.foresees_type

theorem Env.foresees_writtenType {type : TypeName} {cause : Unsupported}
    (fails : env.writtenType type = .error cause) : env.Foresees ids literals cause := by
  rw [Env.writtenType] at fails
  split at fails <;> cases fails
  trivial

theorem steady_writtenType (type : TypeName) :
    Steady env ids literals (liftM (env.writtenType type) : Emit Tag) :=
  steady_lift fun _ => Env.foresees_writtenType

theorem Env.foresees_nodeType {id : NodeId} {cause : Unsupported} (known : id ∈ ids)
    (fails : env.nodeType id = .error cause) : env.Foresees ids literals cause := by
  unfold Env.nodeType at fails
  split at fails
  · cases fails
  · cases fails
    exact ⟨known, ‹_›⟩

theorem steady_nodeType {id : NodeId} (known : id ∈ ids) :
    Steady env ids literals (liftM (env.nodeType id) : Emit Tag) :=
  steady_lift fun _ => Env.foresees_nodeType known

theorem steady_classNamed (tag : Tag) :
    Steady env ids literals (liftM (env.classNamed tag) : Emit String) := by
  refine steady_lift fun cause fails => ?_
  unfold Env.classNamed at fails
  split at fails <;> cases fails
  trivial

theorem steady_memberType (tag : Tag) (field : String) :
    Steady env ids literals (liftM (env.memberType tag field) : Emit Tag) := by
  refine steady_lift fun cause fails => ?_
  unfold Env.memberType at fails
  split at fails <;> cases fails
  trivial

theorem Env.foresees_home {frame : Frame} {name : String} {cause : Unsupported}
    (fails : env.home frame name = .error cause) : env.Foresees ids literals cause := by
  unfold Env.home at fails
  split at fails
  · cases fails
  · split at fails
    · cases fails
    · split at fails
      · split at fails <;> cases fails
        trivial
      · cases fails
        trivial

theorem Env.home_constant {frame : Frame} {name : String} {value : Literal}
    (found : env.home frame name = .ok (.constant value)) : value ∈ env.constants.map Prod.snd := by
  unfold Env.home at found
  split at found
  · cases found
  split at found
  · rename_i listed
    cases found
    obtain ⟨before, behind, split, _⟩ := List.lookup_eq_some_iff.mp listed
    simp [split]
  · split at found
    · split at found <;> cases found
    · cases found

theorem steady_target (name : String) (argc : Nat) :
    Steady env ids literals (liftM (env.target name argc) : Emit Target) := by
  refine steady_lift fun cause fails => ?_
  unfold Env.target at fails
  split at fails
  · split at fails <;> cases fails
    trivial
  · split at fails
    · split at fails <;> cases fails
      trivial
    · cases fails
      trivial

theorem steady_literalInstr {value : Literal}
    (known : value ∈ literals ∨ value ∈ env.constants.map Prod.snd) :
    Steady env ids literals (liftM (literalInstr value) : Emit Instr) := by
  refine steady_lift fun cause fails => ?_
  cases value with
  | int n =>
    simp only [literalInstr] at fails
    split at fails
    · cases fails
    · rename_i broken
      cases fails
      exact ⟨.int n, known, broken⟩
  | _ => cases fails

theorem steady_conversion (source target : Tag) :
    Steady env ids literals (liftM (conversion source target) : Emit Piece) := by
  refine steady_lift fun cause fails => ?_
  unfold conversion at fails
  split_ifs at fails
  cases fails
  trivial

theorem steady_commonType (left right : Tag) :
    Steady env ids literals (liftM (commonType left right) : Emit Tag) := by
  refine steady_lift fun cause fails => ?_
  unfold commonType at fails
  split at fails <;> cases fails
  trivial

end Lookups

section Slots

variable {env : Env} {ids : List NodeId} {literals : List Literal}

theorem steady_newSlot (name : String) (tag : Tag) : Steady env ids literals (newSlot env name tag) := by
  unfold newSlot
  refine steady_get.bind fun frame => ?_
  dsimp only
  split
  · exact (steady_throw (by trivial)).bind fun _ => (steady_type tag).bind fun _ =>
      (steady_modify fun _ => rfl).bind fun _ => steady_pure _
  · exact (steady_type tag).bind fun _ => (steady_modify fun _ => rfl).bind fun _ => steady_pure _

theorem steady_temp (tag : Tag) : Steady env ids literals (temp env tag) :=
  steady_get.bind fun _ => (steady_newSlot _ tag).bind fun _ =>
    (steady_modify fun _ => rfl).bind fun _ => steady_pure _

theorem steady_newLocal (name : String) (tag : Tag) :
    Steady env ids literals (newLocal env name tag) := by
  refine (steady_newSlot name tag).bind fun _ =>
    (steady_modify fun frame => ?_).map _
  split <;> rfl

theorem steady_newLabels (count : Nat) : Steady env ids literals (newLabels count) := by
  induction count with
  | zero => exact steady_pure _
  | succ count ih => exact steady_newLabel.bind fun _ => ih.map _

theorem steady_emitLocals (tag : Tag) (names : List Ident) :
    Steady env ids literals (emitLocals env tag names) := by
  induction names with
  | nil => exact steady_pure _
  | cons name names ih => exact (steady_discard (steady_newLocal name.name tag)).bind fun _ => ih

end Slots

theorem Expr.id_mem_annotated (e : Expr) : e.id ∈ e.annotated := by
  obtain ⟨id, neg, cast, head, tail, span⟩ := e
  simp [Expr.annotated]

theorem Term.id_mem_annotated (term : Term) : term.id ∈ term.annotated := by
  obtain ⟨id, head, tail, span⟩ := term
  simp [Term.annotated]

theorem Factor.id_mem_annotated (factor : Factor) : factor.id ∈ factor.annotated := by
  obtain ⟨id, kind, span⟩ := factor
  simp [Factor.annotated]

section Expressions

variable {env : Env} {ids : List NodeId} {literals : List Literal}

theorem emitBase_steady (name : String) : (emitBase env name).Steady env ids literals := by
  refine steady_get.bind fun frame => steady_lift_bind (fun _ => Env.foresees_home) fun home found => ?_
  cases home with
  | slot slot tag => exact steady_pure _
  | static field tag => exact steady_pure _
  | constant value =>
    exact (steady_literalInstr (.inr (Env.home_constant found))).map _

theorem emitField_steady (container : Tag) (field : String) :
    (emitField env container field).Steady env ids literals :=
  (steady_classNamed container).bind fun _ => (steady_memberType container field).map _

theorem emitGrid_steady (base : Tag) (counts : List Nat) :
    (emitGrid env base counts).Steady env ids literals := by
  induction counts with
  | nil => exact steady_throw (by trivial)
  | cons count inner ih =>
    cases inner with
    | nil => exact (steady_type base).map _
    | cons second inner =>
      exact (steady_type _).bind fun _ => (steady_temp .int).bind fun _ => steady_newLabel.bind
        fun _ => steady_newLabel.bind fun _ => ih.map _

theorem steady_castCode (type : Tag) : ∀ cast : Option TypeName,
    Steady env ids literals (liftM (env.castCode type cast) : Emit (Piece × Tag))
  | none => steady_pure _
  | some target => by
    rw [Env.castCode, liftM_bind]
    exact (steady_writtenType target).bind fun tag => by
      rw [liftM_bind]
      exact (steady_conversion type tag).bind fun _ => steady_pure _

theorem Target.emit_steady {args : List Expr} (target : Target) :
    (target.emit env args).Steady env (exprsAnnotated args) literals := by
  cases target with
  | method name result => exact steady_pure _
  | intrinsic op =>
    cases args with
    | nil =>
      cases op with
      | len | add | del => exact steady_throw (by trivial)
      | ord | chr => exact steady_pure _
    | cons first rest =>
      -- The type of the list is that of the first argument.
      have known : first.id ∈ exprsAnnotated (first :: rest) :=
        List.mem_append_left _ first.id_mem_annotated
      cases op with
      | len | add | del =>
        exact (steady_nodeType known).bind fun tag => (steady_type tag.element).map _
      | ord | chr => exact steady_pure _

mutual

theorem Expr.emit_steady : ∀ e : Expr, (e.emit env).Steady env e.annotated e.literals
  | ⟨id, neg, cast, head, tail, _⟩ => by
    have rest (type : Tag) :
        (emitSum env type tail).Steady env (sumAnnotated tail ++ [id]) (sumLiterals tail) :=
      (emitSum_steady type tail).node id
    rw [Expr.annotated, Expr.literals]
    refine (steady_nodeType (List.mem_append_left _ head.id_mem_annotated)).bind fun type => ?_
    split
    · exact ((rest type).map _).right
    · refine head.emit_steady.then fun _ => ?_
      exact (steady_castCode type cast).bind fun found => (rest found.2).map _

theorem emitSum_steady : ∀ (type : Tag) (tail : List (AddOp × Term)),
    (emitSum env type tail).Steady env (sumAnnotated tail) (sumLiterals tail)
  | _, [] => steady_pure _
  | type, (_, term) :: rest =>
    (steady_nodeType (List.mem_append_left _ term.id_mem_annotated)).bind fun right =>
      (steady_commonType type right).bind fun result => (steady_conversion type result).bind fun _ =>
        term.emit_steady.then fun _ => (steady_conversion right result).bind fun _ =>
          (emitSum_steady result rest).map _

theorem Term.emit_steady : ∀ term : Term, (term.emit env).Steady env term.annotated term.literals
  | ⟨id, head, tail, _⟩ =>
    head.emit_steady.left.bind fun _ =>
      (steady_nodeType (List.mem_append_left _ head.id_mem_annotated)).bind fun type =>
        (((emitProduct_steady type tail).node id).map _).right

theorem emitProduct_steady : ∀ (type : Tag) (tail : List (MulOp × Factor)),
    (emitProduct env type tail).Steady env (productAnnotated tail) (productLiterals tail)
  | _, [] => steady_pure _
  | type, (_, factor) :: rest =>
    (steady_nodeType (List.mem_append_left _ factor.id_mem_annotated)).bind fun right =>
      (steady_commonType type right).bind fun result => (steady_conversion type result).bind fun _ =>
        factor.emit_steady.then fun _ => (steady_conversion right result).bind fun _ =>
          (emitProduct_steady result rest).map _

theorem Factor.emit_steady : ∀ factor : Factor,
    (factor.emit env).Steady env factor.annotated factor.literals
  | ⟨id, kind, _⟩ => kind.emit_steady id

theorem FactorKind.emit_steady (id : NodeId) : ∀ kind : FactorKind,
    (kind.emit env id).Steady env (kind.annotated ++ [id]) kind.literals
  | .literal value => (steady_literalInstr (.inl (List.mem_singleton_self value))).map _
  | .designator target => target.emitLoad_steady.node id
  | .call callee args =>
    (steady_target _ _).bind fun target => ((emitExprs_steady args).node id).bind fun _ =>
      (target.emit_steady.node id).map _
  | .newObject _ => steady_pure _
  | .newArray elem [size] =>
    (steady_writtenType elem).bind fun base =>
      (size.emit_steady.then fun _ => (steady_type base).map _).node id
  | .newArray elem [] => by
    rw [FactorKind.emit]
    · exact (steady_writtenType elem).bind fun base =>
        ((emitSizes_steady []).node id).bind fun found => (emitGrid_steady base found.2).map _
    · simp
  | .newArray elem (first :: second :: sizes) => by
    rw [FactorKind.emit]
    · exact (steady_writtenType elem).bind fun base =>
        ((emitSizes_steady (first :: second :: sizes)).node id).bind fun found =>
          (emitGrid_steady base found.2).map _
    · simp
  | .paren inner => inner.emit_steady.node id
  | .list elems =>
    (steady_nodeType (List.mem_append_right _ (List.mem_singleton_self id))).bind fun tag =>
      (steady_type tag.element).bind fun elem => ((emitElems_steady elem elems).node id).map _

theorem emitExprs_steady : ∀ exprs : List Expr,
    (emitExprs env exprs).Steady env (exprsAnnotated exprs) (exprsLiterals exprs)
  | [] => steady_pure _
  | e :: rest => e.emit_steady.then fun _ => (emitExprs_steady rest).map _

theorem emitSizes_steady : ∀ sizes : List Expr,
    (emitSizes env sizes).Steady env (exprsAnnotated sizes) (exprsLiterals sizes)
  | [] => steady_pure _
  | size :: rest =>
    size.emit_steady.then fun _ => (steady_temp .int).bind fun _ => (emitSizes_steady rest).map _

theorem emitElems_steady (elem : Ty) : ∀ elems : List Expr,
    (emitElems env elem elems).Steady env (exprsAnnotated elems) (exprsLiterals elems)
  | [] => steady_pure _
  | e :: rest => e.emit_steady.then fun _ => (emitElems_steady elem rest).map _

theorem Designator.emitLoad_steady : ∀ target : Designator,
    (target.emitLoad env).Steady env target.annotated target.literals
  | ⟨id, base, selectors, _⟩ =>
    (emitBase_steady base.name).bind fun found =>
      ((emitSelectors_steady found.2 selectors).node id).map _

theorem emitSelectors_steady : ∀ (tag : Tag) (selectors : List Selector),
    (emitSelectors env tag selectors).Steady env (selectorsAnnotated selectors)
      (selectorsLiterals selectors)
  | _, [] => steady_pure _
  | tag, .field name :: rest =>
    (emitField_steady tag name.name).bind fun found => (emitSelectors_steady found.2 rest).map _
  | tag, .index value :: rest =>
    value.emit_steady.then fun _ => (steady_type tag.element).bind fun _ =>
      (emitSelectors_steady tag.element rest).map _

end

end Expressions

theorem bind_eq_error {ε α β : Type} {x : Except ε α} {f : α → Except ε β} {cause : ε} :
    x >>= f = .error cause ↔ x = .error cause ∨ ∃ a, x = .ok a ∧ f a = .error cause := by
  cases x <;> simp [bind, Except.bind]

section Statements

variable {env : Env} {ids : List NodeId} {literals : List Literal}

theorem Env.foresees_areStrings {left right : Expr} (l : left.id ∈ ids) (r : right.id ∈ ids)
    {cause : Unsupported} (fails : env.areStrings left right = .error cause) :
    env.Foresees ids literals cause := by
  rcases bind_eq_error.mp fails with fails | ⟨tag, _, fails⟩
  · exact Env.foresees_nodeType l fails
  split at fails
  · rcases bind_eq_error.mp fails with fails | ⟨tag, _, fails⟩
    · exact Env.foresees_nodeType r fails
    · cases fails
  · cases fails

theorem CondFact.emit_steady (fact : CondFact) :
    (fact.emit env).Steady env fact.annotated fact.kind.literals := by
  refine .node ?_ _
  unfold CondFact.emit
  cases fact.kind with
  | expr value => exact value.emit_steady
  | relation left op right =>
    exact (steady_lift fun _ => Env.foresees_areStrings
      (List.mem_append_left _ left.id_mem_annotated)
      (List.mem_append_right _ right.id_mem_annotated)).bind fun _ =>
        left.emit_steady.then fun _ => right.emit_steady.map _

theorem emitFacts_steady {facts : List CondFact} {join : Piece} :
    (emitFacts env join facts).Steady env (facts.flatMap CondFact.annotated)
      (facts.flatMap (·.kind.literals)) := by
  induction facts generalizing join with
  | nil => exact steady_pure _
  | cons fact rest ih => exact fact.emit_steady.then fun _ => ih.map _

theorem emitCondTerms_steady {terms : List CondTerm} {join : Piece} :
    (emitCondTerms env join terms).Steady env (terms.flatMap CondTerm.annotated)
      (terms.flatMap CondTerm.literals) := by
  induction terms generalizing join with
  | nil => exact steady_pure _
  | cons term rest ih => exact (emitFacts_steady.node term.id).then fun _ => ih.map _

theorem Condition.emit_steady (cond : Condition) :
    (cond.emit env).Steady env cond.annotated cond.literals :=
  emitCondTerms_steady.node cond.id

theorem emitPut_steady (name : String) {constant : Unsupported}
    (foreseen : env.Foresees ids literals constant) :
    (emitPut env name constant).Steady env ids literals := by
  refine steady_get.bind fun frame => steady_lift_bind (fun _ => Env.foresees_home) fun home _ => ?_
  cases home with
  | slot slot tag => exact steady_pure _
  | static field tag => exact steady_pure _
  | constant value => exact steady_throw foreseen

theorem selectorsAnnotated_append (xs ys : List Selector) :
    selectorsAnnotated (xs ++ ys) = selectorsAnnotated xs ++ selectorsAnnotated ys := by
  induction xs with
  | nil => rfl
  | cons selector xs ih =>
    cases selector with
    | field name => exact ih
    | index value =>
      simp only [List.cons_append, selectorsAnnotated, List.append_assoc, ih]

theorem selectorsAnnotated_getLast {selectors : List Selector} {last : Selector}
    (found : selectors.getLast? = some last) : selectorsAnnotated selectors =
      selectorsAnnotated selectors.dropLast ++ selectorsAnnotated [last] := by
  rw [← selectorsAnnotated_append, List.dropLast_append_getLast? last found]

theorem selectorsLiterals_append (xs ys : List Selector) :
    selectorsLiterals (xs ++ ys) = selectorsLiterals xs ++ selectorsLiterals ys := by
  induction xs with
  | nil => rfl
  | cons selector xs ih =>
    cases selector with
    | field name => exact ih
    | index value =>
      simp only [List.cons_append, selectorsLiterals, List.append_assoc, ih]

theorem selectorsLiterals_getLast {selectors : List Selector} {last : Selector}
    (found : selectors.getLast? = some last) : selectorsLiterals selectors =
      selectorsLiterals selectors.dropLast ++ selectorsLiterals [last] := by
  rw [← selectorsLiterals_append, List.dropLast_append_getLast? last found]

theorem Designator.emitContainer_steady (target : Designator) :
    (target.emitContainer env).Steady env (selectorsAnnotated target.selectors.dropLast)
      (selectorsLiterals target.selectors.dropLast) :=
  (emitBase_steady target.base.name).bind fun found => (emitSelectors_steady found.2 _).map _

theorem Designator.last_steady (env : Env) {target : Designator} (inside : target.annotated ⊆ ids)
    (written : target.literals ⊆ literals) {last : Selector}
    (found : target.selectors.getLast? = some last) :
    (target.emitContainer env).Steady env ids literals ∧
      ∀ value, last = .index value → (value.emit env).Steady env ids literals := by
  obtain ⟨id, base, selectors, span⟩ := target
  rw [Designator.annotated, List.append_subset, selectorsAnnotated_getLast found,
    List.append_subset] at inside
  rw [Designator.literals, selectorsLiterals_getLast found, List.append_subset] at written
  refine ⟨(emitContainer_steady _).mono inside.1.1 written.1, ?_⟩
  rintro value rfl
  rw [selectorsAnnotated, selectorsAnnotated, List.append_nil] at inside
  rw [selectorsLiterals, selectorsLiterals, List.append_nil] at written
  exact value.emit_steady.mono inside.1.2 written.2

theorem Designator.emitStore_steady (target : Designator) {value : Emit Piece}
    (inside : target.annotated ⊆ ids) (written : target.literals ⊆ literals)
    (steady : value.Steady env ids literals) :
    (target.emitStore env value).Steady env ids literals := by
  unfold Designator.emitStore
  cases last : target.selectors.getLast? with
  | none => exact steady.bind fun _ => (emitPut_steady _ (by trivial)).map _
  | some selector =>
    obtain ⟨container, index⟩ := last_steady env inside written last
    cases selector with
    | field name =>
      exact container.bind fun found => (steady_classNamed found.2).bind fun _ => steady.map _
    | index value =>
      exact container.bind fun found => (index value rfl).bind fun _ => steady.bind fun _ =>
        (steady_type found.2.element).map _

theorem Designator.emitStep_steady (op : StepOp) (target : Designator) (inside : target.annotated ⊆ ids)
    (written : target.literals ⊆ literals) :
    (target.emitStep env op).Steady env ids literals := by
  unfold Designator.emitStep
  cases last : target.selectors.getLast? with
  | none => exact (emitBase_steady _).bind fun _ => (emitPut_steady _ (by trivial)).map _
  | some selector =>
    obtain ⟨container, index⟩ := last_steady env inside written last
    cases selector with
    | field name => exact container.bind fun found => (steady_classNamed found.2).map _
    | index value =>
      exact container.bind fun found => (steady_type found.2.element).bind fun _ =>
        (steady_temp found.2).bind fun _ => (index value rfl).bind fun _ => (steady_temp .int).map _

theorem Designator.emitCall_steady (callee : Designator) (args : List Expr) :
    (callee.emitCall env args).Steady env (exprsAnnotated args) (exprsLiterals args) :=
  (steady_target _ _).bind fun target => (emitExprs_steady args).bind fun _ =>
    target.emit_steady.map _

theorem emitWrite_steady (value : Expr) (width : Option Int64) :
    (emitWrite env value width).Steady env value.annotated
      (value.literals ++ width.toList.map Literal.int) := by
  refine (value.emit_steady.mono (List.Subset.refl _) (List.subset_append_left _ _)).bind fun _ =>
    (steady_nodeType value.id_mem_annotated).bind fun tag => (steady_type tag).bind fun _ => ?_
  cases width with
  | none => exact steady_pure _
  | some width =>
    dsimp only
    split
    · exact steady_pure _
    · rename_i broken
      exact steady_throw ⟨.int width, .inl (List.mem_append_right _ (List.mem_singleton_self _)), broken⟩

theorem mem_casesLiterals {cases : List SwitchCase} {one : SwitchCase} (member : one ∈ cases) :
    one.label ∈ casesLiterals cases := by
  induction cases with
  | nil => cases member
  | cons first rest ih =>
    obtain ⟨label, body, span⟩ := first
    rw [casesLiterals]
    rcases List.mem_cons.mp member with rfl | member
    · exact List.mem_cons_self
    · exact List.mem_cons_of_mem _ (List.mem_append_right _ (ih member))

theorem emitDispatch_steady (slot : Nat) (pairs : List (SwitchCase × Label))
    (written : ∀ pair ∈ pairs, pair.1.label ∈ literals) :
    (emitDispatch slot pairs).Steady env ids literals := by
  induction pairs with
  | nil => exact steady_pure _
  | cons pair rest ih =>
    rw [List.forall_mem_cons] at written
    exact (steady_literalInstr (.inl written.1)).bind fun _ => (ih written.2).map _

theorem append_subset_reverse {α : Type} (xs ys zs : List α) : xs ++ (ys ++ zs) ⊆ zs ++ (ys ++ xs) := by
  intro x
  simp only [List.mem_append]
  tauto

mutual

theorem Stmt.emit_steady : ∀ stmt : Stmt, (stmt.emit env).Steady env stmt.annotated stmt.literals
  | .assign target value _ =>
    target.emitStore_steady (List.subset_append_left _ _) (List.subset_append_left _ _)
      value.emit_steady.right
  | .read target _ =>
    target.emitStore_steady (List.Subset.refl _) (List.Subset.refl _) (steady_pure _)
  | .increment target _ | .decrement target _ =>
    target.emitStep_steady _ (List.Subset.refl _) (List.Subset.refl _)
  | .call callee args _ => (callee.emitCall_steady args).map _
  | .write value width _ => emitWrite_steady value width
  | .branch cond onTrue (some onFalse) _ =>
    steady_newLabel.bind fun _ => steady_newLabel.bind fun _ => cond.emit_steady.then fun _ =>
      onTrue.emit_steady.then fun _ => onFalse.emit_steady.map _
  | .branch cond onTrue none _ =>
    steady_newLabel.bind fun _ => cond.emit_steady.then fun _ => (onTrue.emit_steady.map _).left
  | .whileLoop cond body _ =>
    steady_newLabel.bind fun _ => steady_newLabel.bind fun _ => cond.emit_steady.then fun _ =>
      body.emit_steady.breakingTo.map _
  | .forLoop init cond update body _ => by
    refine steady_newLabel.bind fun _ => steady_newLabel.bind fun _ => steady_newLabel.bind fun _ =>
      (emitOptional_steady init).then fun _ => .mono (body.emit_steady.breakingTo.then fun _ =>
        (emitOptional_steady update).then fun _ => ?_) (append_subset_reverse _ _ _)
          (append_subset_reverse _ _ _)
    cases cond with
    | none => exact (steady_pure _).map _
    | some cond => exact cond.emit_steady.bind fun _ => (steady_pure _).map _
  | .breakStmt _ => by
    refine steady_get.bind fun frame => ?_
    split
    · exact steady_pure _
    · exact steady_throw (by trivial)
  | .returnStmt none _ => steady_pure _
  | .returnStmt (some value) _ => value.emit_steady.map _
  | .switch selector cases default _ => by
    have marked {labels : List Label} : ∀ pair ∈ cases.zip labels,
        pair.1.label ∈ casesLiterals cases ++ defaultLiterals default :=
      fun _ member => List.mem_append_left _ (mem_casesLiterals (List.of_mem_zip member).1)
    have cased (labels : List Label) (fallback : Label) : (do
        let code ← emitCases env labels cases
        return code ++ (← emitDefault env fallback default) : Emit Piece).Steady env
          (casesAnnotated cases ++ defaultAnnotated default)
          (casesLiterals cases ++ defaultLiterals default) :=
      (emitCases_steady labels cases).then fun _ => (emitDefault_steady fallback default).map _
    refine (steady_nodeType (List.mem_append_left _ selector.id_mem_annotated)).bind fun tag =>
      selector.emit_steady.then fun _ => (steady_temp tag).bind fun _ =>
        steady_newLabel.bind fun finish => (steady_newLabels _).bind fun labels => ?_
    split
    · exact steady_newLabel.bind fun _ => (emitDispatch_steady _ _ marked).bind fun _ =>
        (cased _ _).breakingTo.map _
    · exact (steady_pure finish).bind fun _ => (emitDispatch_steady _ _ marked).bind fun _ =>
        (cased _ _).breakingTo.map _
  | .block ⟨items, _⟩ => (emitItems_steady items).inBlock
  | .empty _ => steady_pure _

theorem emitOptional_steady : ∀ stmt : Option Stmt,
    (emitOptional env stmt).Steady env (optionAnnotated stmt) (optionLiterals stmt)
  | none => steady_pure _
  | some stmt => stmt.emit_steady

theorem emitStmts_steady : ∀ stmts : List Stmt,
    (emitStmts env stmts).Steady env (stmtsAnnotated stmts) (stmtsLiterals stmts)
  | [] => steady_pure _
  | stmt :: rest => stmt.emit_steady.then fun _ => (emitStmts_steady rest).map _

theorem emitCases_steady : ∀ (labels : List Label) (cases : List SwitchCase),
    (emitCases env labels cases).Steady env (casesAnnotated cases) (casesLiterals cases)
  | label :: labels, ⟨value, body, _⟩ :: rest =>
    .mono ((emitStmts_steady body).then fun _ => (emitCases_steady labels rest).map _)
      (List.Subset.refl _) (List.subset_cons_self value _)
  | [], _ => by
    unfold emitCases
    exact steady_pure _
  | _ :: _, [] => by
    unfold emitCases
    exact steady_pure _

theorem emitDefault_steady (label : Label) : ∀ default : Option DefaultCase,
    (emitDefault env label default).Steady env (defaultAnnotated default) (defaultLiterals default)
  | none => steady_pure _
  | some ⟨body, _⟩ => (emitStmts_steady body).map _

theorem emitItems_steady : ∀ items : List BlockItem,
    (emitItems env items).Steady env (itemsAnnotated items) (itemsLiterals items)
  | [] => steady_pure _
  | .var decl :: rest =>
    (steady_writtenType decl.type).bind fun tag => (steady_emitLocals tag decl.names).bind fun _ =>
      emitItems_steady rest
  | .stmt stmt :: rest => stmt.emit_steady.then fun _ => (emitItems_steady rest).map _

end

theorem emitParams_steady (params : List (String × Tag)) {i : Nat} :
    (emitParams env i params).Steady env ids literals := by
  induction params generalizing i with
  | nil => exact steady_pure _
  | cons param params ih =>
    exact (steady_newLocal param.1 param.2).bind fun _ => ih.map _

theorem emitBody_steady (params : List (String × Tag)) (result : Ty) (items : List BlockItem) :
    (emitBody env params result items).Steady env (itemsAnnotated items) (itemsLiterals items) := by
  refine (emitParams_steady params).bind fun _ => (emitItems_steady items).bind fun _ => ?_
  dsimp only
  split <;> exact steady_pure _

end Statements

section Methods

variable {env : Env} {ids : List NodeId} {literals : List Literal} {cause : Unsupported}

theorem Env.foresees_params {params : List Param} (fails : env.params params = .error cause) :
    env.Foresees ids literals cause := by
  induction params with
  | nil => cases fails
  | cons param params ih =>
    rw [Env.params] at fails
    rcases bind_eq_error.mp fails with fails | ⟨tag, _, fails⟩
    · exact Env.foresees_writtenType fails
    rcases bind_eq_error.mp fails with fails | ⟨type, _, fails⟩
    · exact Env.foresees_type fails
    rcases bind_eq_error.mp fails with fails | ⟨rest, _, fails⟩
    · exact ih fails
    · cases fails

theorem Env.foresees_method {decl : MethodDecl} (fails : env.method decl = .error cause) :
    env.Foresees (itemsAnnotated decl.body.items) (itemsLiterals decl.body.items) cause := by
  have fails : env.methodFrom [] decl = .error cause := by
    rw [Env.method] at fails
    cases made : env.methodFrom [] decl <;> rw [made] at fails <;> cases fails
    rfl
  rw [Env.methodFrom] at fails
  rcases bind_eq_error.mp fails with fails | ⟨resultTag, _, fails⟩
  · cases written : decl.result with
    | none =>
      rw [written] at fails
      cases fails
    | some type =>
      rw [written] at fails
      exact Env.foresees_writtenType fails
  rcases bind_eq_error.mp fails with fails | ⟨⟨tags, params⟩, _, fails⟩
  · exact Env.foresees_params fails
  rcases bind_eq_error.mp fails with fails | ⟨result, _, fails⟩
  · exact Env.foresees_type fails
  rcases ran : ((emitBody env tags result decl.body.items).run.run { scopes := [[]] } :
    Except Unsupported Piece × Frame) with ⟨outcome, frame⟩
  rw [ran] at fails
  rcases bind_eq_error.mp fails with rfl | ⟨code, rfl, unresolved⟩
  · exact (emitBody_steady tags result _ { scopes := [[]] }).2 cause (congrArg Prod.fst ran)
  · have emitted : (emitBody env tags result decl.body.items).Yields { scopes := [[]] } code frame :=
      ran
    have resolved : Method.isResolved { name := decl.name.name, params, result, code
                                        locals := frame.locals, labelCount := frame.labelCount } = true :=
      isResolved_of_grows (emitBody_grows rfl emitted) rfl rfl
    rw [if_pos resolved] at unresolved
    cases unresolved

/-- No method leaves a `break` label to the next one. -/
theorem Env.methodFrom_nil (decl : MethodDecl) :
    env.methodFrom [] decl = (·, []) <$> env.method decl := by
  rw [Env.method]
  cases made : env.methodFrom [] decl with
  | error cause => rfl
  | ok found =>
    obtain ⟨_, tags, _, result, _, frame, _, _, _, emitted, rfl, _⟩ := Env.methodFrom_eq_ok.mp made
    have kept : ((emitBody env tags result decl.body.items).outcome { scopes := [[]] }).2.breakLabels =
      [] := (emitBody_steady tags result _ _).1
    rw [show outcome _ _ = _ from emitted] at kept
    rw [kept]
    rfl

theorem Env.methodsFrom_nil (items : List Item) : env.methodsFrom [] items = env.methods items := by
  induction items with
  | nil => rfl
  | cons item rest ih =>
    cases item with
    | method decl =>
      rw [Env.methodsFrom, Env.methods, Env.methodFrom_nil]
      cases env.method decl with
      | error cause => rfl
      | ok method => exact congrArg (· >>= fun methods => pure (method :: methods)) ih
    | _ => exact ih

theorem Program.generate_eq (program : Program) (table : SymbolTable) (annotations : Annotations)
    (entry : String) : program.generate table annotations entry = (do
      let env : Env := { table, annotations, constants := constantsOf program.items }
      let (classes, statics) ← env.data program.items
      let methods ← env.methods program.items
      return { name := program.name.name, classes, statics, methods
               entry := if methods.any (·.name == entry) then some entry else none }) := by
  simp only [Program.generate, Env.methodsFrom_nil]

theorem Env.foresees_methods {items : List Item} (fails : env.methods items = .error cause) :
    env.Foresees (items.flatMap Item.annotated) (items.flatMap Item.literals) cause := by
  induction items with
  | nil => cases fails
  | cons item rest ih =>
    cases item with
    | method decl =>
      rw [Env.methods] at fails
      rcases bind_eq_error.mp fails with fails | ⟨method, _, fails⟩
      · exact (Env.foresees_method fails).mono (List.subset_append_left _ _)
          (List.subset_append_left _ _)
      rcases bind_eq_error.mp fails with fails | ⟨methods, _, fails⟩
      · exact (ih fails).mono (List.subset_append_right _ _) (List.subset_append_right _ _)
      · cases fails
    | const decl | vars decl | classDecl decl => exact ih fails

theorem Env.foresees_fields {symbols : List Symbol} (fails : env.fields symbols = .error cause) :
    env.Foresees ids literals cause := by
  induction symbols with
  | nil => cases fails
  | cons symbol rest ih =>
    rw [Env.fields] at fails
    rcases bind_eq_error.mp fails with fails | ⟨type, _, fails⟩
    · exact Env.foresees_type fails
    rcases bind_eq_error.mp fails with fails | ⟨slots, _, fails⟩
    · exact ih fails
    · cases fails

theorem Env.foresees_data {items : List Item} (fails : env.data items = .error cause) :
    env.Foresees ids literals cause := by
  induction items with
  | nil => cases fails
  | cons item rest ih =>
    cases item with
    | classDecl decl =>
      rw [Env.data] at fails
      rcases bind_eq_error.mp fails with fails | ⟨fields, _, fails⟩
      · exact Env.foresees_fields fails
      rcases bind_eq_error.mp fails with fails | ⟨found, _, fails⟩
      · exact ih fails
      · cases fails
    | vars decl =>
      rw [Env.data] at fails
      rcases bind_eq_error.mp fails with fails | ⟨tag, _, fails⟩
      · exact Env.foresees_writtenType fails
      rcases bind_eq_error.mp fails with fails | ⟨type, _, fails⟩
      · exact Env.foresees_type fails
      rcases bind_eq_error.mp fails with fails | ⟨found, _, fails⟩
      · exact ih fails
      · cases fails
    | const decl | method decl => exact ih fails

end Methods

end StackCode
