import StackCode.Proofs.Tree.Numbers

namespace StackCode

mutual

def Expr.unnumbered : Expr → Expr
  | ⟨_, neg, cast, head, tail, span⟩ => ⟨0, neg, cast, head.unnumbered, unnumberedTerms tail, span⟩

def unnumberedTerms : List (AddOp × Term) → List (AddOp × Term)
  | [] => []
  | (op, term) :: rest => (op, term.unnumbered) :: unnumberedTerms rest

def Term.unnumbered : Term → Term
  | ⟨_, head, tail, span⟩ => ⟨0, head.unnumbered, unnumberedFactors tail, span⟩

def unnumberedFactors : List (MulOp × Factor) → List (MulOp × Factor)
  | [] => []
  | (op, factor) :: rest => (op, factor.unnumbered) :: unnumberedFactors rest

def Factor.unnumbered : Factor → Factor
  | ⟨_, kind, span⟩ => ⟨0, kind.unnumbered, span⟩

def FactorKind.unnumbered : FactorKind → FactorKind
  | .literal value => .literal value
  | .designator target => .designator target.unnumbered
  | .call callee args => .call callee.unnumbered (unnumberedExprs args)
  | .newObject className => .newObject className
  | .newArray elem sizes => .newArray elem (unnumberedExprs sizes)
  | .paren inner => .paren inner.unnumbered
  | .list elems => .list (unnumberedExprs elems)

def unnumberedExprs : List Expr → List Expr
  | [] => []
  | e :: rest => e.unnumbered :: unnumberedExprs rest

def Designator.unnumbered : Designator → Designator
  | ⟨_, base, selectors, span⟩ => ⟨0, base, unnumberedSelectors selectors, span⟩

def unnumberedSelectors : List Selector → List Selector
  | [] => []
  | .field name :: rest => .field name :: unnumberedSelectors rest
  | .index value :: rest => .index value.unnumbered :: unnumberedSelectors rest

end

def FactKind.unnumbered : FactKind → FactKind
  | .relation left op right => .relation left.unnumbered op right.unnumbered
  | .expr value => .expr value.unnumbered

def CondFact.unnumbered (fact : CondFact) : CondFact := { fact with id := 0, kind := fact.kind.unnumbered }

def CondTerm.unnumbered (term : CondTerm) : CondTerm :=
  { term with id := 0, facts := term.facts.map CondFact.unnumbered }

def Condition.unnumbered (cond : Condition) : Condition :=
  { cond with id := 0, terms := cond.terms.map CondTerm.unnumbered }

mutual

def Stmt.unnumbered : Stmt → Stmt
  | .assign target value span => .assign target.unnumbered value.unnumbered span
  | .call callee args span => .call callee.unnumbered (unnumberedExprs args) span
  | .increment target span => .increment target.unnumbered span
  | .decrement target span => .decrement target.unnumbered span
  | .branch cond onTrue onFalse span =>
    .branch cond.unnumbered onTrue.unnumbered (unnumberedOption onFalse) span
  | .whileLoop cond body span => .whileLoop cond.unnumbered body.unnumbered span
  | .forLoop init cond update body span =>
    .forLoop (unnumberedOption init) (cond.map Condition.unnumbered) (unnumberedOption update)
      body.unnumbered span
  | .breakStmt span => .breakStmt span
  | .returnStmt value span => .returnStmt (value.map Expr.unnumbered) span
  | .read target span => .read target.unnumbered span
  | .write value width span => .write value.unnumbered width span
  | .switch selector cases default span =>
    .switch selector.unnumbered (unnumberedCases cases) (unnumberedDefault default) span
  | .block block => .block block.unnumbered
  | .empty span => .empty span

def unnumberedOption : Option Stmt → Option Stmt
  | none => none
  | some stmt => some stmt.unnumbered

def unnumberedStmts : List Stmt → List Stmt
  | [] => []
  | stmt :: rest => stmt.unnumbered :: unnumberedStmts rest

def unnumberedCases : List SwitchCase → List SwitchCase
  | [] => []
  | ⟨label, body, span⟩ :: rest => ⟨label, unnumberedStmts body, span⟩ :: unnumberedCases rest

def unnumberedDefault : Option DefaultCase → Option DefaultCase
  | none => none
  | some ⟨body, span⟩ => some ⟨unnumberedStmts body, span⟩

def Block.unnumbered : Block → Block
  | ⟨items, span⟩ => ⟨unnumberedItems items, span⟩

def unnumberedItems : List BlockItem → List BlockItem
  | [] => []
  | .var decl :: rest => .var decl :: unnumberedItems rest
  | .stmt stmt :: rest => .stmt stmt.unnumbered :: unnumberedItems rest

end

def Item.unnumbered : Item → Item
  | .method decl => .method { decl with body := decl.body.unnumbered }
  | item => item

def Program.unnumbered (program : Program) : Program :=
  { program with items := program.items.map Item.unnumbered }

/-- Numbering makes the same of a tree without its numbers, and what it makes is that tree again, apart
from the numbers. -/
structure Numbering.Renews {α : Type} (action again : Numbering α) (erase : α → α) (erased : α) : Prop where
  made : ∀ last, erase (action.run last).1 = erased
  again : again = action

namespace Numbering.Renews

variable {α β : Type} {erase : α → α} {erased : α}

theorem pure {a : α} (same : erase a = erased) : Renews (pure a) (pure a) erase erased :=
  ⟨fun _ => same, rfl⟩

theorem bind {x x' : Numbering β} {f f' : β → Numbering α} {eraseFirst : β → β} {first : β}
    (renews : Renews x x' eraseFirst first)
    (more : ∀ b, eraseFirst b = first → Renews (f b) (f' b) erase erased) :
    Renews (x >>= f) (x' >>= f') erase erased := by
  refine ⟨fun last => (more _ (renews.made last)).made _, ?_⟩
  rw [renews.again]
  exact StateT.ext fun last => congrArg (StateT.run · (x.run last).2) (more _ (renews.made last)).again

theorem fresh {f f' : NodeId → Numbering α} (more : ∀ id, Renews (f id) (f' id) erase erased) :
    Renews (fresh >>= f) (fresh >>= f') erase erased :=
  ⟨fun _ => (more _).made _, congrArg _ (funext fun id => (more id).again)⟩

variable {number : α → Numbering α}
  (each : ∀ a, Renews (number a) (number (erase a)) erase (erase a))

include each

theorem mapM (xs : List α) : Renews (xs.mapM number) ((xs.map erase).mapM number) (List.map erase)
    (xs.map erase) := by
  induction xs with
  | nil => exact .pure rfl
  | cons x xs ih =>
    rw [List.map_cons, List.mapM_cons, List.mapM_cons]
    exact (each x).bind fun _ one => ih.bind fun _ rest => .pure (congrArg₂ List.cons one rest)

theorem mapM_option (x : Option α) : Renews (x.mapM number) ((x.map erase).mapM number)
    (Option.map erase) (x.map erase) := by
  cases x with
  | none => exact .pure rfl
  | some a => exact (each a).bind fun _ same => .pure (congrArg some same)

end Numbering.Renews

open StackCode.Numbering

mutual

theorem Expr.renews : ∀ e : Expr, Renews e.number e.unnumbered.number Expr.unnumbered e.unnumbered
  | ⟨_, neg, cast, head, tail, span⟩ => .fresh fun _ => head.renews.bind fun _ first =>
    (terms_renew tail).bind fun _ rest => .pure (congrArg₂ (Expr.mk 0 neg cast · · span) first rest)

theorem terms_renew : ∀ tail : List (AddOp × Term),
    Renews (numberTerms tail) (numberTerms (unnumberedTerms tail)) unnumberedTerms (unnumberedTerms tail)
  | [] => .pure rfl
  | (op, term) :: rest => term.renews.bind fun _ one => (terms_renew rest).bind fun _ more =>
    .pure (congrArg₂ (fun term rest => (op, term) :: rest) one more)

theorem Term.renews : ∀ term : Term,
    Renews term.number term.unnumbered.number Term.unnumbered term.unnumbered
  | ⟨_, head, tail, span⟩ => .fresh fun _ => head.renews.bind fun _ first =>
    (factors_renew tail).bind fun _ rest => .pure (congrArg₂ (Term.mk 0 · · span) first rest)

theorem factors_renew : ∀ tail : List (MulOp × Factor), Renews (numberFactors tail)
    (numberFactors (unnumberedFactors tail)) unnumberedFactors (unnumberedFactors tail)
  | [] => .pure rfl
  | (op, factor) :: rest => factor.renews.bind fun _ one => (factors_renew rest).bind fun _ more =>
    .pure (congrArg₂ (fun factor rest => (op, factor) :: rest) one more)

theorem Factor.renews : ∀ factor : Factor,
    Renews factor.number factor.unnumbered.number Factor.unnumbered factor.unnumbered
  | ⟨_, kind, span⟩ => .fresh fun _ => kind.renews.bind fun _ inner =>
    .pure (congrArg (Factor.mk 0 · span) inner)

theorem FactorKind.renews : ∀ kind : FactorKind,
    Renews kind.number kind.unnumbered.number FactorKind.unnumbered kind.unnumbered
  | .literal _ | .newObject _ => .pure rfl
  | .designator target => target.renews.bind fun _ inner => .pure (congrArg FactorKind.designator inner)
  | .call callee args => callee.renews.bind fun _ first => (exprs_renew args).bind fun _ rest =>
    .pure (congrArg₂ FactorKind.call first rest)
  | .newArray elem sizes => (exprs_renew sizes).bind fun _ inner =>
    .pure (congrArg (FactorKind.newArray elem) inner)
  | .paren inner => inner.renews.bind fun _ inner => .pure (congrArg FactorKind.paren inner)
  | .list elems => (exprs_renew elems).bind fun _ inner => .pure (congrArg FactorKind.list inner)

theorem exprs_renew : ∀ exprs : List Expr,
    Renews (numberExprs exprs) (numberExprs (unnumberedExprs exprs)) unnumberedExprs (unnumberedExprs exprs)
  | [] => .pure rfl
  | e :: rest => e.renews.bind fun _ one => (exprs_renew rest).bind fun _ more =>
    .pure (congrArg₂ List.cons one more)

theorem Designator.renews : ∀ target : Designator,
    Renews target.number target.unnumbered.number Designator.unnumbered target.unnumbered
  | ⟨_, base, selectors, span⟩ => .fresh fun _ => (selectors_renew selectors).bind fun _ inner =>
    .pure (congrArg (Designator.mk 0 base · span) inner)

theorem selectors_renew : ∀ selectors : List Selector, Renews (numberSelectors selectors)
    (numberSelectors (unnumberedSelectors selectors)) unnumberedSelectors (unnumberedSelectors selectors)
  | [] => .pure rfl
  | .field name :: rest => (selectors_renew rest).bind fun _ more =>
    .pure (congrArg (Selector.field name :: ·) more)
  | .index value :: rest => value.renews.bind fun _ one => (selectors_renew rest).bind fun _ more =>
    .pure (congrArg₂ (fun value rest => Selector.index value :: rest) one more)

end

theorem FactKind.renews : ∀ kind : FactKind,
    Renews kind.number kind.unnumbered.number FactKind.unnumbered kind.unnumbered
  | .expr value => value.renews.bind fun _ inner => .pure (congrArg FactKind.expr inner)
  | .relation left op right => left.renews.bind fun _ first => right.renews.bind fun _ second =>
    .pure (congrArg₂ (FactKind.relation · op ·) first second)

theorem CondFact.renews (fact : CondFact) :
    Renews fact.number fact.unnumbered.number CondFact.unnumbered fact.unnumbered :=
  .fresh fun _ => fact.kind.renews.bind fun _ inner => .pure (congrArg (CondFact.mk 0 · fact.span) inner)

theorem CondTerm.renews (term : CondTerm) :
    Renews term.number term.unnumbered.number CondTerm.unnumbered term.unnumbered :=
  .fresh fun _ => (Renews.mapM CondFact.renews term.facts).bind fun _ inner =>
    .pure (congrArg (CondTerm.mk 0 · term.span) inner)

theorem Condition.renews (cond : Condition) :
    Renews cond.number cond.unnumbered.number Condition.unnumbered cond.unnumbered :=
  .fresh fun _ => (Renews.mapM CondTerm.renews cond.terms).bind fun _ inner =>
    .pure (congrArg (Condition.mk 0 · cond.span) inner)

mutual

theorem Stmt.renews : ∀ stmt : Stmt,
    Renews stmt.number stmt.unnumbered.number Stmt.unnumbered stmt.unnumbered
  | .assign target value span => target.renews.bind fun _ first => value.renews.bind fun _ second =>
    .pure (congrArg₂ (Stmt.assign · · span) first second)
  | .call callee args span => callee.renews.bind fun _ first => (exprs_renew args).bind fun _ rest =>
    .pure (congrArg₂ (Stmt.call · · span) first rest)
  | .increment target span => target.renews.bind fun _ inner =>
    .pure (congrArg (Stmt.increment · span) inner)
  | .decrement target span => target.renews.bind fun _ inner =>
    .pure (congrArg (Stmt.decrement · span) inner)
  | .read target span => target.renews.bind fun _ inner => .pure (congrArg (Stmt.read · span) inner)
  | .branch cond onTrue onFalse span => cond.renews.bind fun _ test => onTrue.renews.bind fun _ yes =>
    (option_renews onFalse).bind fun _ no => .pure (by rw [Stmt.unnumbered, test, yes, no]; rfl)
  | .whileLoop cond body span => cond.renews.bind fun _ test => body.renews.bind fun _ loop =>
    .pure (congrArg₂ (Stmt.whileLoop · · span) test loop)
  | .forLoop init cond update body span => (option_renews init).bind fun _ first =>
    (Renews.mapM_option Condition.renews cond).bind fun _ test => (option_renews update).bind fun _ next =>
    body.renews.bind fun _ loop => .pure (by rw [Stmt.unnumbered, first, test, next, loop]; rfl)
  | .returnStmt value span => (Renews.mapM_option Expr.renews value).bind fun _ inner =>
    .pure (congrArg (Stmt.returnStmt · span) inner)
  | .write value width span => value.renews.bind fun _ inner =>
    .pure (congrArg (Stmt.write · width span) inner)
  | .switch selector cases default span => selector.renews.bind fun _ value =>
    (cases_renew cases).bind fun _ bodies => (default_renews default).bind fun _ last =>
    .pure (by rw [Stmt.unnumbered, value, bodies, last]; rfl)
  | .block block => block.renews.bind fun _ inner => .pure (congrArg Stmt.block inner)
  | .breakStmt _ | .empty _ => .pure rfl

theorem option_renews : ∀ stmt : Option Stmt, Renews (numberOption stmt)
    (numberOption (unnumberedOption stmt)) unnumberedOption (unnumberedOption stmt)
  | none => .pure rfl
  | some stmt => stmt.renews.bind fun _ inner => .pure (congrArg some inner)

theorem stmts_renew : ∀ stmts : List Stmt, Renews (numberStmts stmts)
    (numberStmts (unnumberedStmts stmts)) unnumberedStmts (unnumberedStmts stmts)
  | [] => .pure rfl
  | stmt :: rest => stmt.renews.bind fun _ one => (stmts_renew rest).bind fun _ more =>
    .pure (congrArg₂ List.cons one more)

theorem cases_renew : ∀ cases : List SwitchCase, Renews (numberCases cases)
    (numberCases (unnumberedCases cases)) unnumberedCases (unnumberedCases cases)
  | [] => .pure rfl
  | ⟨label, body, span⟩ :: rest => (stmts_renew body).bind fun _ one => (cases_renew rest).bind
    fun _ more => .pure (congrArg₂ (fun body rest => SwitchCase.mk label body span :: rest) one more)

theorem default_renews : ∀ default : Option DefaultCase, Renews (numberDefault default)
    (numberDefault (unnumberedDefault default)) unnumberedDefault (unnumberedDefault default)
  | none => .pure rfl
  | some ⟨body, span⟩ => (stmts_renew body).bind fun _ inner =>
    .pure (congrArg (fun body => some (DefaultCase.mk body span)) inner)

theorem Block.renews : ∀ block : Block,
    Renews block.number block.unnumbered.number Block.unnumbered block.unnumbered
  | ⟨items, span⟩ => (items_renew items).bind fun _ inner => .pure (congrArg (Block.mk · span) inner)

theorem items_renew : ∀ items : List BlockItem, Renews (numberItems items)
    (numberItems (unnumberedItems items)) unnumberedItems (unnumberedItems items)
  | [] => .pure rfl
  | .var decl :: rest => (items_renew rest).bind fun _ more => .pure (congrArg (BlockItem.var decl :: ·) more)
  | .stmt stmt :: rest => stmt.renews.bind fun _ one => (items_renew rest).bind fun _ more =>
    .pure (congrArg₂ (fun stmt rest => BlockItem.stmt stmt :: rest) one more)

end

theorem Item.renews : ∀ item : Item,
    Renews item.number item.unnumbered.number Item.unnumbered item.unnumbered
  | .method decl => decl.body.renews.bind fun _ inner =>
    .pure (congrArg (fun body => Item.method { decl with body }) inner)
  | .const _ | .vars _ | .classDecl _ => .pure rfl

theorem Program.numbered_unnumbered (program : Program) :
    program.numbered.unnumbered = program.unnumbered :=
  congrArg (Program.mk program.name · program.span) ((Renews.mapM Item.renews program.items).made 0)

theorem Program.unnumbered_numbered (program : Program) :
    program.unnumbered.numbered = program.numbered := by
  rw [Program.unnumbered, Program.numbered, (Renews.mapM Item.renews program.items).again]
  rfl

theorem Program.numbered_eq_of_unnumbered {program other : Program}
    (same : other.unnumbered = program.unnumbered) : other.numbered = program.numbered := by
  rw [← other.unnumbered_numbered, same, program.unnumbered_numbered]

theorem idsAfter_toNat {last : NodeId} {count : Nat} (room : last.toNat + count < 2 ^ 32) :
    (idsAfter last count).map UInt32.toNat = List.range' (last.toNat + 1) count := by
  induction count generalizing last with
  | zero => rfl
  | succ count ih =>
    have next : (last + 1).toNat = last.toNat + 1 := by
      rw [UInt32.toNat_add, Nat.mod_eq_of_lt]
      · rfl
      · change last.toNat + 1 < 2 ^ 32
        omega
    rw [idsAfter, List.map_cons, ih (by omega), next, List.range'_succ]

/-- Numbering is bijective: in the order of the walk the nodes have the numbers 1, 2, …, n, so that no
two share one and none is zero. Nothing but numbers changes, the numbers from before have no influence,
and numbering again changes nothing. -/
theorem Program.numbered_bijectively (program : Program) (few : program.nodes.length < 2 ^ 32) :
    (nodeIds program.numbered.nodes).map UInt32.toNat = List.range' 1 program.nodes.length ∧
      (nodeIds program.numbered.nodes).Nodup ∧ 0 ∉ nodeIds program.numbered.nodes ∧
      program.numbered.unnumbered = program.unnumbered ∧
      (∀ other : Program, other.unnumbered = program.unnumbered →
        other.numbered = program.numbered) ∧
      program.numbered.numbered = program.numbered := by
  have room : (0 : NodeId).toNat + program.nodes.length < 2 ^ 32 := by simpa using few
  rw [program.numbered_ids]
  refine ⟨idsAfter_toNat room, idsAfter_nodup room, ?_, program.numbered_unnumbered,
    fun other => numbered_eq_of_unnumbered, numbered_eq_of_unnumbered program.numbered_unnumbered⟩
  rw [mem_idsAfter room]
  simp

/-- A call of a method that is not there, with an index in the callee and nodes that share a number. -/
def Sample.shared : Program :=
  ⟨⟨"P", {}⟩, [Sample.method none "Main" []
    [.stmt (.call (Sample.place "F" [.index (Sample.value (Sample.int 1))])
      [Sample.value (Sample.load "x" [])] {})]], {}⟩

theorem Sample.shared_numbered :
    Sample.shared.nodes.length < 2 ^ 32 ∧
      ¬ (nodeIds Sample.shared.nodes).Nodup ∧
      (nodeIds Sample.shared.numbered.nodes).map UInt32.toNat = [1, 2, 3, 4, 5, 6, 7, 8] ∧
      Sample.shared.unnumbered.numbered = Sample.shared.numbered := by
  have few : Sample.shared.nodes.length < 2 ^ 32 := by decide
  obtain ⟨ids, -, -, -, independent, -⟩ := Sample.shared.numbered_bijectively few
  exact ⟨few, by decide, ids, independent _ rfl⟩

end StackCode
