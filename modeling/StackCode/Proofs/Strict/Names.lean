import StackCode.Proofs.Strict.Follows
import StackCode.Proofs.Strict.Known

namespace StackCode

open Noting

def SameProper (a b : Tag) : Prop := a = b ∧ a.isProper = true

def SameKnown (a b : Tag) : Prop := a = b ∧ a.isKnown = true

section Rules

variable {table : SymbolTable} {start n : Nat} {pre : Prop}

theorem Literal.check_follows (literal : Literal) (span : Span) :
    (literal.check span).Follows start pre literal.strict fun a b => a = b ∧ a = literal.tag := by
  unfold Literal.check Literal.strict
  cases literal with
  | int | char =>
    exact follows_require (complains_mismatch _ _) (fun _ => by simp) (follows_return _ fun _ => rfl)
  | float | double | str | bool | null => exact follows_return _ fun _ => rfl

theorem Literal.isProper_tag (literal : Literal) : literal.tag.isProper = true := by
  cases literal <;> rfl

theorem checkArith_follows (begin : pre → n = start) (symbol : String) (left right : Tag)
    (span : Span) :
    (checkArith n symbol left right span).Follows start pre (strictArith left right) SameProper := by
  unfold checkArith strictArith
  cases promoted : Tag.promote left right with
  | some type =>
    exact follows_return _ fun _ => Tag.isProper_of_isKnown (Tag.isKnown_promote promoted)
  | none =>
    refine follows_excused begin fun silent => ?_
    cases silent with
    | true => exact follows_never (fun _ => le_refl _) fun holds => nomatch holds.2
    | false => exact follows_refuse ((complains_mismatch _ _).bind_pure _)

theorem asDeclared_follows (type : Tag) (known : pre → type.isKnown = true) :
    (asDeclared type).Follows start pre (pure type) SameKnown := by
  refine ⟨fun notes => ?_, fun holds notes same b annotations runs => ?_, fun _ _ _ runs => nomatch runs⟩
  · unfold asDeclared
    cases type.isUnknown <;> exact le_refl _
  · cases runs
    refine ⟨type, ?_, rfl, known holds⟩
    unfold asDeclared
    rw [Tag.isUnknown_of_isKnown (known holds)]
    rfl

theorem follows_demand {α β : Type} {check : Noting Tag} {strict : Strict Tag} {k : Tag → Noting α}
    {k' : Tag → Strict β} {R : α → β → Prop} {fits : Tag → Bool} {problem : Tag → Mismatch} {span : Span}
    {P : Tag → Prop} (follows : ∀ n, check.Follows start (pre ∧ n = start) strict fun a b => a = b ∧ P a)
    (more : ∀ type n silent, (k type).Follows start
      ((((pre ∧ n = start) ∧ P type) ∧ silent = false) ∧ fits type = true) (k' type) R) :
    (check.demand fits problem span >>= k).Follows start pre
      (strict >>= fun type => Strict.require (fits type) >>= fun _ => k' type) R := by
  have whole : check.demand fits problem span >>= k = (do
      let n ← tally
      let type ← check
      if !fits type && !(← excused n [type]) then mismatch (problem type) span
      k type) := by
    simp only [demand, bind_assoc]
    refine bind_congr fun n => bind_congr fun type => bind_congr fun silent => ?_
    split <;> rfl
  rw [whole]
  exact follows_tally fun n => (follows n).bind_same fun type =>
    follows_excused (fun holds => holds.1.2) fun silent =>
    follows_require (complains_mismatch _ _) (fun holds => by simp [holds.2]) (more type n silent)

theorem checkElement_follows {container : Tag} (real : pre → container.isKnown = true) (span : Span) :
    (checkElement container span).Follows start pre (strictElement container) SameKnown := by
  unfold checkElement strictElement
  cases unknown : container.isUnknown with
  | true =>
    refine follows_never (fun _ => le_refl _) fun holds => ?_
    exact absurd unknown (by simp [Tag.isUnknown_of_isKnown (real holds)])
  | false =>
    cases list : container.isList with
    | true => exact follows_return _ fun holds => Tag.isKnown_element (real holds) list
    | false => exact follows_refuse ((complains_mismatch _ _).bind_pure _)

theorem checkSign_follows (begin : pre → n = start) (neg : Bool) {type : Tag}
    (proper : pre → type.isProper = true) (span : Span) :
    (checkSign n neg type span).Follows start pre (strictSign neg type) SameProper := by
  unfold checkSign strictSign
  have dual : (neg && !type.isNumeric) = !(!neg || type.isNumeric) := by simp
  rw [dual]
  cases !neg || type.isNumeric with
  | true => exact follows_return _ proper
  | false =>
    refine follows_excused begin fun silent => ?_
    cases silent with
    | true => exact follows_never (fun _ => le_refl _) fun holds => nomatch holds.2
    | false => exact follows_refuse ((complains_mismatch _ _).bind_pure _)

theorem checkElements_follows (begin : pre → n = start) {first : Tag}
    (proper : pre → first.isProper = true) (span : Span) (rest : List (Tag × Span)) :
    (checkElements n first span rest).Follows start pre (do
      Strict.require ((rest.map Prod.fst).all (· == first))
      return first.listOf) SameProper := by
  induction rest generalizing pre with
  | nil => exact follows_return _ fun holds => Tag.isProper_addDimensions (proper holds) 1
  | cons entry rest ih =>
    obtain ⟨type, place⟩ := entry
    rw [checkElements, List.map_cons, List.all_cons, require_and, bind_assoc]
    refine follows_excused begin fun silent =>
      follows_require_else ((complains_mismatch _ _).bind_pure _) (fun holds => ?_)
        (ih (fun holds => begin holds.1.1) fun holds => proper holds.1.1)
    simp [holds.2]

theorem checkValue_follows (callee : Designator) {result : Tag}
    (proper : pre → result.isProper = true) (span : Span) :
    (checkValue callee result span).Follows start pre (do
      Strict.require (result != .void)
      return result) SameProper := by
  unfold checkValue
  exact follows_require_else ((complains_mismatch _ _).bind_pure _) (fun _ => by simp)
    (follows_return _ fun holds => proper holds.1)

theorem Expr.adopt_follows (e : Expr) {expected : Tag} (proper : pre → expected.isProper = true) :
    (e.adopt expected).Follows start pre (e.strictAdopt expected) SameProper := by
  unfold Expr.adopt Expr.strictAdopt
  exact (follows_record _ _).bind_same fun _ => (follows_record _ _).bind_same fun _ =>
    (follows_record _ _).bind_same fun _ => follows_return _ fun holds => proper holds.1.1.1

end Rules

section Names

variable {table : SymbolTable} {start n : Nat} {pre : Prop} (known : pre → table.Known)

include known

theorem namedType_follows (type : TypeName) :
    (table.namedType type).Follows start pre (table.strictType type) SameKnown := by
  unfold SymbolTable.namedType SymbolTable.strictType
  refine follows_require (complains_report _ _) (fun _ => by simp) (follows_return _ ?_)
  rintro ⟨holds, found⟩
  exact Tag.isKnown_of_isProper ((known holds).typeOf _) (by simpa [Tag.isUnknown] using found)

theorem namedValueType_follows (type : TypeName) :
    (table.namedValueType type).Follows start pre (table.strictValueType type) SameKnown := by
  unfold SymbolTable.namedValueType SymbolTable.strictValueType
  refine (namedType_follows known type).bind_same fun tag => ?_
  exact follows_require_else ((complains_mismatch _ _).bind_pure _) (fun _ => by simp)
    (follows_return _ fun holds => holds.1.2)

theorem checkBase_follows (base : Ident) :
    (checkBase table base).Follows start pre (strictBase table base) SameKnown := by
  unfold checkBase strictBase
  cases found : table.lookup? base.name with
  | none => exact follows_refuse ((complains_report _ _).bind_pure _)
  | some symbol =>
    dsimp only
    cases isVariable : symbol.isVariable with
    | true => exact asDeclared_follows _ fun holds => (known holds).lookup? found isVariable
    | false => exact follows_refuse ((complains_mismatch _ _).bind_pure _)

theorem checkField_follows {container : Tag} (real : pre → container.isKnown = true) (field : Ident) :
    (checkField table container field).Follows start pre (strictField table container field)
      SameKnown := by
  unfold checkField strictField
  cases unknown : container.isUnknown with
  | true =>
    refine follows_never (fun _ => le_refl _) fun holds => ?_
    exact absurd unknown (by simp [Tag.isUnknown_of_isKnown (real holds)])
  | false =>
    cases found : table.lookupField? container field.name with
    | some symbol => exact asDeclared_follows _ fun holds => (known holds).lookupField? found
    | none => exact follows_refuse ((complains_report _ _).bind_pure _)

theorem checkCast_follows (begin : pre → n = start) {type : Tag}
    (proper : pre → type.isProper = true) (span : Span) (cast : Option TypeName) :
    (checkCast table n type span cast).Follows start pre (strictCast table type cast) SameProper := by
  cases cast with
  | none => exact follows_return _ proper
  | some target =>
    rw [checkCast, strictCast]
    refine (namedType_follows known target).bind_same fun tag =>
      follows_require_else ((complains_mismatch _ _).bind_pure _) (fun holds => ?_) ?_
    · simp [Tag.isUnknown_of_isKnown holds.2]
    · refine follows_excused (fun holds => begin holds.1.1) fun silent =>
        follows_require (complains_mismatch _ _) (fun holds => ?_)
          (follows_return _ fun holds => Tag.isProper_of_isKnown holds.1.1.1.2)
      simp [holds.2]

theorem checkNew_follows (className : Ident) :
    (checkNew table className).Follows start pre (strictNew table className) SameProper := by
  unfold checkNew strictNew
  cases isClass : table.registry.isClass (table.typeNamed className.name) with
  | true =>
    simp only [isClass, if_true]
    exact follows_return _ fun holds => (known holds).typeNamed _
  | false =>
    simp only [isClass]
    exact follows_refuse ((complains_report _ _).bind_pure _)

end Names

end StackCode
