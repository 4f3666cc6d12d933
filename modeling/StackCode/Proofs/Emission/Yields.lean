import Mathlib
import StackCode.Emit.Program

namespace StackCode

open Code

def Frame.withTemp (frame : Frame) (type : Ty) : Frame :=
  { frame with
    locals := frame.locals ++ [⟨s!"$t{frame.tempCount}", type⟩]
    tempCount := frame.tempCount + 1 }

def Frame.bind (scopes : List (List (String × Nat × Tag))) (name : String) (slot : Nat) (tag : Tag) :
    List (List (String × Nat × Tag)) :=
  ((name, slot, tag) :: scopes.headD []) :: scopes.tail

def Frame.withLocal (frame : Frame) (name : String) (type : Ty) (tag : Tag) : Frame :=
  { frame with
    locals := frame.locals ++ [⟨name, type⟩]
    scopes := Frame.bind frame.scopes name frame.locals.length tag }

namespace Emit

variable {α β : Type} {before after : Frame}

def outcome (action : Emit α) (before : Frame) : Except Unsupported α × Frame :=
  action.run.run before

/-- The action succeeds with `a` and turns the frame `before` into `after`. -/
def Yields (action : Emit α) (before : Frame) (a : α) (after : Frame) : Prop :=
  action.outcome before = (.ok a, after)

theorem Yields.unique {x : Emit α} {a b : α} {mid other : Frame} (first : x.Yields before a mid)
    (second : x.Yields before b other) : b = a ∧ other = mid := by
  obtain ⟨same, frames⟩ := Prod.mk.inj (second.symm.trans first)
  exact ⟨Except.ok.inj same, frames⟩

theorem outcome_bind (x : Emit α) (f : α → Emit β) (before : Frame) :
    (x >>= f).outcome before = match x.outcome before with
      | (.ok a, mid) => (f a).outcome mid
      | (.error cause, mid) => (.error cause, mid) := by
  change (match x.outcome before with
    | (result, mid) => (ExceptT.bindCont f result).run mid) = _
  rcases x.outcome before with ⟨_ | a, mid⟩ <;> rfl

theorem yields_bind {x : Emit α} {f : α → Emit β} {b : β} :
    (x >>= f).Yields before b after ↔
      ∃ a mid, x.Yields before a mid ∧ (f a).Yields mid b after := by
  unfold Yields
  rw [outcome_bind]
  rcases x.outcome before with ⟨cause | a, mid⟩ <;> simp

theorem yields_pure {a b : α} :
    (pure a : Emit α).Yields before b after ↔ b = a ∧ after = before := by
  change ((Except.ok a, before) = (Except.ok b, after)) ↔ _
  simp [eq_comm]

theorem yields_map {f : α → β} {x : Emit α} {b : β} :
    (f <$> x).Yields before b after ↔ ∃ a, x.Yields before a after ∧ b = f a := by
  rw [map_eq_pure_bind, yields_bind]
  simp only [yields_pure]
  grind

theorem yields_discard {x : Emit α} {u : PUnit} :
    (discard x).Yields before u after ↔ ∃ a, x.Yields before a after := by
  have unfolded : discard x = (fun _ => PUnit.unit) <$> x := by
    simp only [discard, Functor.discard, LawfulFunctor.map_const]
    rfl
  rw [unfolded, yields_map]
  simp

theorem not_yields_throw {cause : Unsupported} {b : α} :
    ¬ (throw cause : Emit α).Yields before b after := by
  intro h
  change (Except.error cause, before) = (Except.ok b, after) at h
  simp at h

theorem yields_get {b : Frame} :
    (get : Emit Frame).Yields before b after ↔ b = before ∧ after = before := by
  change ((Except.ok before, before) = (Except.ok b, after)) ↔ _
  simp [eq_comm]

theorem yields_modify {f : Frame → Frame} {u : Unit} :
    (modify f : Emit Unit).Yields before u after ↔ after = f before := by
  change ((Except.ok (), f before) = (Except.ok u, after)) ↔ _
  simp [eq_comm]

theorem yields_lift {x : Except Unsupported α} {b : α} :
    (liftM x : Emit α).Yields before b after ↔ x = .ok b ∧ after = before := by
  cases x with
  | error cause =>
    change ((Except.error cause, before) = (Except.ok b, after)) ↔ _
    simp
  | ok a =>
    change ((Except.ok a, before) = (Except.ok b, after)) ↔ _
    simp [eq_comm]

theorem yields_ite {condition : Prop} [Decidable condition] {x y : Emit α} {a : α} :
    (if condition then x else y).Yields before a after ↔
      if condition then x.Yields before a after else y.Yields before a after := by
  split <;> rfl

theorem yields_within {enter leave : Frame → Frame} {action : Emit α} {a : α} :
    (within enter leave action).Yields before a after ↔
      ∃ inner, action.Yields (enter before) a inner ∧ after = leave inner := by
  have unfolded : (within enter leave action).outcome before =
      match action.outcome (enter before) with
      | (result, inner) => (result, leave inner) := rfl
  unfold Yields
  rw [unfolded]
  rcases action.outcome (enter before) with ⟨cause | b, inner⟩ <;> simp [eq_comm]

theorem yields_newLabel {label : Label} :
    newLabel.Yields before label after ↔
      label = ⟨before.labelCount⟩ ∧ after = { before with labelCount := before.labelCount + 1 } := by
  change ((Except.ok _, _) = (Except.ok label, after)) ↔ _
  simp [eq_comm]

theorem yields_newSlot {env : Env} {name : String} {tag : Tag} {slot : Nat} :
    (newSlot env name tag).Yields before slot after ↔
      ∃ type, env.type tag = .ok type ∧ before.locals.length < slotLimit ∧
        slot = before.locals.length ∧
        after = { before with locals := before.locals ++ [⟨name, type⟩] } := by
  unfold newSlot
  rw [yields_bind]
  simp only [yields_get]
  by_cases full : slotLimit ≤ before.locals.length
  · simp [full, not_yields_throw]
  · simp [full, yields_bind, yields_lift, yields_map, yields_modify, not_le.mp full, and_comm]

theorem yields_temp {env : Env} {tag : Tag} {slot : Nat} :
    (temp env tag).Yields before slot after ↔
      ∃ type, env.type tag = .ok type ∧ before.locals.length < slotLimit ∧
        slot = before.locals.length ∧ after = before.withTemp type := by
  unfold temp
  simp only [yields_bind, yields_get, yields_newSlot, yields_modify, yields_pure]
  constructor
  · rintro ⟨_, _, ⟨rfl, rfl⟩, _, _, ⟨type, typed, room, rfl, rfl⟩, _, _, rfl, rfl, rfl⟩
    exact ⟨type, typed, room, rfl, rfl⟩
  · rintro ⟨type, typed, room, rfl, rfl⟩
    exact ⟨_, _, ⟨rfl, rfl⟩, _, _, ⟨type, typed, room, rfl, rfl⟩, (), _, rfl, rfl, rfl⟩

theorem yields_newLocal {env : Env} {name : String} {tag : Tag} {slot : Nat} :
    (newLocal env name tag).Yields before slot after ↔
      ∃ type, env.type tag = .ok type ∧ before.locals.length < slotLimit ∧
        slot = before.locals.length ∧ after = before.withLocal name type tag := by
  unfold newLocal
  simp only [yields_bind, yields_newSlot, yields_modify, yields_pure]
  constructor
  · rintro ⟨_, _, ⟨type, typed, room, rfl, rfl⟩, _, _, rfl, rfl, rfl⟩
    refine ⟨type, typed, room, rfl, ?_⟩
    unfold Frame.withLocal Frame.bind
    cases before.scopes <;> rfl
  · rintro ⟨type, typed, room, rfl, rfl⟩
    refine ⟨_, _, ⟨type, typed, room, rfl, rfl⟩, (), _, rfl, rfl, ?_⟩
    unfold Frame.withLocal Frame.bind
    cases before.scopes <;> rfl

end Emit

end StackCode
