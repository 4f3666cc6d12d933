import StackCode.Proofs.Generation.Sees

namespace StackCode

open Code

def Env.facts (env : Env) : Facts := fun id tag => env.annotations.type? id = some tag

theorem Env.nodeType_of_facts {env : Env} {id : NodeId} {tag : Tag} (noted : env.facts id tag) :
    env.nodeType id = .ok tag := by
  rw [Env.nodeType, show env.annotations.type? id = some tag from noted]

namespace Emit

variable {α β : Type} {frame : Frame}

def Succeeds (action : Emit α) (frame : Frame) : Prop := ∃ a after, action.Yields frame a after

theorem succeeds_pure (a : α) : (pure a : Emit α).Succeeds frame :=
  ⟨a, frame, yields_pure.mpr ⟨rfl, rfl⟩⟩

variable {f : α → Emit β} {x : Emit α}

theorem succeeds_bind : (x >>= f).Succeeds frame ↔ ∃ a mid, x.Yields frame a mid ∧ (f a).Succeeds mid := by
  constructor
  · rintro ⟨b, after, yields⟩
    obtain ⟨a, mid, first, second⟩ := yields_bind.mp yields
    exact ⟨a, mid, first, b, after, second⟩
  · rintro ⟨a, mid, first, b, after, second⟩
    exact ⟨b, after, yields_bind.mpr ⟨a, mid, first, second⟩⟩

theorem succeeds_bind_iff {P Q : Prop} (first : x.Succeeds frame ↔ P)
    (second : ∀ a mid, x.Yields frame a mid → ((f a).Succeeds mid ↔ Q)) :
    (x >>= f).Succeeds frame ↔ P ∧ Q := by
  rw [succeeds_bind, ← first]
  constructor
  · rintro ⟨a, mid, yields, rest⟩
    exact ⟨⟨a, mid, yields⟩, (second a mid yields).mp rest⟩
  · rintro ⟨⟨a, mid, yields⟩, rest⟩
    exact ⟨a, mid, yields, (second a mid yields).mpr rest⟩

theorem succeeds_bind_always (always : ∀ a mid, x.Yields frame a mid → (f a).Succeeds mid) :
    (x >>= f).Succeeds frame ↔ x.Succeeds frame := by
  rw [succeeds_bind]
  exact ⟨fun ⟨a, mid, yields, _⟩ => ⟨a, mid, yields⟩,
    fun ⟨a, mid, yields⟩ => ⟨a, mid, yields, always a mid yields⟩⟩

theorem succeeds_bind_pure {g : α → β} :
    (x >>= fun a => pure (g a)).Succeeds frame ↔ x.Succeeds frame :=
  succeeds_bind_always fun _ _ _ => succeeds_pure _

theorem succeeds_yields {a : α} {mid : Frame} (yields : x.Yields frame a mid) :
    (x >>= f).Succeeds frame ↔ (f a).Succeeds mid := by
  rw [succeeds_bind]
  constructor
  · rintro ⟨b, other, again, rest⟩
    obtain ⟨rfl, rfl⟩ := yields.unique again
    exact rest
  · exact fun rest => ⟨a, mid, yields, rest⟩

theorem succeeds_lift {x : Except Unsupported α} {a : α} (found : x = .ok a) :
    ((liftM x : Emit α) >>= f).Succeeds frame ↔ (f a).Succeeds frame :=
  succeeds_yields (yields_lift.mpr ⟨found, rfl⟩)

theorem not_succeeds_lift {x : Except Unsupported α} (fails : ∀ a, x ≠ .ok a) :
    ¬ ((liftM x : Emit α) >>= f).Succeeds frame := by
  rw [succeeds_bind]
  rintro ⟨a, _, yields, _⟩
  exact fails a (yields_lift.mp yields).1

theorem succeeds_temp {env : Env} {tag : Tag} {type : Ty} {f : Nat → Emit β}
    (typed : env.type tag = .ok type) (room : frame.locals.length < slotLimit) :
    (temp env tag >>= f).Succeeds frame ↔
      (f frame.locals.length).Succeeds (frame.withTemp type) :=
  succeeds_yields (yields_temp.mpr ⟨type, typed, room, rfl, rfl⟩)

theorem succeeds_newLabel {f : Label → Emit β} :
    (newLabel >>= f).Succeeds frame ↔ (f ⟨frame.labelCount⟩).Succeeds (frame.withLabels 1) :=
  succeeds_yields (yields_newLabel.mpr ⟨rfl, rfl⟩)

theorem succeeds_within {enter leave : Frame → Frame} {action : Emit α} :
    (within enter leave action).Succeeds frame ↔ action.Succeeds (enter frame) := by
  constructor
  · rintro ⟨a, _, yields⟩
    obtain ⟨inner, inside, rfl⟩ := yields_within.mp yields
    exact ⟨a, inner, inside⟩
  · rintro ⟨a, inner, yields⟩
    exact ⟨a, leave inner, yields_within.mpr ⟨inner, yields, rfl⟩⟩

end Emit

end StackCode
