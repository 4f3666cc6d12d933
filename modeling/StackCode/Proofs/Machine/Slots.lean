import StackCode.Proofs.Machine.Flat

namespace StackCode

open Code

theorem Number.Format.single_finite_pos : 0 < Number.Format.single.finite := by decide

theorem Number.Format.double_finite_pos : 0 < Number.Format.double.finite := by decide

namespace Platform

/-- The value that an element of a list has at first, and that a method gives that runs off its end. -/
def zero (P : Platform) : Ty → Value P.Data
  | .int32 | .char | .bool => .word 0
  | .float32 => .data (P.single (.finite (Number.Finite.zero Number.Format.single_finite_pos)))
  | .float64 => .data (P.double (Number.Finite.zero Number.Format.double_finite_pos))
  | .string | .classType _ | .list _ | .void => .data P.null

variable {P : Platform} {α β : Type}

def State.keep (state : P.State) (slot : Nat) (value : Value P.Data) : P.State :=
  { state with locals := Function.update state.locals slot value }

@[simp]
theorem State.keep_locals_self (state : P.State) (slot : Nat) (value : Value P.Data) :
    (state.keep slot value).locals slot = value := by
  simp [State.keep]

theorem State.keep_locals_of_ne (state : P.State) {slot other : Nat} (value : Value P.Data)
    (different : other ≠ slot) : (state.keep slot value).locals other = state.locals other := by
  simp [State.keep, different]

def Action.Keeps (action : P.Action α) : Prop :=
  ∀ state a state', action state = some (a, state') → state'.locals = state.locals

theorem serving_eq (service : Service) (args : List (Value P.Data)) (state : P.State) :
    P.serving service args state = (P.serve service args state.world).map fun given =>
      (given.1, { state with world := given.2 }) := by
  change Option.bind (Option.bind (P.serve service args state.world) fun given => some (given, state))
    _ = _
  cases P.serve service args state.world <;> rfl

namespace Action

theorem keeps_pure (a : α) : Keeps (P := P) (pure a) := by
  intro state b state' acts
  cases acts
  rfl

theorem keeps_failure : Keeps (failure : P.Action α) := by
  intro state a state' acts
  cases acts

theorem keeps_get : Keeps (P := P) get := by
  intro state a state' acts
  cases acts
  rfl

theorem keeps_lift (result : Option α) : Keeps (liftM result : P.Action α) := by
  intro state a state' acts
  cases result with
  | none => cases acts
  | some b =>
    cases acts
    rfl

theorem Keeps.bind {first : P.Action α} {second : α → P.Action β} (keeps : first.Keeps)
    (goesOn : ∀ a, (second a).Keeps) : (first >>= second).Keeps := by
  intro state b state' acts
  change (first state).bind (fun given => second given.1 given.2) = some (b, state') at acts
  obtain ⟨⟨a, mid⟩, begins, acts⟩ := Option.bind_eq_some_iff.mp acts
  exact (goesOn a mid b state' acts).trans (keeps state a mid begins)

theorem keeps_serving (service : Service) (args : List (Value P.Data)) :
    Keeps (P.serving service args) := by
  intro state value state' acts
  rw [serving_eq] at acts
  obtain ⟨_, _, same⟩ := Option.map_eq_some_iff.mp acts
  cases same
  rfl

theorem keeps_result (gives : Bool) (service : Service) (args : List (Value P.Data)) :
    Keeps (P.result gives service args) :=
  (keeps_serving service args).bind fun _ => keeps_pure _

theorem keeps_sameTexts (a b : Value P.Data) : Keeps (P.sameTexts a b) := by
  unfold sameTexts
  split
  · exact keeps_get.bind fun _ => keeps_lift _
  · exact keeps_failure

theorem keeps_act {built : Module} {instr : Instr} (other : ∀ slot, instr ≠ .stloc slot)
    (operands : List (Value P.Data)) : Keeps (P.act built instr operands) := by
  unfold act
  split <;> first
    | exact keeps_pure _
    | exact keeps_failure
    | exact keeps_result _ _ _
    | exact (keeps_lift _).bind fun _ => keeps_pure _
    | exact keeps_get.bind fun _ => keeps_pure _
    | exact keeps_get.bind fun _ => (keeps_lift _).bind fun _ => keeps_pure _
    | exact (keeps_sameTexts _ _).bind fun _ => keeps_pure _
    | exact absurd rfl (other _)

end Action

variable {built : Module} {whole : Piece} {slot : Nat}

theorem step_locals {instr : Instr} {stack stack' : List (Value P.Data)} {state state' : P.State}
    (other : instr ≠ .stloc slot)
    (acts : P.step built instr (stack, state) = some (stack', state')) :
    state'.locals slot = state.locals slot := by
  rw [step] at acts
  split at acts
  · obtain ⟨⟨top, _⟩, acts, same⟩ := Option.map_eq_some_iff.mp acts
    cases same
    by_cases store : ∃ target, instr = .stloc target
    · obtain ⟨target, rfl⟩ := store
      cases stack with
      | nil => cases acts
      | cons value rest =>
        cases acts
        exact Function.update_of_ne (fun same => other (by rw [same])) _ _
    · have keeps : Action.Keeps (P.act built instr (stack.take instr.operands)) :=
        Action.keeps_act (fun target same => store ⟨target, same⟩) _
      rw [keeps state top state' acts]
  · cases acts

theorem next_locals {config next : P.Config} (absent : .stloc slot ∉ whole)
    (located : config.rest <:+ whole) (steps : P.next built whole config = some next) :
    next.state.locals slot = config.state.locals slot := by
  obtain ⟨rest, stack, state⟩ := config
  cases rest with
  | nil => cases steps
  | cons instr rest =>
    rw [Platform.next] at steps
    split at steps
    · obtain ⟨_, acts, rfl⟩ := Option.map_eq_some_iff.mp steps
      refine step_locals ?_ acts
      rintro rfl
      exact absent (located.subset List.mem_cons_self)
    · obtain ⟨_, _, rfl⟩ := Option.map_eq_some_iff.mp steps
      rfl

theorem Reaches.locals {config final : P.Config} (absent : .stloc slot ∉ whole)
    (located : config.rest <:+ whole) (reaches : P.Reaches built whole config final) :
    final.state.locals slot = config.state.locals slot := by
  have kept : final.rest <:+ whole ∧ final.state.locals slot = config.state.locals slot := by
    induction reaches with
    | refl => exact ⟨located, rfl⟩
    | tail _ steps ih =>
      exact ⟨next_suffix ih.1 steps, (next_locals absent ih.1 steps).trans ih.2⟩
  exact kept.2

end Platform

end StackCode
