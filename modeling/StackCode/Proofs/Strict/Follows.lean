import StackCode.Proofs.Strict.Rules
import StackCode.Proofs.Typing.Findings

namespace StackCode.Noting

variable {α β γ δ : Type}

/-- The check `f` follows the strict check `g`: it never takes a report back; and under `pre`, with
nothing noted since the tally was `start`, it does as `g` does if that accepts, up to `R` on the
results, and reports something if not. -/
structure Follows (f : Noting α) (start : Nat) (pre : Prop) (g : Strict β) (R : α → β → Prop) :
    Prop where
  grows : ∀ notes, notes.errors.size ≤ (f.outcome notes).2.errors.size
  accepted : pre → ∀ notes, notes.tally = start → ∀ b annotations,
    g.run notes.annotations = some (b, annotations) →
      ∃ a, f.outcome notes = (a, { notes with annotations }) ∧ R a b
  refused : pre → ∀ notes, notes.tally = start → g.run notes.annotations = none →
    notes.errors.size < (f.outcome notes).2.errors.size

def Complains (f : Noting α) : Prop :=
  ∀ notes, notes.errors.size < (f.outcome notes).2.errors.size

variable {f : Noting α} {g : Strict β} {start : Nat} {pre : Prop} {R S : α → β → Prop}

theorem complains_report (problem : Problem) (span : Span) : (report problem span).Complains := by
  intro notes
  change notes.errors.size < (notes.errors.push _).size
  rw [Array.size_push]
  omega

theorem complains_mismatch (what : Mismatch) (span : Span) : (mismatch what span).Complains :=
  complains_report _ span

theorem outcome_bind (f : Noting α) (k : α → Noting γ) (notes : Notes) :
    (f >>= k).outcome notes = (k (f.outcome notes).1).outcome (f.outcome notes).2 := rfl

variable {k : α → Noting γ}

namespace Follows

theorem mono (follows : f.Follows start pre g R) (weaker : pre → ∀ a b, R a b → S a b) :
    f.Follows start pre g S where
  grows := follows.grows
  accepted holds notes same b annotations runs := by
    obtain ⟨a, done, related⟩ := follows.accepted holds notes same b annotations runs
    exact ⟨a, done, weaker holds a b related⟩
  refused := follows.refused

theorem of_pre {pre' : Prop} (follows : f.Follows start pre g R) (stronger : pre' → pre) :
    f.Follows start pre' g R :=
  ⟨follows.grows, fun holds => follows.accepted (stronger holds),
    fun holds => follows.refused (stronger holds)⟩

theorem congr {g' : Strict β} (follows : f.Follows start pre g R) (same : pre → g = g') :
    f.Follows start pre g' R :=
  ⟨follows.grows, fun holds => same holds ▸ follows.accepted holds,
    fun holds => same holds ▸ follows.refused holds⟩

theorem bind [Inhabited β] {l : β → Strict δ} {Q : γ → δ → Prop} (first : f.Follows start pre g R)
    (second : ∀ a b, (k a).Follows start (pre ∧ R a b) (l b) Q) :
    (f >>= k).Follows start pre (g >>= l) Q := by
  refine ⟨fun notes => ?_, fun holds notes same b annotations runs => ?_,
    fun holds notes same runs => ?_⟩
  · rw [outcome_bind]
    exact (first.grows notes).trans ((second _ default).grows _)
  · rw [StateT.run_bind] at runs
    obtain ⟨⟨middle, between⟩, ran, runs⟩ := Option.bind_eq_some_iff.mp runs
    obtain ⟨a, done, related⟩ := first.accepted holds notes same middle between ran
    rw [outcome_bind, done]
    exact (second a middle).accepted ⟨holds, related⟩ { notes with annotations := between } same b
      annotations runs
  · rw [StateT.run_bind] at runs
    rw [outcome_bind]
    cases ran : g.run notes.annotations with
    | none => exact (first.refused holds notes same ran).trans_le ((second _ default).grows _)
    | some result =>
      obtain ⟨middle, between⟩ := result
      rw [ran] at runs
      obtain ⟨a, done, related⟩ := first.accepted holds notes same middle between ran
      rw [done]
      exact (second a middle).refused ⟨holds, related⟩ { notes with annotations := between } same runs

theorem bind_same {P : α → Prop} {g : Strict α} {l : α → Strict δ} {Q : γ → δ → Prop}
    (first : f.Follows start pre g fun a b => a = b ∧ P a)
    (second : ∀ a, (k a).Follows start (pre ∧ P a) (l a) Q) : (f >>= k).Follows start pre (g >>= l) Q := by
  -- Whatever the first check finds is there to stand for the result of the other.
  have : Inhabited α := ⟨(f.outcome {}).1⟩
  refine bind first fun a b => ⟨(second a).grows, ?_, ?_⟩
  · rintro ⟨holds, rfl, found⟩
    exact (second a).accepted ⟨holds, found⟩
  · rintro ⟨holds, rfl, found⟩
    exact (second a).refused ⟨holds, found⟩

theorem look {f : Noting γ} {P : γ → Prop} {k : γ → Noting α}
    (reads : ∀ notes, (f.outcome notes).2 = notes)
    (finds : pre → ∀ notes, notes.tally = start → P (f.outcome notes).1)
    (more : ∀ c, (k c).Follows start (pre ∧ P c) g R) : (f >>= k).Follows start pre g R := by
  refine ⟨fun notes => ?_, fun holds notes same => ?_, fun holds notes same => ?_⟩
  · rw [outcome_bind, reads]
    exact (more _).grows notes
  · rw [outcome_bind, reads]
    exact (more _).accepted ⟨holds, finds holds notes same⟩ notes same
  · rw [outcome_bind, reads]
    exact (more _).refused ⟨holds, finds holds notes same⟩ notes same

end Follows

theorem follows_pure (a : α) (b : β) (related : pre → R a b) :
    (pure a : Noting α).Follows start pre (pure b) R where
  grows _ := le_refl _
  accepted holds notes _ b annotations runs := by
    cases runs
    exact ⟨a, rfl, related holds⟩
  refused _ _ _ runs := by cases runs

theorem follows_return {P : α → Prop} (a : α) (found : pre → P a) :
    (pure a : Noting α).Follows start pre (pure a) fun a b => a = b ∧ P a :=
  follows_pure a a fun holds => ⟨rfl, found holds⟩

theorem follows_tally {k : Nat → Noting α}
    (more : ∀ n, (k n).Follows start (pre ∧ n = start) g R) : (tally >>= k).Follows start pre g R :=
  Follows.look (fun _ => rfl) (fun _ _ same => same) more

theorem follows_excused {types : List Tag} {k : Bool → Noting α} {n : Nat}
    (begin : pre → n = start) (more : ∀ silent, (k silent).Follows start (pre ∧ silent = false) g R) :
    (excused n types >>= k).Follows start pre g R := by
  refine Follows.look (fun _ => rfl) (fun holds notes same => ?_) more
  change (decide (n < notes.tally) && types.any Tag.isUnknown) = false
  rw [begin holds, same]
  simp

theorem follows_record (id : NodeId) (type : Tag) :
    (record id type).Follows start pre (Strict.record id type) fun a b => a = b ∧ True where
  grows _ := le_refl _
  accepted _ notes _ b annotations runs := by
    cases runs
    exact ⟨(), rfl, rfl, trivial⟩
  refused _ _ _ runs := by cases runs

theorem follows_never (grows : ∀ notes, notes.errors.size ≤ (f.outcome notes).2.errors.size)
    (never : ¬ pre) : f.Follows start pre g R :=
  ⟨grows, fun holds => (never holds).elim, fun holds => (never holds).elim⟩

theorem follows_refuse (complains : f.Complains) : f.Follows start pre (Strict.refuse : Strict β) R where
  grows notes := (complains notes).le
  accepted _ _ _ _ _ runs := by cases runs
  refused _ notes _ _ := complains notes

theorem Complains.bind (complains : f.Complains)
    (grows : ∀ a notes, notes.errors.size ≤ ((k a).outcome notes).2.errors.size) :
    (f >>= k).Complains := fun notes => (complains notes).trans_le (grows _ _)

theorem Complains.bind_pure (complains : f.Complains) (c : γ) : (f >>= fun _ => pure c).Complains :=
  complains.bind fun _ _ => le_refl _

variable {condition : Prop} {_ : Decidable condition}

theorem follows_require_else {rule : Bool} {instead rest : Noting α} {rest' : Unit → Strict β}
    (complains : instead.Complains) (agree : pre → (condition ↔ rule = false))
    (more : rest.Follows start (pre ∧ rule = true) (rest' ()) R) :
    (if condition then instead else rest).Follows start pre (Strict.require rule >>= rest') R := by
  have runs : ∀ annotations, (Strict.require rule >>= rest').run annotations =
      if rule then (rest' ()).run annotations else none := by
    intro annotations
    cases rule <;> rfl
  refine ⟨fun notes => ?_, fun holds notes same b annotations ran => ?_, fun holds notes same ran => ?_⟩
  · by_cases broken : condition
    · rw [if_pos broken]
      exact (complains notes).le
    · rw [if_neg broken]
      exact more.grows notes
  · rw [runs] at ran
    cases rule with
    | false => cases ran
    | true =>
      rw [if_neg (mt (agree holds).mp (by decide))]
      exact more.accepted ⟨holds, rfl⟩ notes same b annotations ran
  · rw [runs] at ran
    cases rule with
    | false =>
      rw [if_pos ((agree holds).mpr rfl)]
      exact complains notes
    | true =>
      rw [if_neg (mt (agree holds).mp (by decide))]
      exact more.refused ⟨holds, rfl⟩ notes same ran

theorem follows_require {rule : Bool} {complaint : Noting Unit} {rest : Unit → Noting α}
    {rest' : Unit → Strict β} (complains : complaint.Complains) (agree : pre → (condition ↔ rule = false))
    (more : (rest ()).Follows start (pre ∧ rule = true) (rest' ()) R) :
    (if condition then complaint >>= rest else rest ()).Follows start pre
      (Strict.require rule >>= rest') R :=
  follows_require_else (complains.bind fun _ => more.grows) agree more

theorem follows_guard {rule : Bool} {complaint : Noting Unit} (complains : complaint.Complains)
    (agree : pre → (condition ↔ rule = false)) :
    (if condition then complaint else pure ()).Follows start pre (Strict.require rule)
      fun a b => a = b ∧ rule = true := by
  have both : (if condition then complaint >>= fun _ => pure () else pure ()).Follows start pre
      (Strict.require rule >>= fun _ => pure ()) fun a b => a = b ∧ rule = true :=
    follows_require complains agree (follows_return () And.right)
  rwa [bind_pure_unit, bind_pure_unit] at both

theorem require_and (first second : Bool) :
    Strict.require (first && second) = Strict.require first >>= fun _ => Strict.require second := by
  cases first <;> rfl

end StackCode.Noting
