import StackCode.Proofs.Parallel.Moved
import StackCode.Proofs.Typing.Checks

namespace StackCode

def Diagnostic.moved (place : Span → Span) (d : Diagnostic) : Diagnostic := ⟨d.problem, place d.span⟩

structure Findings where
  errors : List Diagnostic := []
  log : List (NodeId × Tag) := []
  uses : Nat := 0

namespace Findings

def moved (place : Span → Span) (found : Findings) : Findings :=
  { found with errors := found.errors.map (·.moved place) }

def tally (found : Findings) : Nat := found.errors.length + found.uses

end Findings

def Notes.add (notes : Notes) (found : Findings) : Notes where
  errors := notes.errors ++ found.errors
  annotations := notes.annotations.recordAll found.log
  unknownUses := notes.unknownUses + found.uses

theorem Notes.tally_add (notes : Notes) (found : Findings) :
    (notes.add found).tally = notes.tally + found.tally := by
  have size : (notes.errors ++ found.errors).size = notes.errors.size + found.errors.length := by
    simp [← Array.length_toList]
  simp only [Notes.tally, Notes.add, Findings.tally, size]
  omega

/-- Two runs: where they start, and the places of the first as they are in the second. -/
structure Twin where
  place : Span → Span
  first : Notes
  second : Notes
  orElse : ∀ a b : Span, place (a.orElse b) = (place a).orElse (place b)

namespace Twin

variable (twin : Twin)

def Noted (notes other : Notes) : Prop :=
  ∃ found : Findings, notes = twin.first.add found ∧ other = twin.second.add (found.moved twin.place)

def Timed (start start' : Nat) : Prop := start + twin.second.tally = start' + twin.first.tally

variable {α β γ δ : Type}

def Agree (f : Noting α) (g : Noting β) (R : α → β → Prop) : Prop :=
  ∀ notes other, twin.Noted notes other →
    R (f.outcome notes).1 (g.outcome other).1 ∧ twin.Noted (f.outcome notes).2 (g.outcome other).2

variable {twin} {f : Noting α} {g : Noting β} {R S : α → β → Prop}

theorem Noted.timed {notes other : Notes} (noted : twin.Noted notes other) :
    twin.Timed notes.tally other.tally := by
  obtain ⟨found, rfl, rfl⟩ := noted
  rw [Timed, Notes.tally_add, Notes.tally_add, Findings.moved, Findings.tally, Findings.tally]
  simp only [List.length_map]
  omega

theorem Agree.bind {k : α → Noting γ} {l : β → Noting δ} {Q : γ → δ → Prop}
    (first : twin.Agree f g R) (second : ∀ a b, R a b → twin.Agree (k a) (l b) Q) :
    twin.Agree (f >>= k) (g >>= l) Q := by
  intro notes other noted
  obtain ⟨related, after⟩ := first notes other noted
  exact second _ _ related _ _ after

theorem Agree.andThen {f g : Noting α} {k : α → Noting γ} {l : α → Noting δ} {Q : γ → δ → Prop}
    (first : twin.Agree f g Eq) (second : ∀ a, twin.Agree (k a) (l a) Q) :
    twin.Agree (f >>= k) (g >>= l) Q :=
  first.bind fun a _ same => same ▸ second a

theorem agree_pure {a : α} {b : β} (related : R a b) : twin.Agree (pure a) (pure b) R :=
  fun _ _ noted => ⟨related, noted⟩

theorem agree_return (a : α) : twin.Agree (pure a) (pure a) Eq := agree_pure rfl

theorem agree_report (problem : Problem) (span : Span) :
    twin.Agree (Noting.report problem span) (Noting.report problem (twin.place span)) Eq := by
  rintro _ _ ⟨found, rfl, rfl⟩
  have adds : ∀ (notes : Notes) (span : Span), ((Noting.report problem span).outcome notes).2 =
      { notes with errors := notes.errors.push ⟨problem, span⟩ } := fun _ _ => rfl
  refine ⟨rfl, { found with errors := found.errors ++ [⟨problem, span⟩] }, ?_, ?_⟩
  · simp [adds, Notes.add, ← Array.toList_inj]
  · simp [adds, Notes.add, Findings.moved, Diagnostic.moved, ← Array.toList_inj]

theorem agree_mismatch (what : Mismatch) (span : Span) :
    twin.Agree (Noting.mismatch what span) (Noting.mismatch what (twin.place span)) Eq :=
  agree_report _ span

theorem agree_record (id : NodeId) (type : Tag) :
    twin.Agree (Noting.record id type) (Noting.record id type) Eq := by
  rintro _ _ ⟨found, rfl, rfl⟩
  have adds : ∀ notes : Notes, ((Noting.record id type).outcome notes).2 =
      { notes with annotations := notes.annotations.record id type } := fun _ => rfl
  refine ⟨rfl, { found with log := found.log ++ [(id, type)] }, ?_, ?_⟩
  · simp [adds, Notes.add, Annotations.recordAll]
  · simp [adds, Notes.add, Annotations.recordAll, Findings.moved]

theorem agree_asDeclared (type : Tag) :
    twin.Agree (Noting.asDeclared type) (Noting.asDeclared type) Eq := by
  rintro _ _ ⟨found, rfl, rfl⟩
  unfold Noting.asDeclared
  cases type.isUnknown with
  | false => exact ⟨rfl, found, rfl, rfl⟩
  | true => exact ⟨rfl, { found with uses := found.uses + 1 }, rfl, rfl⟩

theorem agree_tally {k : Nat → Noting α} {l : Nat → Noting β}
    (more : ∀ start start', twin.Timed start start' → twin.Agree (k start) (l start') R) :
    twin.Agree (Noting.tally >>= k) (Noting.tally >>= l) R :=
  fun notes other noted => more _ _ noted.timed notes other noted

theorem agree_excused {start start' : Nat} (timed : twin.Timed start start') (types : List Tag) :
    twin.Agree (Noting.excused start types) (Noting.excused start' types) Eq := by
  intro notes other noted
  refine ⟨?_, noted⟩
  change (decide (start < notes.tally) && types.any Tag.isUnknown) =
    (decide (start' < other.tally) && types.any Tag.isUnknown)
  have later := noted.timed
  have same : start < notes.tally ↔ start' < other.tally := by
    simp only [Timed] at timed later
    omega
  rw [decide_eq_decide.mpr same]

theorem agree_ite {condition : Prop} {_ : Decidable condition} {f f' : Noting α} {g g' : Noting β}
    (yes : condition → twin.Agree f g R) (no : ¬ condition → twin.Agree f' g' R) :
    twin.Agree (if condition then f else f') (if condition then g else g') R := by
  split
  · exact yes ‹_›
  · exact no ‹_›

theorem agree_unless {condition : Prop} {_ : Decidable condition} {complaint complaint' : Noting Unit}
    {rest : Unit → Noting α} {rest' : Unit → Noting β} (complains : twin.Agree complaint complaint' Eq)
    (more : twin.Agree (rest ()) (rest' ()) R) :
    twin.Agree (if condition then complaint >>= rest else rest ())
      (if condition then complaint' >>= rest' else rest' ()) R :=
  agree_ite (fun _ => complains.andThen fun _ => more) fun _ => more

theorem Agree.demand {check check' : Noting Tag} (agree : twin.Agree check check' Eq)
    (fits : Tag → Bool) (problem : Tag → Mismatch) (span : Span) :
    twin.Agree (check.demand fits problem span) (check'.demand fits problem (twin.place span)) Eq :=
  agree_tally fun _ _ timed => agree.andThen fun type => (agree_excused timed _).andThen fun _ =>
    agree_unless (agree_mismatch _ _) (agree_return type)

theorem agree_guard {condition : Prop} {_ : Decidable condition} {complaint complaint' : Noting Unit}
    (complains : twin.Agree complaint complaint' Eq) :
    twin.Agree (if condition then complaint else pure ())
      (if condition then complaint' else pure ()) Eq :=
  agree_ite (fun _ => complains) fun _ => agree_return ()

theorem Agree.discard (agree : twin.Agree f g R) : twin.Agree (discard f) (discard g) Eq :=
  fun notes other noted => ⟨rfl, (agree notes other noted).2⟩

end Twin

end StackCode
