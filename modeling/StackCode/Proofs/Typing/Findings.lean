import StackCode.Proofs.Typing.Rules

namespace StackCode

abbrev Facts := NodeId → Tag → Prop

namespace Annotations

def recordAll (annotations : Annotations) (log : List (NodeId × Tag)) : Annotations :=
  log.foldl (fun annotations entry => annotations.record entry.1 entry.2) annotations

theorem recordAll_append (annotations : Annotations) (first second : List (NodeId × Tag)) :
    annotations.recordAll (first ++ second) = (annotations.recordAll first).recordAll second :=
  List.foldl_append

theorem type?_record (annotations : Annotations) (id other : NodeId) (type : Tag) :
    (annotations.record id type).type? other =
      if id = other then some type else annotations.type? other := by
  rw [type?, record, Std.TreeMap.getElem?_insert]
  simp only [Std.LawfulEqCmp.compare_eq_iff_eq]
  rfl

theorem type?_empty (id : NodeId) : ({} : Annotations).type? id = none :=
  Std.TreeMap.getElem?_emptyc

theorem type?_recordAll_of_notMem {annotations : Annotations} {log : List (NodeId × Tag)}
    {id : NodeId} (absent : id ∉ log.map Prod.fst) :
    (annotations.recordAll log).type? id = annotations.type? id := by
  induction log generalizing annotations with
  | nil => rfl
  | cons entry log ih =>
    rw [List.map_cons, List.mem_cons, not_or] at absent
    change ((annotations.record entry.1 entry.2).recordAll log).type? id = _
    rw [ih absent.2, type?_record, if_neg (Ne.symm absent.1)]

theorem type?_recordAll {annotations : Annotations} {log : List (NodeId × Tag)}
    (once : (log.map Prod.fst).Nodup) {entry : NodeId × Tag} (member : entry ∈ log) :
    (annotations.recordAll log).type? entry.1 = some entry.2 := by
  induction log generalizing annotations with
  | nil => cases member
  | cons first log ih =>
    rw [List.map_cons, List.nodup_cons] at once
    change ((annotations.record first.1 first.2).recordAll log).type? entry.1 = _
    rcases List.mem_cons.mp member with rfl | member
    · rw [type?_recordAll_of_notMem once.1, type?_record, if_pos rfl]
    · exact ih once.2 member

end Annotations

namespace Noting

variable {α β : Type}

def outcome (f : Noting α) (notes : Notes) : α × Notes := f.run notes

/-- The types that a check records from here on, in order: its run is cut into steps that record one, and
others that leave all annotations as they are, wherever they start. -/
inductive Makes : {α : Type} → Noting α → Notes → List (NodeId × Tag) → Prop
  | record (id : NodeId) (type : Tag) (notes : Notes) : Makes (record id type) notes [(id, type)]
  | quiet {α : Type} {f : Noting α} (same : ∀ notes, (f.outcome notes).2.annotations = notes.annotations)
      (notes : Notes) : Makes f notes []
  | bind {α β : Type} {f : Noting α} {g : α → Noting β} {notes : Notes} {log rest : List (NodeId × Tag)}
      (first : Makes f notes log) (second : Makes (g (f.outcome notes).1) (f.outcome notes).2 rest) :
      Makes (f >>= g) notes (log ++ rest)

theorem Makes.annotations_eq {f : Noting α} {notes : Notes} {log : List (NodeId × Tag)}
    (makes : f.Makes notes log) :
    (f.outcome notes).2.annotations = notes.annotations.recordAll log := by
  induction makes with
  | record id type notes => rfl
  | quiet same notes => exact same notes
  | bind first second ih rest =>
    rw [Annotations.recordAll_append, ← ih]
    exact rest

/-- The check records types for the nodes `ids`, and `P` holds of these types and of its result
unless something has been noted. -/
def Finds (f : Noting α) (ids : List NodeId) (P : Facts → α → Prop) : Prop :=
  ∀ notes, notes.tally ≤ (f.outcome notes).2.tally ∧
    ∃ log, f.Makes notes log ∧ log.map Prod.fst = ids ∧
      ((f.outcome notes).2.tally = 0 → ∀ facts : Facts, (∀ entry ∈ log, facts entry.1 entry.2) →
        P facts (f.outcome notes).1)

variable {f : Noting α} {ids ids' : List NodeId} {P Q : Facts → α → Prop}

theorem Finds.mono (finds : f.Finds ids P) (weaker : ∀ facts a, P facts a → Q facts a) :
    f.Finds ids Q := by
  intro notes
  obtain ⟨grows, log, makes, keys, holds⟩ := finds notes
  exact ⟨grows, log, makes, keys, fun quiet facts known => weaker _ _ (holds quiet facts known)⟩

theorem Finds.of_eq (finds : f.Finds ids P) (same : ids = ids') : f.Finds ids' P := same ▸ finds

theorem Finds.bind {g : α → Noting β} {Q : α → Facts → β → Prop} (first : f.Finds ids P)
    (second : ∀ a, (g a).Finds ids' (Q a)) :
    (f >>= g).Finds (ids ++ ids') fun facts b => ∃ a, P facts a ∧ Q a facts b := by
  intro notes
  obtain ⟨grows, log, makes, keys, holds⟩ := first notes
  obtain ⟨grows', log', makes', keys', holds'⟩ := second (f.outcome notes).1 (f.outcome notes).2
  have run : (f >>= g).outcome notes = (g (f.outcome notes).1).outcome (f.outcome notes).2 := rfl
  rw [run]
  refine ⟨grows.trans grows', log ++ log', makes.bind makes', ?_, ?_⟩
  · rw [List.map_append, keys, keys']
  · intro quiet facts known
    rw [List.forall_mem_append] at known
    exact ⟨_, holds (by omega) facts known.1, holds' quiet facts known.2⟩

theorem finds_pure (a : α) : (pure a : Noting α).Finds [] fun _ b => b = a :=
  fun notes => ⟨le_refl _, [], .quiet (fun _ => rfl) notes, rfl, fun _ _ _ => rfl⟩

theorem finds_report (problem : Problem) (span : Span) : (report problem span).Finds [] fun _ _ =>
    False := by
  intro notes
  have size : (report problem span |>.outcome notes).2.tally = notes.tally + 1 := by
    change (notes.errors.push _).size + notes.unknownUses = notes.errors.size + notes.unknownUses + 1
    rw [Array.size_push]
    omega
  exact ⟨by omega, [], .quiet (fun _ => rfl) notes, rfl, fun quiet => by omega⟩

theorem finds_mismatch (what : Mismatch) (span : Span) : (mismatch what span).Finds [] fun _ _ =>
    False :=
  finds_report _ span

theorem finds_tally : tally.Finds [] fun _ _ => True :=
  fun notes => ⟨le_refl _, [], .quiet (fun _ => rfl) notes, rfl, fun _ _ _ => trivial⟩

theorem finds_excused (start : Nat) (types : List Tag) :
    (excused start types).Finds [] fun _ silent => silent = false := by
  intro notes
  refine ⟨le_refl _, [], .quiet (fun _ => rfl) notes, rfl, fun quiet _ _ => ?_⟩
  change (decide (start < notes.tally) && types.any Tag.isUnknown) = false
  have quiet : notes.tally = 0 := quiet
  rw [quiet]
  simp

theorem finds_asDeclared (type : Tag) :
    (asDeclared type).Finds [] fun _ found => found = type ∧ type ≠ .unknown := by
  intro notes
  unfold asDeclared
  cases known : type.isUnknown with
  | true =>
    have size : ((asDeclared type).outcome notes).2.tally = notes.tally + 1 := by
      unfold asDeclared
      rw [known]
      rfl
    unfold asDeclared at size
    rw [known] at size
    exact ⟨by omega, [], .quiet (fun _ => rfl) notes, rfl, fun quiet => by omega⟩
  | false =>
    refine ⟨le_refl _, [], .quiet (fun _ => rfl) notes, rfl, fun _ _ _ => ⟨rfl, ?_⟩⟩
    rintro rfl
    exact absurd known (by decide)

theorem finds_record (id : NodeId) (type : Tag) :
    (record id type).Finds [id] fun facts _ => facts id type := by
  intro notes
  exact ⟨le_refl _, [(id, type)], .record id type notes, rfl, fun _ facts known => known (id, type) (by simp)⟩

theorem Finds.discard (finds : f.Finds ids P) : (discard f).Finds ids fun facts _ => ∃ a, P facts a := by
  intro notes
  obtain ⟨grows, log, makes, keys, holds⟩ := finds notes
  have makes : (Functor.discard f).Makes notes (log ++ []) :=
    makes.bind (g := fun _ => pure PUnit.unit) (.quiet (fun _ => rfl) _)
  exact ⟨grows, log, log.append_nil ▸ makes, keys, fun quiet facts known => ⟨_, holds quiet facts known⟩⟩

variable {complaint : Noting Unit} {condition : Prop} {_ : Decidable condition}

theorem finds_unless {rest : Unit → Noting α} (complains : complaint.Finds [] fun _ _ => False)
    (more : (rest ()).Finds ids P) :
    (if condition then complaint >>= rest else rest ()).Finds ids fun facts a =>
      ¬ condition ∧ P facts a := by
  by_cases holds : condition
  · rw [if_pos holds]
    exact (complains.bind fun _ => more).mono fun _ _ ⟨_, impossible, _⟩ => impossible.elim
  · rw [if_neg holds]
    exact more.mono fun _ _ found => ⟨holds, found⟩

theorem finds_unless_pure (complains : complaint.Finds [] fun _ _ => False) (a : α) :
    (if condition then complaint >>= fun _ => pure a else pure a).Finds [] fun _ b =>
      ¬ condition ∧ b = a :=
  finds_unless complains (finds_pure a)

theorem Finds.demand {check : Noting Tag} {P : Facts → Tag → Prop} (finds : check.Finds ids P)
    (fits : Tag → Bool) (problem : Tag → Mismatch) (span : Span) :
    (check.demand fits problem span).Finds ids fun facts type => P facts type ∧ fits type = true := by
  refine (finds_tally.bind fun start => finds.bind fun type => (finds_excused start [type]).bind
    fun silent => finds_unless_pure (finds_mismatch _ _) type).of_eq (List.append_nil _) |>.mono ?_
  rintro facts _ ⟨_, _, type, found, _, rfl, fine, rfl⟩
  exact ⟨found, by simpa using fine⟩

theorem finds_guard (complains : complaint.Finds [] fun _ _ => False) :
    (if condition then complaint else pure ()).Finds [] fun _ _ => ¬ condition := by
  by_cases holds : condition
  · rw [if_pos holds]
    exact complains.mono fun _ _ impossible => impossible.elim
  · rw [if_neg holds]
    exact (finds_pure ()).mono fun _ _ _ => holds

theorem finds_complaint {rest : Unit → Noting α} (complains : complaint.Finds [] fun _ _ => False)
    (more : (rest ()).Finds [] fun _ _ => True) : (complaint >>= rest).Finds [] P :=
  (complains.bind fun _ => more).mono fun _ _ ⟨_, impossible, _⟩ => impossible.elim

end Noting

end StackCode
