import StackCode.Proofs.Generation.Linked

namespace StackCode

namespace Annotations

theorem count_record {annotations : Annotations} {id : NodeId} (fresh : annotations.type? id = none)
    (type : Tag) : (annotations.record id type).count = annotations.count + 1 := by
  have absent : ¬ annotations.types.contains id = true := by
    rw [Std.TreeMap.contains_eq_isSome_getElem?, show annotations.types[id]? = none from fresh]
    simp
  rw [count, record, Std.TreeMap.size_insert, if_neg absent]
  rfl

theorem count_recordAll {annotations : Annotations} {log : List (NodeId × Tag)}
    (once : (log.map Prod.fst).Nodup)
    (fresh : ∀ id ∈ log.map Prod.fst, annotations.type? id = none) :
    (annotations.recordAll log).count = annotations.count + log.length := by
  induction log generalizing annotations with
  | nil => rfl
  | cons entry log ih =>
    rw [List.map_cons, List.nodup_cons] at once
    rw [List.map_cons, List.forall_mem_cons] at fresh
    have others : ∀ id ∈ log.map Prod.fst, (annotations.record entry.1 entry.2).type? id = none := by
      intro id member
      have different : entry.1 ≠ id := fun same => once.1 (same ▸ member)
      rw [type?_record, if_neg different]
      exact fresh.2 id member
    change ((annotations.record entry.1 entry.2).recordAll log).count = _
    rw [ih once.2 others, count_record fresh.1, List.length_cons]
    omega

theorem isSome_type?_recordAll {log : List (NodeId × Tag)} (once : (log.map Prod.fst).Nodup)
    (id : NodeId) :
    (((({} : Annotations).recordAll log).type? id).isSome = true) ↔ id ∈ log.map Prod.fst := by
  constructor
  · intro known
    by_contra absent
    rw [type?_recordAll_of_notMem absent, type?_empty] at known
    cases known
  · intro member
    obtain ⟨entry, listed, rfl⟩ := List.mem_map.mp member
    rw [type?_recordAll once listed]
    rfl

end Annotations

theorem Program.mem_annotated {program : Program} (distinct : (nodeIds program.nodes).Nodup)
    (id : NodeId) : id ∈ program.annotated ↔
      id ∈ nodeIds program.nodes ∧ id ∉ nodeIds program.callees := by
  have disjoint : program.annotated.Disjoint (nodeIds program.callees) :=
    (List.nodup_append'.mp (program.perm_annotated.nodup_iff.mpr distinct)).2.2
  rw [← program.perm_annotated.mem_iff, List.mem_append]
  constructor
  · intro typed
    exact ⟨.inl typed, fun called => disjoint typed called⟩
  · rintro ⟨typed | called, other⟩
    · exact typed
    · exact absurd called other

/-- The nodes that have a type behind a check, with errors or without, are all but those of callees;
each is recorded once, and generation misses none of them. -/
theorem Program.annotations_cover_tree (program : Program) (entry : String)
    (numbered : program.IsNumbered) :
    (∃ log, (program.checking entry).Makes {} log ∧
        (program.check entry).annotations = ({} : Annotations).recordAll log ∧
        log.map Prod.fst = program.annotated) ∧ program.annotated.Nodup ∧
      (∀ id, ((program.check entry).annotations.type? id).isSome = true ↔
        id ∈ nodeIds program.nodes ∧ id ∉ nodeIds program.callees) ∧
      (program.check entry).annotations.count + program.callees.length = program.nodes.length ∧
      ∀ id, program.generate (program.check entry).table (program.check entry).annotations entry ≠
        .error (.untypedNode id) := by
  obtain ⟨log, makes, keys, _⟩ := program.check_records entry
  have recorded : (program.check entry).annotations = ({} : Annotations).recordAll log :=
    makes.annotations_eq
  have once : (log.map Prod.fst).Nodup := keys ▸ Program.annotated_nodup numbered.nodup
  have known : ∀ id, ((program.check entry).annotations.type? id).isSome = true ↔
      id ∈ program.annotated := by
    intro id
    rw [recorded, Annotations.isSome_type?_recordAll once, keys]
  refine ⟨⟨log, makes, recorded, keys⟩, Program.annotated_nodup numbered.nodup, ?_, ?_, ?_⟩
  · intro id
    rw [known, Program.mem_annotated numbered.nodup]
  · have total := program.perm_annotated.length_eq
    rw [List.length_append, length_nodeIds, length_nodeIds] at total
    have count : (program.check entry).annotations.count = program.annotated.length := by
      rw [recorded, Annotations.count_recordAll once fun id _ => Annotations.type?_empty id, ← keys,
        List.length_map]
      exact Nat.zero_add _
    rw [count, total]
  · intro id fails
    obtain ⟨listed, absent⟩ := Program.foresees_generate fails
    have found := (known id).mpr listed
    rw [show (program.check entry).annotations.type? id = none from absent] at found
    cases found

namespace Sample

/-- `void Main() { xs[F(2)](); }`, a call the callee of which has a call in it; nothing of it is
declared. -/
def strayCall : Program :=
  program [method none "Main" [] [
    .stmt (.call (place "xs" [.index (value (call "F" [value (int 2)]))]) [value (int 1)] {})]]

end Sample

theorem strayCall_covered : Sample.strayCall.IsNumbered ∧
    (Sample.strayCall.check "Main").errors ≠ #[] ∧
    (Sample.strayCall.check "Main").annotations.count + 8 = 11 ∧
    ∀ id, ((Sample.strayCall.check "Main").annotations.type? id).isSome = true ↔
      id ∈ nodeIds Sample.strayCall.nodes ∧ id ∉ nodeIds Sample.strayCall.callees := by
  have numbered : Sample.strayCall.IsNumbered := Sample.isNumbered (by decide +kernel)
  have sizes : Sample.strayCall.callees.length = 8 ∧ Sample.strayCall.nodes.length = 11 := by
    decide +kernel
  obtain ⟨_, _, known, count, _⟩ := Program.annotations_cover_tree Sample.strayCall "Main" numbered
  rw [sizes.1, sizes.2] at count
  exact ⟨numbered, by decide +kernel, count, known⟩

end StackCode
