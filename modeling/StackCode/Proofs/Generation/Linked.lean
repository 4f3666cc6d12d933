import StackCode.Proofs.Generation.Methods

namespace StackCode

open Code Emit

/-- All labels of a method are marked once, its branches go to them, and nothing but a return stands
at its end. -/
structure Code.Method.Linked (method : Method) : Prop where
  marks : ∀ label, method.code.count (.mark label) = if label.number < method.labelCount then 1 else 0
  targets : ∀ instr ∈ method.code, ∀ target, instr.target? = some target →
    target.number < method.labelCount
  nonempty : method.code ≠ []
  ends : method.code.getLast? = some .ret
  goesOn : ∀ before instr rest, method.code = before ++ instr :: rest → instr ≠ .ret → rest ≠ []

theorem getLast?_epilogue (result : Ty) (code : Piece) :
    (code ++ epilogue result code).getLast? = some .ret := by
  unfold epilogue
  split
  · rw [List.append_nil]
    assumption
  · rw [← List.append_assoc, List.getLast?_concat]

theorem Code.Method.linked_of_ends {method : Method}
    (marks : ∀ label, method.code.count (.mark label) =
      if label.number < method.labelCount then 1 else 0)
    (targets : ∀ instr ∈ method.code, ∀ target, instr.target? = some target →
      target.number < method.labelCount) (ends : method.code.getLast? = some .ret) :
    method.Linked where
  marks := marks
  targets := targets
  nonempty := by
    intro empty
    rw [empty] at ends
    cases ends
  ends := ends
  goesOn := by
    rintro before instr rest split other rfl
    rw [split, List.getLast?_concat] at ends
    exact other (Option.some.inj ends)

theorem Env.method_linked {env : Env} {decl : MethodDecl} {method : Method}
    (made : env.method decl = .ok method) : method.Linked := by
  obtain ⟨_, tags, _, result, code, frame, _, _, _, emitted, rfl, _⟩ := Env.method_eq_ok.mp made
  have grows := emitBody_grows rfl emitted
  obtain ⟨entry, _, body, _, _, whole⟩ := emitBody_yields.mp emitted
  refine Code.Method.linked_of_ends ?_ ?_ ?_
  · intro label
    have marks := grows.marks label.number
    simp only [List.count_nil, Nat.zero_add, Nat.zero_le, true_and] at marks
    exact marks
  · intro instr member target branches
    rcases grows.targets instr member target branches with impossible | range
    · cases impossible
    · exact range.2
  · change code.getLast? = some .ret
    rw [whole]
    exact getLast?_epilogue result (entry ++ body)

theorem Code.Class.plain_linked (name : String) (fields : List Slot) :
    (Class.plain name fields).ctor.Linked := by
  refine Code.Method.linked_of_ends (fun label => ?_) (fun instr member target branches => ?_) rfl
  · simp [Class.plain]
  · simp only [Class.plain, List.mem_cons, List.not_mem_nil, or_false] at member
    rcases member with rfl | rfl | rfl <;> cases branches

theorem Env.data_linked {env : Env} {items : List Item} {classes : List Code.Class} {statics : List Slot}
    (found : env.data items = .ok (classes, statics)) : ∀ made ∈ classes, made.ctor.Linked := by
  induction items generalizing classes statics with
  | nil =>
    cases found
    simp
  | cons item rest ih =>
    cases item with
    | classDecl decl =>
      rw [Env.data] at found
      simp only [bind_eq_ok, pure_eq_ok, Prod.exists, Prod.mk.injEq] at found
      obtain ⟨fields, _, others, _, more, rfl, _⟩ := found
      intro made member
      rcases List.mem_cons.mp member with rfl | member
      · exact Class.plain_linked decl.name.name fields
      · exact ih more made member
    | vars decl =>
      rw [Env.data] at found
      simp only [bind_eq_ok, pure_eq_ok, Prod.exists, Prod.mk.injEq] at found
      obtain ⟨_, _, _, _, others, _, more, rfl, _⟩ := found
      exact ih more
    | const decl | method decl => exact ih found

theorem Program.foresees_generate {program : Program} {table : SymbolTable}
    {annotations : Annotations} {entry : String} {cause : Unsupported}
    (fails : program.generate table annotations entry = .error cause) :
    (program.env table annotations).Foresees program.annotated (program.items.flatMap Item.literals)
      cause := by
  rw [Program.generate_eq] at fails
  rcases bind_eq_error.mp fails with fails | ⟨data, _, fails⟩
  · exact Env.foresees_data fails
  rcases bind_eq_error.mp fails with fails | ⟨methods, _, fails⟩
  · exact Env.foresees_methods fails
  · cases fails

/-- Generation never finds a branch without its mark, and in what it generates, a method for each
that is declared, all labels are resolved. -/
theorem Program.generate_resolves_labels (program : Program) (table : SymbolTable)
    (annotations : Annotations) (entry : String) :
    (∀ name, program.generate table annotations entry ≠ .error (.unresolvedBranch name)) ∧
      ∀ built, program.generate table annotations entry = .ok built →
        (∀ method ∈ built.methods, method.Linked) ∧ (∀ made ∈ built.classes, made.ctor.Linked) ∧
          List.Forall₂ (fun decl method => method.name = decl.name.name)
            (program.items.filterMap Item.method?) built.methods := by
  constructor
  · intro name fails
    exact Program.foresees_generate fails
  · intro built generated
    have methods := Program.methods_of_generate generated
    refine ⟨?_, ?_, (Env.methods_made methods).imp fun _ _ made => Env.method_name made⟩
    · intro method member
      obtain ⟨_, _, made⟩ := (Env.mem_methods methods).mp member
      exact Env.method_linked made
    · rw [Program.generate_eq] at generated
      simp only [bind_eq_ok, pure_eq_ok, Prod.exists] at generated
      obtain ⟨classes, statics, found, _, _, rfl⟩ := generated
      exact Env.data_linked found

theorem totals_labels_resolved : ∃ built,
    Sample.totals.generate (Sample.totals.check "Main").table
      (Sample.totals.check "Main").annotations "Main" = .ok built ∧
    (∀ method ∈ built.methods, method.Linked) ∧ (∀ made ∈ built.classes, made.ctor.Linked) ∧
    ∃ sum main, built.methods = [sum, main] ∧ sum.name = "Sum" ∧ main.name = "Main" := by
  obtain ⟨_, built, generated⟩ := Sample.totals_generated
  obtain ⟨linked, ctors, named⟩ := (Program.generate_resolves_labels _ _ _ _).2 built generated
  obtain ⟨sum, _, first, rest, methods⟩ := List.forall₂_cons_left_iff.mp named
  obtain ⟨main, _, second, none, rfl⟩ := List.forall₂_cons_left_iff.mp rest
  obtain rfl := List.forall₂_nil_left_iff.mp none
  exact ⟨built, generated, linked, ctors, sum, main, methods, first, second⟩

end StackCode
