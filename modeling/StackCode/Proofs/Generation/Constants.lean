import StackCode.Proofs.Account.Statements
import StackCode.Proofs.Generation.Linked

namespace StackCode

open Code

theorem Program.mem_literals {program : Program} {table : SymbolTable} {annotations : Annotations}
    {literal : Literal} (among : literal ∈ program.items.flatMap Item.literals ∨
      literal ∈ (program.env table annotations).constants.map Prod.snd) : literal ∈ program.literals := by
  rw [Program.literals, List.mem_append]
  rcases among with inside | constant
  · exact .inr inside
  · obtain ⟨⟨name, value⟩, listed, rfl⟩ := List.mem_map.mp constant
    obtain ⟨decl, member, _, rfl⟩ := mem_constantsOf.mp listed
    exact .inl (List.mem_flatMap.mpr ⟨_, member, List.mem_singleton_self _⟩)

theorem Env.params_names {env : Env} {params : List Param} {tags : List (String × Tag)}
    {slots : List Slot} (found : env.params params = .ok (tags, slots)) :
    tags.map Prod.fst = params.map (·.name.name) := by
  induction params generalizing tags slots with
  | nil =>
    cases found
    rfl
  | cons param params ih =>
    rw [Env.params] at found
    simp only [bind_eq_ok, pure_eq_ok, Prod.exists, Prod.mk.injEq] at found
    obtain ⟨tag, _, type, _, others, more, rest, rfl, _⟩ := found
    rw [List.map_cons, List.map_cons, ih rest]

theorem Env.method_tokens {env : Env} {decl : MethodDecl} {method : Method}
    (made : env.method decl = .ok method) : ∃ body,
      method.code = body ++ epilogue method.result body ∧ tokens body = decl.tokens env.constants := by
  obtain ⟨_, tags, _, result, code, frame, _, named, _, emitted, rfl, _⟩ := Env.method_eq_ok.mp made
  obtain ⟨entry, mid, body, moved, items, rfl⟩ := emitBody_yields.mp emitted
  obtain ⟨grows, _, silent, hides⟩ : Frame.Grows [] [] _ _ _ _ ∧ _ := emitParams_grows moved
  obtain ⟨_, _, told⟩ := emitItems_grows decl.body.items
    (by rw [grows.breaks]; exact List.Subset.refl _) items
  refine ⟨entry ++ body, rfl, ?_⟩
  rw [tokens_append, silent, List.nil_append, told, hides, MethodDecl.tokens]
  congr 1
  funext name
  have names := congrArg (List.any · (· == name)) (Env.params_names named)
  simpa [Frame.hides, List.any_map, Function.comp_def] using names

/-- In a program without problems every literal fits; the integer `2147483648` is the only factor of
the first term behind a minus sign, wherever it is. No constant stands in the way of generation, and
what is generated has a method for each that is declared, whose code loads the words that the tree of
the declaration tells of: the values of its literals, of its labels and of the constants that it names,
and the least integer with its sign. -/
theorem Program.constants_loaded_exactly (program : Program) (entry : String)
    (clean : (program.check entry).errors = #[]) :
    (∀ literal ∈ program.literals, literal.Fits ∧ literal ≠ .int 2147483648) ∧
    (∀ neg cast head, isLeastInt neg cast head = true ↔ neg = true ∧ cast = none ∧ head.tail = [] ∧
      head.head.kind = .literal (.int 2147483648)) ∧
    ∀ table annotations name,
      (∀ cause, program.generate table annotations name = .error cause →
        (∀ n, cause ≠ .intRange n) ∧ cause ≠ .widthRange) ∧
      ∀ built, program.generate table annotations name = .ok built →
        List.Forall₂ (fun decl method => method.name = decl.name.name ∧
            ∃ body, method.code = body ++ epilogue method.result body ∧
              tokens body = decl.tokens (constantsOf program.items))
          (program.items.filterMap Item.method?) built.methods := by
  have fit := (program.check_remarks entry).2 clean
  refine ⟨fun literal member => ⟨fit literal member, ?_⟩, fun _ _ _ => isLeastInt_iff,
    fun table annotations name => ⟨fun cause fails => ?_, fun built generated => ?_⟩⟩
  · rintro rfl
    exact absurd (fit _ member) (by simp [Literal.Fits, fitsInt32])
  · have foreseen := Program.foresees_generate fails
    constructor
    · rintro n rfl
      obtain ⟨literal, among, broken⟩ := foreseen
      exact broken (fit literal (Program.mem_literals among))
    · rintro rfl
      obtain ⟨literal, among, broken⟩ := foreseen
      exact broken (fit literal (Program.mem_literals among))
  · refine (Env.methods_made (Program.methods_of_generate generated)).imp fun decl method made => ?_
    exact ⟨Env.method_name made, Env.method_tokens made⟩

theorem totals_constants_loaded : (Sample.totals.check "Main").errors = #[] ∧ ∃ built,
    Sample.totals.generate (Sample.totals.check "Main").table
      (Sample.totals.check "Main").annotations "Main" = .ok built ∧
    ∃ sum main body, built.methods = [sum, main] ∧ main.name = "Main" ∧
      main.code = body ++ epilogue main.result body ∧
      tokens body = [.word 1, .word 2, .word (-2147483648), .word 0, .word 1, .word 1] := by
  have clean := Sample.totals_accepted.2.1
  obtain ⟨_, built, generated⟩ := Sample.totals_generated
  have loaded := ((Program.constants_loaded_exactly _ _ clean).2.2 _ _ _).2 built generated
  obtain ⟨sum, _, _, rest, methods⟩ := List.forall₂_cons_left_iff.mp loaded
  obtain ⟨main, _, ⟨named, body, whole, told⟩, none, rfl⟩ := List.forall₂_cons_left_iff.mp rest
  obtain rfl := List.forall₂_nil_left_iff.mp none
  refine ⟨clean, built, generated, sum, main, body, methods, named, whole, told.trans ?_⟩
  decide +kernel

end StackCode
