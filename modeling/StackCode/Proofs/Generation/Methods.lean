import StackCode.Proofs.Generation.Contract

namespace StackCode

open Code

variable {method : Method} {env : Env}

theorem exists_of_forall₂ {α β : Type} {R : α → β → Prop} {as : List α} {bs : List β} {a : α}
    (all : List.Forall₂ R as bs) (member : a ∈ as) : ∃ b ∈ bs, R a b := by
  induction all with
  | nil => cases member
  | cons related _ ih =>
    rcases List.mem_cons.mp member with rfl | member
    · exact ⟨_, List.mem_cons_self, related⟩
    · obtain ⟨b, listed, found⟩ := ih member
      exact ⟨b, List.mem_cons_of_mem _ listed, found⟩

/-- There is a method for each declaration of one, in their order. -/
theorem Env.methods_made {items : List Item} {methods : List Method}
    (generated : env.methods items = .ok methods) :
    List.Forall₂ (fun decl method => env.method decl = .ok method)
      (items.filterMap Item.method?) methods := by
  induction items generalizing methods with
  | nil =>
    cases generated
    exact .nil
  | cons item rest ih =>
    cases item with
    | method decl =>
      rw [Env.methods] at generated
      simp only [bind_eq_ok, pure_eq_ok] at generated
      obtain ⟨first, found, others, more, rfl⟩ := generated
      exact .cons found (ih more)
    | _ => exact ih generated

variable {decl : MethodDecl} {items : List Item} {methods : List Method}

theorem Env.method_of_methods (generated : env.methods items = .ok methods)
    (member : Item.method decl ∈ items) : ∃ method ∈ methods, env.method decl = .ok method :=
  exists_of_forall₂ (Env.methods_made generated) (mem_filterMap_method?.mpr member)

theorem Env.mem_methods (generated : env.methods items = .ok methods) :
    method ∈ methods ↔ ∃ decl, Item.method decl ∈ items ∧ env.method decl = .ok method := by
  constructor
  · intro member
    obtain ⟨decl, listed, made⟩ := exists_of_forall₂ (Env.methods_made generated).flip member
    exact ⟨decl, mem_filterMap_method?.mp listed, made⟩
  · rintro ⟨decl, member, made⟩
    obtain ⟨other, listed, found⟩ := Env.method_of_methods generated member
    exact Except.ok.inj (found.symm.trans made) ▸ listed

theorem Env.method_name (made : env.method decl = .ok method) : method.name = decl.name.name := by
  obtain ⟨_, _, _, _, _, _, _, _, _, _, rfl, _⟩ := Env.method_eq_ok.mp made
  rfl

theorem Env.params_types {params : List Param} {tags : List (String × Tag)} {slots : List Slot}
    (found : env.params params = .ok (tags, slots)) :
    List.Forall₂ (fun param slot => env.type (env.table.typeOf param.type.name) = .ok slot.type)
      params slots := by
  induction params generalizing tags slots with
  | nil =>
    cases found
    exact .nil
  | cons param params ih =>
    rw [Env.params] at found
    simp only [bind_eq_ok, pure_eq_ok, Prod.exists, Prod.mk.injEq] at found
    obtain ⟨tag, written, type, typed, _, _, others, _, rfl⟩ := found
    refine .cons ?_ (ih others)
    rw [Env.typeOf_of_written written]
    exact typed

variable {program : Program} {table : SymbolTable} {annotations : Annotations} {entry : String}
  {built : Module}

theorem Program.methods_of_generate
    (generated : program.generate table annotations entry = .ok built) :
    (program.env table annotations).methods program.items = .ok built.methods := by
  rw [Program.generate_eq] at generated
  simp only [bind_eq_ok, pure_eq_ok, Prod.exists] at generated
  obtain ⟨classes, statics, _, methods, found, rfl⟩ := generated
  exact found

theorem Program.Declared.method_types (declared : program.Declared table)
    (member : Item.method decl ∈ program.items)
    (made : (program.env table annotations).method decl = .ok method) {tag result : Tag} {params : List Tag}
    (meant : table.sight.meaning? decl.name.name = some ⟨tag, .method result params⟩) :
    (program.env table annotations).type result = .ok method.result ∧
      List.Forall₂ (fun tag slot => (program.env table annotations).type tag = .ok slot.type)
        params method.params := by
  obtain ⟨resultTag, _, slots, type, _, _, returns, taken, typed, _, rfl, _⟩ :=
    Env.method_eq_ok.mp made
  have gained := declared.gained _ member _ (List.mem_singleton_self _)
  rw [meant] at gained
  simp only [Option.some.injEq, Meaning.mk.injEq, SymbolKind.method.injEq] at gained
  obtain ⟨_, rfl, rfl⟩ := gained
  have known : table.sight.resultType decl.result ≠ .unknown := (declared.heads _ member).1
  have tagged : (program.env table annotations).resultTag decl.result =
      .ok (table.sight.resultType decl.result) := Env.resultTag_of_known known
  obtain rfl := Except.ok.inj (tagged.symm.trans returns)
  refine ⟨typed, List.forall₂_map_left_iff.mpr ?_⟩
  refine (Env.params_types taken).imp fun param slot typed => ?_
  rw [table.sight_typeOf]
  exact typed

theorem Program.Declared.method? (declared : program.Declared table)
    (generated : program.generate table annotations entry = .ok built) {name : String}
    {tag result : Tag} {params : List Tag}
    (meant : table.sight.meaning? name = some ⟨tag, .method result params⟩) :
    ∃ method, built.method? name = some method ∧
      (program.env table annotations).type result = .ok method.result ∧
      List.Forall₂ (fun tag slot => (program.env table annotations).type tag = .ok slot.type)
        params method.params := by
  have methods := Program.methods_of_generate generated
  obtain ⟨decl, member, rfl⟩ : ∃ decl, Item.method decl ∈ program.items ∧ decl.name.name = name := by
    rcases declared.only name _ meant with impossible | ⟨item, member, inside⟩
    · cases impossible
    · cases item with
      | method decl =>
        simp only [Sight.meanings, List.mem_singleton, Prod.mk.injEq] at inside
        exact ⟨decl, member, inside.1.symm⟩
      | const | vars | classDecl => simp [Sight.meanings] at inside
  obtain ⟨other, listed, made⟩ := Env.method_of_methods methods member
  -- The first method of that name may come from another declaration of it, with the same types.
  obtain ⟨method, found⟩ : ∃ method, built.method? decl.name.name = some method :=
    Option.isSome_iff_exists.mp (List.find?_isSome.mpr
      ⟨other, listed, by rw [Env.method_name made, beq_self_eq_true]⟩)
  obtain ⟨first, member, made⟩ := (Env.mem_methods methods).mp (List.mem_of_find?_eq_some found)
  have same : method.name = decl.name.name := by simpa using List.find?_some found
  rw [Env.method_name made] at same
  exact ⟨method, found, declared.method_types member made (same ▸ meant)⟩

end StackCode
