import StackCode.Proofs.Generation.Methods
import StackCode.Proofs.Resolution.Agreement

namespace StackCode

open Checking Code Emit Walk

/-- The check and generation take a name for one declaration: a slot of generation is that of the
very parameter or local that the check finds, a static is its global variable, and a constant has the
value that its declaration gives; where the check finds no variable, generation fails. -/
def SameDeclaration (items : List Item) (declared : List (Nat × Nat)) (table : SymbolTable)
    (name : String) (home : Except Unsupported Home) : Prop :=
  match table.position? name with
  | none => ∃ cause, home = .error cause
  | some id => ∃ symbol, table.history[id]? = some symbol ∧ table.lookup? name = some symbol ∧
    match symbol.site with
    | .param | .localVar => ∃ slot tag, home = .ok (.slot slot tag) ∧ (id, slot) ∈ declared
    | .global => home = .ok (.static name symbol.type)
    | .constant => ∃ decl, Item.const decl ∈ items ∧ decl.name.name = name ∧
      home = .ok (.constant decl.value)
    | _ => ∃ cause, home = .error cause

def Program.walks (program : Program) (checked : CheckState) : List Walk :=
  walkMethods (program.env checked.table checked.annotations) program.items program.declared

theorem walkMethods_uses {env : Env} : ∀ (items : List Item) {methods : List Method} {state : CheckState},
    env.methods items = .ok methods → (walkMethods env items state).map Walk.uses =
      (items.filterMap Item.method?).map fun decl => itemsUses decl.body.items
  | [], _, _, _ => rfl
  | .method decl :: rest, _, state, generated => by
    simp only [Env.methods, bind_eq_ok, pure_eq_ok] at generated
    obtain ⟨method, made, _, others, _⟩ := generated
    obtain ⟨_, _, _, _, _, _, _, listed, _, emitted, _⟩ := Env.method_eq_ok.mp made
    obtain ⟨_, _, _, entered, emitted, _⟩ := emitBody_yields.mp emitted
    have body : (decl.walk env state).uses = itemsUses decl.body.items := by
      rw [MethodDecl.walk, listed]
      exact uses_params (fun _ => walkItems_meets _ emitted) listed entered
    rw [walkMethods, List.map_cons, body, walkMethods_uses rest others]
    rfl
  | .const _ :: rest, _, _, generated | .vars _ :: rest, _, _, generated
  | .classDecl _ :: rest, _, _, generated => walkMethods_uses rest generated

/-- The points of the walks are all: they are those of all places and written types of the methods. -/
theorem Program.walks_uses {program : Program} {checked : CheckState} {entry : String} {built : Module}
    (generated : program.generate checked.table checked.annotations entry = .ok built) :
    (program.walks checked).map Walk.uses =
      (program.items.filterMap Item.method?).map fun decl => itemsUses decl.body.items :=
  walkMethods_uses _ (Program.methods_of_generate generated)

section Global

variable {program : Program} {global : SymbolTable} {name : String}

theorem SymbolTable.meaning?_of_lookup? {table : SymbolTable} {symbol : Symbol}
    (found : table.lookup? name = some symbol) :
    table.sight.meaning? name = some ⟨symbol.type, symbol.kind⟩ := by
  change (table.lookup? name).map _ = _
  rw [found]
  rfl

theorem Program.Declared.lookup_constants_none (declared : program.Declared global)
    (other : ∀ symbol, global.lookup? name = some symbol → symbol.kind ≠ .var true) :
    (constantsOf program.items).lookup name = none := by
  cases found : (constantsOf program.items).lookup name with
  | none => rfl
  | some value =>
    obtain ⟨decl, member, rfl, _⟩ := lookup_constantsOf found
    have meant := declared.gained _ member _ (List.mem_singleton_self _)
    obtain ⟨symbol, looked, meaning⟩ := Option.map_eq_some_iff.mp meant
    exact absurd (congrArg Meaning.kind meaning) (other symbol looked)

theorem Program.Declared.lookup_constants_some (declared : program.Declared global) {symbol : Symbol}
    (found : global.lookup? name = some symbol) (constant : symbol.kind = .var true) :
    ∃ decl, Item.const decl ∈ program.items ∧ decl.name.name = name ∧
      (constantsOf program.items).lookup name = some decl.value := by
  have meant := SymbolTable.meaning?_of_lookup? found
  rw [constant] at meant
  rcases declared.var_cases meant with ⟨decl, member, _, rfl⟩ | ⟨_, _, impossible, _⟩
  · obtain ⟨value, valued⟩ := Option.ne_none_iff_exists'.mp (lookup_constantsOf_ne_none member)
    obtain ⟨other, listed, same, rfl⟩ := lookup_constantsOf valued
    exact ⟨other, listed, same, valued⟩
  · cases impossible

def Env.TakesFor (env : Env) (frame : Frame) (items : List Item) (name : String) :
    Option Symbol → Prop
  | none => ∃ cause, env.home frame name = .error cause
  | some symbol =>
    match symbol.site with
    | .param | .localVar => False
    | .global => env.home frame name = .ok (.static name symbol.type)
    | .constant => ∃ decl, Item.const decl ∈ items ∧ decl.name.name = name ∧
      env.home frame name = .ok (.constant decl.value)
    | _ => ∃ cause, env.home frame name = .error cause

theorem Program.Declared.home {env : Env} {frame : Frame} (outside : program.Declared global)
    (opening : global.Opening) (constants : env.constants = constantsOf program.items)
    (lookup : env.table.lookup? name = global.lookup? name)
    (missing : frame.scopes.findSome? (·.lookup name) = none) :
    env.TakesFor frame program.items name (global.lookup? name) := by
  have valued : ∀ value, (constantsOf program.items).lookup name = some value →
      env.home frame name = .ok (.constant value) := by
    intro value found
    rw [Env.home, missing, constants]
    simp only [found]
  cases looks : global.lookup? name with
  | none =>
    have absent := outside.lookup_constants_none fun symbol found => nomatch looks.symm.trans found
    exact ⟨_, by rw [Env.home, missing, constants, absent, lookup, looks]⟩
  | some symbol =>
    have site := (opening.symbols symbol (List.mem_of_find?_eq_some looks)).2
    have home : symbol.kind ≠ .var true → env.home frame name =
        if symbol.isVariable then .ok (.static name symbol.type)
        else .error (.unresolvedDesignator name) := by
      intro other
      have absent := outside.lookup_constants_none fun found same => by
        cases looks.symm.trans same
        exact other
      rw [Env.home, missing, constants, absent, lookup, looks]
    rw [Env.TakesFor, site]
    cases kind : symbol.kind with
    | var constant =>
      cases constant with
      | true =>
        obtain ⟨decl, member, named, found⟩ := outside.lookup_constants_some looks kind
        exact ⟨decl, member, named, valued decl.value found⟩
      | false =>
        have isVariable : symbol.isVariable = true := by rw [Symbol.isVariable, kind]
        exact (home (by rw [kind]; decide)).trans (if_pos isVariable)
    | method result params =>
      have isVariable : ¬ symbol.isVariable = true := by
        rw [Symbol.isVariable, kind]
        exact Bool.false_ne_true
      exact ⟨_, (home (by rw [kind]; exact SymbolKind.noConfusion)).trans (if_neg isVariable)⟩
    | classType =>
      have isVariable : ¬ symbol.isVariable = true := by rw [Symbol.isVariable, kind]; decide
      exact ⟨_, (home (by rw [kind]; decide)).trans (if_neg isVariable)⟩

theorem Aligned.sameDeclaration {env : Env} {declared : List (Nat × Nat)} {table : SymbolTable}
    {frame : Frame}
    (aligned : Aligned (fun id slot => (id, slot) ∈ declared) global table frame.scopes)
    (opening : global.Opening) (outside : program.Declared global)
    (constants : env.constants = constantsOf program.items)
    (lookup : env.table.lookup? name = global.lookup? name) :
    SameDeclaration program.items declared table name (env.home frame name) := by
  unfold SameDeclaration
  rcases aligned.position name with
    ⟨id, ⟨slot, tag⟩, position, found, symbol, placed, _, isLocal, linked⟩ | ⟨position, same, missing⟩
  · have looked : table.lookup? name = some symbol := by
      rw [SymbolTable.lookup?_eq_position?, position]
      exact placed
    have home : env.home frame name = .ok (.slot slot tag) := by
      rw [Env.home, found]
    have sited := (Bool.and_eq_true_iff.mp isLocal).1
    rw [position, home]
    refine ⟨symbol, placed, looked, ?_⟩
    rcases Bool.or_eq_true_iff.mp sited with site | site <;> rw [beq_iff_eq.mp site] <;>
      exact ⟨slot, tag, rfl, linked⟩
  · have home := outside.home opening constants lookup missing
    have looks := global.lookup?_eq_position? name
    rw [position]
    cases where_ : global.position? name with
    | none =>
      rw [looks, where_] at home
      exact home
    | some id =>
      have bound := opening.recorded.active id (List.mem_of_find?_eq_some where_)
      have placed : global.history[id]? = some global.history[id] := Array.getElem?_eq_getElem bound
      rw [where_, Option.bind_some, placed] at looks
      rw [looks] at home
      refine ⟨_, getElem?_of_longer aligned.history placed, same.trans looks, ?_⟩
      generalize global.history[id] = symbol at home ⊢
      rw [Env.TakesFor] at home
      cases site : symbol.site <;> rw [site] at home <;> first | exact home | exact home.elim

end Global

section Methods

variable {env : Env}

theorem MethodDecl.walk_sound (decl : MethodDecl) {state : CheckState} (recorded : state.table.Recorded)
    (quiet : decl.check.Quiet state) (link : Nat → Nat → Prop) : ∃ hi last,
      (decl.walk env state).Sound link state.table True state.age hi 0 last := by
  unfold MethodDecl.walk
  cases found : env.params decl.params with
  | error cause => exact ⟨0, 0, sound_nil⟩
  | ok params =>
    obtain ⟨each, same, _⟩ := paramSteps_declare env decl.params found
    let begun : CheckState := { state with
      table := state.table.openScope, expectedResult := state.table.resultType decl.result }
    have inside : (do declareParams decl.params; checkItems decl.body.items).Quiet begun := quiet
    obtain ⟨first, rest⟩ := inside.bind (declareParams_grows decl.params) fun _ =>
      (checkItems_follows decl.body.items).grows
    rw [← same] at first rest
    have sound : (declaring (paramSteps env decl.params params.1) begun { scopes := [[]] }
        (walkItems env decl.body.items)).Sound link state.table _ _ _ _ _ :=
      sound_declaring each first (fun after _ => walked_items decl.body.items _ after rest)
        (checkItems_grown _ decl.body.items).age_le
    exact ⟨_, _, sound.mono (fun _ => (aligned_refl recorded).opened)
      ⟨le_refl _, le_refl _, le_refl _, le_refl _⟩⟩

theorem MethodDecl.check_passed (decl : MethodDecl) (state : CheckState) :
    state.Passed (decl.check.outcome state).2 := by
  have checks : decl.check.Checks (itemsAnnotated decl.body.items) CheckState.Passed
    (fun start => start.Outside state.table.sight [] ∧ (Item.method decl).HeadTyped state.table.sight)
    fun facts _ _ => decl.Typed facts state.table.sight := decl.check_checks
  exact (checks state).2.1

theorem mem_walkMethods {walk : Walk} : ∀ {items : List Item} {state : CheckState},
    (checkMethods items).Quiet state → walk ∈ walkMethods env items state →
    ∃ decl before, walk = MethodDecl.walk env decl before ∧ state.table.Extends before.table ∧
      decl.check.Quiet before
  | .method decl :: rest, state, quiet, member => by
    obtain ⟨first, others⟩ := Quiet.bind quiet decl.check_grows fun _ => checkMethods_grows rest
    rcases List.mem_cons.mp member with rfl | member
    · exact ⟨decl, state, rfl, .refl _, first⟩
    · obtain ⟨decl', before, same, longer, quiet'⟩ := mem_walkMethods others member
      exact ⟨decl', before, same, (decl.check_passed state).table.trans longer, quiet'⟩
  | .const _ :: rest, _, quiet, member | .vars _ :: rest, _, quiet, member
  | .classDecl _ :: rest, _, quiet, member => by
    have later : (checkMethods rest).Quiet _ := quiet
    exact mem_walkMethods later member

end Methods

theorem SymbolTable.Extends.lookup? {table later : SymbolTable} (longer : table.Extends later)
    (recorded : table.Recorded) : later.lookup? = table.lookup? := by
  funext name
  rw [SymbolTable.lookup?, longer.visible recorded]
  rfl

theorem Program.check_extends (program : Program) (entry : String) :
    program.declared.table.Extends (program.check entry).table := by
  have checks : (do checkMethods program.items; checkEntry entry program.span).Checks program.annotated
      CheckState.Passed (fun state : CheckState => program.Declared state.table ∧
        state.Outside state.table.sight (state.table.current.map Symbol.name))
      fun facts _ after => program.Accepted after.table facts := program.checkBodies_checks entry
  exact (checks program.declared).2.1.table

/-- Both passes resolve names alike. In a program about which nothing is reported, each parameter and
local of a method has a slot of its own; at every point both passes take every name for the same
declaration; and what is used there is a variable or a type that both know as the same. -/
theorem Program.names_resolve_alike (program : Program) (entry : String)
    (quiet : (program.check entry).errors = #[]) :
    ∀ walk ∈ program.walks (program.check entry),
      walk.declared.Pairwise (fun a b => a.1 ≠ b.1 ∧ a.2 ≠ b.2) ∧
      ∀ spot ∈ walk.spots,
        (∀ name, SameDeclaration program.items walk.declared spot.table name
          ((program.env (program.check entry).table (program.check entry).annotations).home spot.frame
            name)) ∧
        ∀ use ∈ spot.uses, use.Resolves spot.table ∧
          ∀ type, use = .written type →
            (program.check entry).table.typeOf type.name = spot.table.typeOf type.name := by
  intro walk member
  obtain ⟨declares, methods, _⟩ := program.quiet_of_errors quiet
  obtain ⟨_, opening, declared⟩ := program.declared_of_quiet declares
  obtain ⟨decl, before, same, longer, checked⟩ := mem_walkMethods methods member
  have recorded := opening.recorded
  have lookup : (program.check entry).table.lookup? = before.table.lookup? :=
    ((program.check_extends entry).lookup? recorded).trans (longer.lookup? recorded).symm
  obtain ⟨_, _, sound⟩ := decl.walk_sound (recorded.extends longer) checked
    fun id slot => (id, slot) ∈ walk.declared
  rw [← same] at sound
  refine ⟨sound.distinct, fun spot visited => ?_⟩
  obtain ⟨aligned, resolves⟩ := sound.agrees trivial (fun _ listed => listed) spot visited
  refine ⟨fun name => ?_, fun use listed => ⟨resolves use listed, ?_⟩⟩
  · exact aligned.sameDeclaration (opening.extends longer) (declared.extends recorded longer) rfl
      (congrFun lookup name)
  · rintro type rfl
    have known : spot.table.typeOf type.name ≠ .unknown := resolves _ listed
    rw [← aligned.typeOf known]
    have classes : (program.check entry).table.classTag? = before.table.classTag? := by
      funext name
      rw [SymbolTable.classTag?, lookup]
      rfl
    rw [SymbolTable.typeOf, classes]
    rfl

/-- `const int Limit = 3; int total; void Main() { int total; { char Limit; Limit = 'a'; }
total = Limit; }` -/
def Sample.shadows : Program :=
  program [
    .const ⟨⟨"int", {}⟩, ⟨"Limit", {}⟩, .int 3, {}⟩,
    .vars (vars "int" ["total"]),
    method none "Main" [] [
      .var (vars "int" ["total"]),
      .stmt (.block ⟨[
        .var (vars "char" ["Limit"]),
        .stmt (.assign (place "Limit" []) (value (.literal (.char 'a'))) {})], {}⟩),
      .stmt (.assign (place "total" []) (value (load "Limit" [])) {})]]

/-- A local hides the variable, and in the block another hides the constant. -/
theorem shadows_names_resolve : (Sample.shadows.check "Main").errors = #[] ∧
    (Sample.shadows.walks (Sample.shadows.check "Main")).map
      (fun walk => (walk.declared, walk.spots.length)) = [([(3, 0), (4, 1)], 4)] ∧
    ∀ walk ∈ Sample.shadows.walks (Sample.shadows.check "Main"),
      walk.declared.Pairwise (fun a b => a.1 ≠ b.1 ∧ a.2 ≠ b.2) ∧
      ∀ spot ∈ walk.spots,
        (∀ name, SameDeclaration Sample.shadows.items walk.declared spot.table name
          ((Sample.shadows.env (Sample.shadows.check "Main").table
            (Sample.shadows.check "Main").annotations).home spot.frame name)) ∧
        ∀ use ∈ spot.uses, use.Resolves spot.table ∧
          ∀ type, use = .written type →
            (Sample.shadows.check "Main").table.typeOf type.name = spot.table.typeOf type.name :=
  have quiet : (Sample.shadows.check "Main").errors = #[] := by decide +kernel
  ⟨quiet, by decide +kernel, Sample.shadows.names_resolve_alike "Main" quiet⟩

end StackCode
