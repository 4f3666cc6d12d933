import StackCode.Proofs.Account.Inventory
import StackCode.Proofs.Symbols.Scoping

namespace StackCode

open Checking

def CheckState.depth (state : CheckState) : Nat := state.loopDepth + state.switchDepth

def Notes.misuses (notes : Notes) : List Diagnostic :=
  notes.errors.toList.filter fun d => d.problem.category == .controlFlowMisuse

def Problem.isRedeclaration : Problem → Bool
  | .redeclaration _ => true
  | _ => false

def Problem.isMild (problem : Problem) : Bool :=
  problem.category != .controlFlowMisuse && !problem.isRedeclaration &&
    problem.category != .missingEntryPoint

def strayDiagnostics (spans : List Span) : List Diagnostic := spans.map (⟨.strayBreak, ·⟩)

def Notes.redeclarations (notes : Notes) : List Diagnostic :=
  notes.errors.toList.filter (·.problem.isRedeclaration)

def acceptedOf (sifted : List (Declaration × Bool)) : List Declaration :=
  (sifted.filter (·.2)).map (·.1)

def refusalsOf (sifted : List (Declaration × Bool)) : List Diagnostic :=
  (sifted.filter (!·.2)).map fun entry => ⟨.redeclaration entry.1.name.name, entry.1.name.span⟩

theorem acceptedOf_append (first second : List (Declaration × Bool)) :
    acceptedOf (first ++ second) = acceptedOf first ++ acceptedOf second := by
  rw [acceptedOf, List.filter_append, List.map_append]
  rfl

theorem refusalsOf_append (first second : List (Declaration × Bool)) :
    refusalsOf (first ++ second) = refusalsOf first ++ refusalsOf second := by
  rw [refusalsOf, List.filter_append, List.map_append]
  rfl

namespace Scoping

/-- The symbols of the innermost scope or of a class, the oldest first. -/
def held (scoping : Scoping) : Option String → List Symbol
  | none => scoping.top.reverse
  | some className => scoping.fields className

def decls (scoping : Scoping) (scope : Option String) : List Declaration :=
  (scoping.held scope).map Symbol.declaration

/-- From `before` to `after` a scope comes to accept what is free of `new`. Of what is declared there
and in the scopes that are opened and closed on the way, the history gets what is accepted. -/
structure Fills (scope : Option String) (new : List Declaration) (sifted : List (Declaration × Bool))
    (before after : Scoping) : Prop where
  opened : after.opened ≠ []
  below : after.opened.tail = before.opened.tail
  decls : after.decls scope = new.foldl accept (before.decls scope)
  others : ∀ other, other ≠ scope → after.held other = before.held other
  history : after.history.map Symbol.declaration =
    before.history.map Symbol.declaration ++ acceptedOf sifted

variable {scope : Option String} {new more : List Declaration} {sifted sifted' : List (Declaration × Bool)}
  {a b c scoping : Scoping}

theorem Fills.refl (opened : scoping.opened ≠ []) : Fills scope [] [] scoping scoping :=
  ⟨opened, rfl, rfl, fun _ _ => rfl, (List.append_nil _).symm⟩

theorem Fills.trans (first : Fills scope new sifted a b) (second : Fills scope more sifted' b c) :
    Fills scope (new ++ more) (sifted ++ sifted') a c where
  opened := second.opened
  below := second.below.trans first.below
  decls := by rw [second.decls, first.decls, List.foldl_append]
  others other differs := (second.others other differs).trans (first.others other differs)
  history := by rw [second.history, first.history, acceptedOf_append, List.append_assoc]

end Scoping

def TableStep.declaration? : TableStep → Option (Option String × Declaration)
  | .openScope | .closeScope => none
  | .declareVar name _ _ site decl => some (none, ⟨name, site, decl⟩)
  | .declareMethod name _ _ decl => some (none, ⟨name, .method, decl⟩)
  | .declareClass name decl => some (none, ⟨name, .classDecl, decl⟩)
  | .declareField className name _ decl => some (some className, ⟨name, .field, decl⟩)

namespace Scoping

variable {scope : Option String} {decl : Declaration} {scoping : Scoping}

theorem top_any_eq (name : String) :
    scoping.top.any (·.name == name) = (scoping.decls none).any (·.name.name == name) := by
  rw [decls, held, List.any_map, List.any_reverse]
  rfl

theorem refuses_eq {step : TableStep} (declares : step.declaration? = some (scope, decl)) :
    scoping.refuses step = (scoping.decls scope).any (·.name.name == decl.name.name) := by
  cases step with
  | openScope | closeScope => cases declares
  | declareVar | declareMethod | declareClass =>
    cases declares
    exact top_any_eq _
  | declareField =>
    cases declares
    rw [decls, List.any_map]
    rfl

theorem fills_add (opened : scoping.opened ≠ []) (symbol : Symbol)
    (free : (scoping.decls none).any (·.name.name == symbol.declaration.name.name) = false) :
    Fills none [symbol.declaration] [(symbol.declaration, true)] scoping (scoping.add symbol) := by
  obtain ⟨scope, below, whole⟩ := List.exists_cons_of_ne_nil opened
  have top : (scoping.add symbol).top = symbol :: scoping.top := by
    simp [add, Scoping.top, whole]
  refine ⟨by simp [add, whole], by simp [add, whole], ?_, fun other differs => ?_, ?_⟩
  · rw [decls, held, top, List.reverse_cons, List.map_append, List.foldl_cons, accept]
    exact (if_neg (by rw [free]; simp)).symm
  · cases other with
    | none => exact absurd rfl differs
    | some className => rfl
  · rw [add, List.map_append]
    rfl

theorem fills_apply {step : TableStep} (declares : step.declaration? = some (scope, decl))
    (opened : scoping.opened ≠ [])
    (free : (scoping.decls scope).any (·.name.name == decl.name.name) = false) :
    Fills scope [decl] [(decl, true)] scoping (scoping.apply step) := by
  cases step with
  | openScope | closeScope => cases declares
  | declareVar name type constant site decl =>
    cases declares
    exact fills_add opened (scoping.symbol name type site (.var constant) decl) free
  | declareMethod name result params decl =>
    cases declares
    exact fills_add opened (scoping.symbol name result .method (.method result params) decl) free
  | declareClass name decl =>
    cases declares
    obtain ⟨opened, below, decls, others, history⟩ := fills_add opened (scoping.symbol name
      (scoping.registry.register name.name).1 .classDecl .classType decl) free
    exact ⟨opened, below, decls, others, history⟩
  | declareField className name type decl =>
    cases declares
    refine ⟨opened, rfl, ?_, fun other differs => ?_, ?_⟩
    · rw [List.foldl_cons, accept, List.foldl_nil, if_neg (by rw [free]; simp)]
      simp [decls, held, apply, Scoping.symbol, Symbol.declaration]
    · cases other with
      | none => rfl
      | some other => exact if_neg fun same => differs (congrArg some same)
    · rw [apply, List.map_append]
      rfl

end Scoping

namespace Checking

variable {α β : Type}

/-- The check leaves the depths as they are. Where nothing can be left, it complains about the `break`
statements at `spans`, and never about the entry method; and if it reports nothing, the literals fit. -/
structure Remarks (f : Checking α) (spans : List Span) (literals : List Literal) : Prop where
  loopDepth : ∀ state, (f.outcome state).2.loopDepth = state.loopDepth
  switchDepth : ∀ state, (f.outcome state).2.switchDepth = state.switchDepth
  reports : ∀ state, ∃ more, (f.outcome state).2.errors.toList = state.errors.toList ++ more ∧
    (more.filter fun d => d.problem.category == .controlFlowMisuse) =
      (if state.depth = 0 then strayDiagnostics spans else []) ∧
    (∀ d ∈ more, d.problem.category ≠ .missingEntryPoint) ∧
    (more = [] → ∀ literal ∈ literals, literal.Fits)

/-- Besides, the check declares `new` in a scope; and `told` says what it makes of that and of what it
declares in further scopes, by what the scope has accepted. -/
structure Accounts (f : Checking α) (scope : Option String) (spans : List Span)
    (literals : List Literal) (new : List Declaration)
    (told : List Declaration → List (Declaration × Bool)) : Prop extends f.Remarks spans literals where
  books : ∀ state scoping, state.table.Represents scoping → scoping.opened ≠ [] → ∃ later,
    (f.outcome state).2.table.Represents later ∧
    scoping.Fills scope new (told (scoping.decls scope)) later ∧
    (f.outcome state).2.redeclarations =
      state.redeclarations ++ refusalsOf (told (scoping.decls scope))

def nothing : List Declaration → List (Declaration × Bool) := fun _ => []

variable {f : Checking α} {g : α → Checking β} {scope : Option String} {spans spans' : List Span}
  {literals literals' : List Literal} {new new' : List Declaration}
  {told told' : List Declaration → List (Declaration × Bool)}

theorem Remarks.level (remarks : f.Remarks spans literals) (state : CheckState) :
    (f.outcome state).2.loopDepth = state.loopDepth ∧
      (f.outcome state).2.switchDepth = state.switchDepth :=
  ⟨remarks.loopDepth state, remarks.switchDepth state⟩

theorem Remarks.depth (remarks : f.Remarks spans literals) (state : CheckState) :
    (f.outcome state).2.depth = state.depth := by
  rw [CheckState.depth, remarks.loopDepth, remarks.switchDepth]
  rfl

theorem Remarks.bind (first : f.Remarks spans literals) (second : ∀ a, (g a).Remarks spans' literals') :
    (f >>= g).Remarks (spans ++ spans') (literals ++ literals') := by
  have run (state : CheckState) :
      (f >>= g).outcome state = (g (f.outcome state).1).outcome (f.outcome state).2 := rfl
  refine ⟨fun state => ?_, fun state => ?_, fun state => ?_⟩
  · rw [run, (second _).loopDepth, first.loopDepth]
  · rw [run, (second _).switchDepth, first.switchDepth]
  · obtain ⟨more, added, stray, known, fits⟩ := first.reports state
    obtain ⟨more', added', stray', known', fits'⟩ :=
      (second (f.outcome state).1).reports (f.outcome state).2
    refine ⟨more ++ more', ?_, ?_, List.forall_mem_append.mpr ⟨known, known'⟩, fun none => ?_⟩
    · rw [run, added', added, List.append_assoc]
    · rw [List.filter_append, stray, stray', first.depth]
      split
      · exact List.map_append.symm
      · rfl
    · obtain ⟨none, none'⟩ := List.append_eq_nil_iff.mp none
      exact List.forall_mem_append.mpr ⟨fits none, fits' none'⟩

theorem Accounts.bind (first : f.Accounts scope spans literals new told)
    (second : ∀ a, (g a).Accounts scope spans' literals' new' told') :
    (f >>= g).Accounts scope (spans ++ spans') (literals ++ literals') (new ++ new')
      fun decls => told decls ++ told' (new.foldl accept decls) := by
  refine ⟨first.toRemarks.bind fun a => (second a).toRemarks, fun state scoping represents opened => ?_⟩
  obtain ⟨later, alike, fills, refused⟩ := first.books state scoping represents opened
  obtain ⟨last, alike', fills', refused'⟩ :=
    (second (f.outcome state).1).books (f.outcome state).2 later alike fills.opened
  rw [fills.decls] at fills' refused'
  refine ⟨last, alike', fills.trans fills', ?_⟩
  rw [refusalsOf_append, ← List.append_assoc, ← refused]
  exact refused'

theorem Accounts.after (first : f.Accounts scope [] [] [] nothing)
    (second : ∀ a, (g a).Accounts scope spans literals new told) :
    (f >>= g).Accounts scope spans literals new told :=
  first.bind second

theorem Accounts.then (first : f.Accounts scope spans literals new told)
    (second : ∀ a, (g a).Accounts scope [] [] [] nothing) :
    (f >>= g).Accounts scope spans literals new told := by
  have whole := first.bind second
  rw [List.append_nil, List.append_nil, List.append_nil] at whole
  have same : (fun decls => told decls ++ nothing (new.foldl accept decls)) = told :=
    funext fun decls => List.append_nil _
  rwa [same] at whole

theorem Accounts.discard (accounts : f.Accounts scope spans literals new told) :
    (discard f).Accounts scope spans literals new told :=
  ⟨⟨accounts.loopDepth, accounts.switchDepth, accounts.reports⟩, accounts.books⟩

end Checking

namespace Noting

variable {α : Type} {literals : List Literal}

def Mild (f : Noting α) (literals : List Literal) : Prop :=
  ∀ notes, ∃ more, (f.outcome notes).2.errors.toList = notes.errors.toList ++ more ∧
    (∀ d ∈ more, d.problem.isMild = true) ∧
    (more = [] → ∀ literal ∈ literals, literal.Fits)

theorem Clears.mild {f : Noting α} {table : SymbolTable} {uses : List Use}
    (clears : f.Clears table uses literals) : f.Mild literals := by
  intro notes
  obtain ⟨more, added, known, clear⟩ := clears notes
  refine ⟨more, added, fun d member => ?_, fun none => (clear none).2⟩
  have known := known d member
  cases problem : d.problem <;> rw [problem] at known <;> first | rfl | cases known

theorem Mild.bind {β : Type} {f : Noting α} {g : α → Noting β} (first : f.Mild literals)
    (second : ∀ a, (g a).Mild []) : (f >>= g).Mild literals := by
  intro notes
  obtain ⟨more, added, mild, fits⟩ := first notes
  obtain ⟨more', added', mild', _⟩ := second (f.outcome notes).1 (f.outcome notes).2
  refine ⟨more ++ more', ?_, List.forall_mem_append.mpr ⟨mild, mild'⟩,
    fun none => fits (List.append_eq_nil_iff.mp none).1⟩
  rw [← List.append_assoc, ← added]
  exact added'

theorem mild_report {problem : Problem} (mild : problem.isMild = true) (span : Span) :
    (report problem span).Mild [] :=
  fun _ => ⟨[⟨problem, span⟩], Array.toList_push, List.forall_mem_singleton.mpr mild, fun _ => nofun⟩

end Noting

namespace Checking

variable {α : Type} {f : Checking α} {scope : Option String} {spans : List Span}
  {literals : List Literal} {new : List Declaration}
  {told : List Declaration → List (Declaration × Bool)}

theorem accounts_of_mild (mild : ∀ state, ∃ g : SymbolTable → Noting α,
    f.outcome state = (note g).outcome state ∧ (g state.table).Mild literals) :
    f.Accounts scope [] literals [] nothing := by
  refine ⟨⟨fun state => ?_, fun state => ?_, fun state => ?_⟩, fun state scoping represents opened => ?_⟩ <;>
    obtain ⟨g, run, mild⟩ := mild state <;> obtain ⟨more, added, known, fits⟩ := mild state.toNotes <;>
    simp only [Problem.isMild, Bool.and_eq_true, bne_iff_ne, Bool.not_eq_true'] at known <;> rw [run]
  · rfl
  · rfl
  · refine ⟨more, added, ?_, fun d member => (known d member).2, fits⟩
    rw [List.filter_eq_nil_iff.mpr fun d member => by simpa using (known d member).1.1]
    split <;> rfl
  · refine ⟨scoping, represents, .refl opened, ?_⟩
    have none : more.filter (·.problem.isRedeclaration) = [] :=
      List.filter_eq_nil_iff.mpr fun d member => by simp [(known d member).1.2]
    change (((g state.table).outcome state.toNotes).2.errors.toList.filter _) = _
    rw [added, List.filter_append, none]
    rfl

theorem Clears.accounts {uses : List Use} (clears : f.Clears uses literals) :
    f.Accounts scope [] literals [] nothing := by
  refine accounts_of_mild fun state => ?_
  obtain ⟨g, run, clears⟩ := clears state
  exact ⟨g, run, clears.mild⟩

theorem accounts_report {problem : Problem} (mild : problem.isMild = true) (span : Span) :
    (report problem span).Accounts scope [] [] [] nothing :=
  accounts_of_mild fun _ => ⟨_, rfl, Noting.mild_report mild span⟩

theorem accounts_of_same (same : ∀ state, ∃ expectedResult,
    (f.outcome state).2 = { state with expectedResult }) : f.Accounts scope [] [] [] nothing := by
  refine ⟨⟨fun state => ?_, fun state => ?_, fun state => ⟨[], ?_, ?_, nofun, fun _ => nofun⟩⟩,
    fun state scoping represents opened => ?_⟩ <;> obtain ⟨_, same⟩ := same state
  · rw [same]
  · rw [same]
  · rw [same, List.append_nil]
  · split <;> rfl
  · rw [same]
    exact ⟨scoping, represents, .refl opened, (List.append_nil _).symm⟩

theorem accounts_pure (a : α) : (pure a : Checking α).Accounts scope [] [] [] nothing :=
  accounts_of_same fun _ => ⟨_, rfl⟩

theorem accounts_get : (get : Checking CheckState).Accounts scope [] [] [] nothing :=
  accounts_of_same fun _ => ⟨_, rfl⟩

theorem accounts_introduce {step : TableStep} {decl : Declaration}
    (declares : step.declaration? = some (scope, decl)) :
    (introduce decl.name (·.attempt step)).Accounts scope [] [] [decl] (sift · [decl]) := by
  have outcome (state : CheckState) := outcome_introduce decl.name (·.attempt step) state
  refine ⟨⟨fun state => ?_, fun state => ?_, fun state => ?_⟩, fun state scoping represents opened => ?_⟩
  · rw [outcome]
    split <;> rfl
  · rw [outcome]
    split <;> rfl
  · rw [outcome]
    split
    · exact ⟨[], (List.append_nil _).symm, by split <;> rfl, nofun, fun _ => nofun⟩
    · exact ⟨[⟨.redeclaration decl.name.name, decl.name.span⟩], Array.toList_push, by split <;> rfl,
        List.forall_mem_singleton.mpr nofun, fun _ => nofun⟩
  · have refuses := scoping.refuses_eq declares
    rw [outcome]
    rcases represents.attempt step with ⟨refused, none⟩ | ⟨granted, next, some, alike⟩
    · rw [none]
      rw [refuses] at refused
      refine ⟨scoping, represents, ⟨opened, rfl, ?_, fun _ _ => rfl, ?_⟩, ?_⟩
      · rw [List.foldl_cons, accept, if_pos refused]
        rfl
      · simp [sift, acceptedOf, refused]
      · change ((state.errors.push _).toList.filter _) = _
        rw [Array.toList_push, List.filter_append]
        simp [sift, refusalsOf, refused, Notes.redeclarations, Problem.isRedeclaration]
    · rw [some]
      rw [refuses] at granted
      have sifted : sift (scoping.decls scope) [decl] = [(decl, true)] := by
        simp [sift, granted]
      rw [sifted]
      exact ⟨_, alike, Scoping.fills_apply declares opened granted, (List.append_nil _).symm⟩

section Around

variable {f : Checking Unit}

theorem Accounts.inScope (accounts : f.Accounts none spans literals new told) :
    (do openScope; f; closeScope).Accounts none spans literals [] fun _ => told [] := by
  let inside (state : CheckState) : CheckState := { state with table := state.table.openScope }
  refine ⟨⟨fun state => accounts.loopDepth (inside state), fun state => accounts.switchDepth (inside state),
    fun state => accounts.reports (inside state)⟩, fun state scoping represents opened => ?_⟩
  obtain ⟨later, alike, fills, refused⟩ :=
    accounts.books (inside state) _ represents.openScope (List.cons_ne_nil _ _)
  have same : later.opened.tail = scoping.opened := fills.below
  obtain ⟨isOpen, _⟩ | ⟨_, closed, closes, behind⟩ := alike.attempt .closeScope
  · exact absurd (List.isEmpty_iff.mp isOpen) fills.opened
  · have closes : (f.outcome (inside state)).2.table.closeScope? = some closed := closes
    have table : ((do openScope; f; closeScope : Checking Unit).outcome state).2.table = closed := by
      change (f.outcome (inside state)).2.table.closeScope?.getD _ = _
      rw [closes]
      rfl
    obtain ⟨scope, below, whole⟩ := List.exists_cons_of_ne_nil opened
    have top : (later.apply .closeScope).top = scoping.top := by
      simp [Scoping.apply, Scoping.top, same, whole]
    rw [table]
    refine ⟨_, behind, ⟨same.trans_ne opened, congrArg List.tail same, ?_, fun other differs => ?_,
      fills.history⟩, refused⟩
    · rw [Scoping.decls, Scoping.held, top]
      rfl
    · cases other with
      | none => exact absurd rfl differs
      | some className => exact fills.others (some className) differs

theorem Accounts.deeper (accounts : f.Accounts scope spans literals new told) (loops switches : Nat)
    (some : loops + switches ≠ 0) :
    (do
      modify fun state => { state with
        loopDepth := state.loopDepth + loops, switchDepth := state.switchDepth + switches }
      f
      modify fun state => { state with
        loopDepth := state.loopDepth - loops, switchDepth := state.switchDepth - switches } :
      Checking Unit).Accounts scope [] literals new told := by
  let inside (state : CheckState) : CheckState := { state with
    loopDepth := state.loopDepth + loops, switchDepth := state.switchDepth + switches }
  refine ⟨⟨fun state => ?_, fun state => ?_, fun state => ?_⟩, fun state => accounts.books (inside state)⟩
  · change (f.outcome (inside state)).2.loopDepth - loops = _
    rw [accounts.loopDepth]
    exact Nat.add_sub_cancel _ _
  · change (f.outcome (inside state)).2.switchDepth - switches = _
    rw [accounts.switchDepth]
    exact Nat.add_sub_cancel _ _
  · obtain ⟨more, added, stray, known, fits⟩ := accounts.reports (inside state)
    have inner : (inside state).depth ≠ 0 := by
      simp only [CheckState.depth, inside]
      omega
    rw [if_neg inner] at stray
    exact ⟨more, added, by rw [stray]; split <;> rfl, known, fits⟩

theorem Accounts.inLoop (accounts : f.Accounts scope spans literals new told) :
    (do enterLoop; f; leaveLoop).Accounts scope [] literals new told :=
  accounts.deeper 1 0 one_ne_zero

theorem Accounts.inSwitch (accounts : f.Accounts scope spans literals new told) :
    (do enterSwitch; f; leaveSwitch).Accounts scope [] literals new told :=
  accounts.deeper 0 1 one_ne_zero

end Around

end Checking

end StackCode
