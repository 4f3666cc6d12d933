import StackCode.Proofs.Typing.Scopes

namespace StackCode

open Noting

structure CheckState.Kept (before after : CheckState) : Prop where
  table : before.table.Extends after.table
  loopDepth : after.loopDepth = before.loopDepth
  switchDepth : after.switchDepth = before.switchDepth
  expectedResult : after.expectedResult = before.expectedResult

structure CheckState.Grown (before after : CheckState) : Prop where
  registry : after.table.registry = before.table.registry
  fields : after.table.fields = before.table.fields
  active : before.table.active <:+ after.table.active
  boundaries : after.table.boundaries = before.table.boundaries
  history : before.table.history.toList <+: after.table.history.toList
  loopDepth : after.loopDepth = before.loopDepth
  switchDepth : after.switchDepth = before.switchDepth
  expectedResult : after.expectedResult = before.expectedResult

namespace CheckState

variable {a b c : CheckState}

theorem Kept.refl (state : CheckState) : state.Kept state := ⟨.refl _, rfl, rfl, rfl⟩

theorem Kept.trans (first : a.Kept b) (second : b.Kept c) : a.Kept c :=
  ⟨first.table.trans second.table, second.loopDepth.trans first.loopDepth,
    second.switchDepth.trans first.switchDepth, second.expectedResult.trans first.expectedResult⟩

theorem Kept.grown (kept : a.Kept b) : a.Grown b :=
  ⟨kept.table.registry, kept.table.fields, kept.table.active ▸ List.suffix_refl _,
    kept.table.boundaries, kept.table.history, kept.loopDepth, kept.switchDepth, kept.expectedResult⟩

theorem Grown.trans (first : a.Grown b) (second : b.Grown c) : a.Grown c :=
  ⟨second.registry.trans first.registry, second.fields.trans first.fields,
    first.active.trans second.active, second.boundaries.trans first.boundaries,
    first.history.trans second.history, second.loopDepth.trans first.loopDepth,
    second.switchDepth.trans first.switchDepth, second.expectedResult.trans first.expectedResult⟩

structure At (state : CheckState) (sight : Sight) (taken : List String) (leavable : Bool)
    (result : Tag) : Prop where
  shows : state.table.Shows sight taken
  leavable : leavable = true ↔ 0 < state.loopDepth + state.switchDepth
  expected : state.expectedResult = result
  known : result ≠ .unknown

variable {sight : Sight} {taken : List String} {leavable : Bool} {result : Tag}

theorem At.kept (here : a.At sight taken leavable result) (kept : a.Kept b) :
    b.At sight taken leavable result where
  shows := here.shows.extends kept.table
  leavable := by rw [kept.loopDepth, kept.switchDepth]; exact here.leavable
  expected := kept.expectedResult.trans here.expected
  known := here.known

end CheckState

namespace Checking

variable {α β : Type}

def outcome (f : Checking α) (state : CheckState) : α × CheckState := f.run state

@[inherit_doc Noting.Makes]
inductive Makes : {α : Type} → Checking α → CheckState → List (NodeId × Tag) → Prop
  | note {α : Type} {f : SymbolTable → Noting α} {state : CheckState} {log : List (NodeId × Tag)}
      (makes : (f state.table).Makes state.toNotes log) : Makes (note f) state log
  | quiet {α : Type} {f : Checking α} (same : ∀ state, (f.outcome state).2.annotations = state.annotations)
      (state : CheckState) : Makes f state []
  | bind {α β : Type} {f : Checking α} {g : α → Checking β} {state : CheckState}
      {log rest : List (NodeId × Tag)} (first : Makes f state log)
      (second : Makes (g (f.outcome state).1) (f.outcome state).2 rest) : Makes (f >>= g) state (log ++ rest)

theorem Makes.annotations_eq {f : Checking α} {state : CheckState} {log : List (NodeId × Tag)}
    (makes : f.Makes state log) :
    (f.outcome state).2.annotations = state.annotations.recordAll log := by
  induction makes with
  | note makes => exact makes.annotations_eq
  | quiet same state => exact same state
  | bind first second ih rest =>
    rw [Annotations.recordAll_append, ← ih]
    exact rest

/-- Steps before and behind that leave the annotations as they are. -/
theorem Makes.within {f before after : Checking Unit} {state : CheckState} {log : List (NodeId × Tag)}
    (makes : f.Makes (before.outcome state).2 log)
    (first : ∀ state, (before.outcome state).2.annotations = state.annotations)
    (last : ∀ state, (after.outcome state).2.annotations = state.annotations) :
    (do before; f; after).Makes state log := by
  have whole := (quiet first state).bind (g := fun _ => f >>= fun _ => after)
    (makes.bind (g := fun _ => after) (quiet last _))
  rwa [List.append_nil, List.nil_append] at whole

/-- The check records types for the nodes `ids` and changes the state as `R` allows; started where
`pre` holds, it ends with `post` unless something has been noted. -/
def Checks (f : Checking α) (ids : List NodeId) (R : CheckState → CheckState → Prop)
    (pre : CheckState → Prop) (post : Facts → α → CheckState → Prop) : Prop :=
  ∀ state, state.tally ≤ (f.outcome state).2.tally ∧ R state (f.outcome state).2 ∧
    ∃ log, f.Makes state log ∧ log.map Prod.fst = ids ∧
      ((f.outcome state).2.tally = 0 → pre state → ∀ facts : Facts,
        (∀ entry ∈ log, facts entry.1 entry.2) →
        post facts (f.outcome state).1 (f.outcome state).2)

variable {f : Checking α} {ids ids' : List NodeId} {R S : CheckState → CheckState → Prop}
  {pre pre' : CheckState → Prop} {post post' : Facts → α → CheckState → Prop}

theorem Checks.mono (checks : f.Checks ids R pre post)
    (weaker : ∀ before facts a after, pre before → R before after → post facts a after →
      post' facts a after) : f.Checks ids R pre post' := by
  intro state
  obtain ⟨grows, related, log, makes, keys, holds⟩ := checks state
  exact ⟨grows, related, log, makes, keys, fun quiet start facts known =>
    weaker state _ _ _ start related (holds quiet start facts known)⟩

theorem Checks.of_pre (checks : f.Checks ids R pre post) (stronger : ∀ state, pre' state → pre state) :
    f.Checks ids R pre' post := by
  intro state
  obtain ⟨grows, related, log, makes, keys, holds⟩ := checks state
  exact ⟨grows, related, log, makes, keys, fun quiet start => holds quiet (stronger state start)⟩

theorem Checks.of_rel (checks : f.Checks ids R pre post) (weaker : ∀ {a b}, R a b → S a b) :
    f.Checks ids S pre post := by
  intro state
  obtain ⟨grows, related, rest⟩ := checks state
  exact ⟨grows, weaker related, rest⟩

theorem Checks.of_eq (checks : f.Checks ids R pre post) (same : ids = ids') :
    f.Checks ids' R pre post := same ▸ checks

theorem Checks.bind {g : α → Checking β} {mid : α → CheckState → Prop}
    {Q : α → Facts → β → CheckState → Prop} (first : f.Checks ids R pre post)
    (second : ∀ a, (g a).Checks ids' R (mid a) (Q a)) (trans : ∀ {a b c}, R a b → R b c → R a c)
    (link : ∀ before a after, pre before → R before after → post (fun _ _ => True) a after →
      mid a after) :
    (f >>= g).Checks (ids ++ ids') R pre fun facts b after =>
      ∃ a between, post facts a between ∧ Q a facts b after := by
  intro state
  obtain ⟨grows, related, log, makes, keys, holds⟩ := first state
  obtain ⟨grows', related', log', makes', keys', holds'⟩ :=
    second (f.outcome state).1 (f.outcome state).2
  have run : (f >>= g).outcome state = (g (f.outcome state).1).outcome (f.outcome state).2 := rfl
  rw [run]
  refine ⟨grows.trans grows', trans related related', log ++ log', makes.bind makes', ?_, ?_⟩
  · rw [List.map_append, keys, keys']
  · intro quiet start facts known
    have quiet' : (f.outcome state).2.tally = 0 := by omega
    rw [List.forall_mem_append] at known
    have between := link _ _ _ start related (holds quiet' start _ fun _ _ => trivial)
    exact ⟨_, _, holds quiet' start facts known.1, holds' quiet between facts known.2⟩

theorem checks_pure (a : α) : (pure a : Checking α).Checks [] CheckState.Kept pre
    fun _ b after => b = a ∧ pre after :=
  fun state => ⟨le_refl _, .refl state, [], .quiet (fun _ => rfl) state, rfl, fun _ start _ _ => ⟨rfl, start⟩⟩

theorem checks_get {g : CheckState → Checking α}
    (checks : ∀ start, (g start).Checks ids R (fun state => state = start ∧ pre state) post) :
    (get >>= g).Checks ids R pre post := by
  intro state
  obtain ⟨grows, related, log, makes, keys, holds⟩ := checks state state
  have whole : (get >>= g).Makes state ([] ++ log) := .bind (.quiet (fun _ => rfl) state) makes
  exact ⟨grows, related, log, whole, keys, fun quiet start => holds quiet ⟨rfl, start⟩⟩

theorem checks_from {Q : CheckState → Facts → α → CheckState → Prop}
    (checks : ∀ start, f.Checks ids R (fun state => state = start ∧ pre state) (Q start)) :
    f.Checks ids R pre fun facts a after => ∃ start, pre start ∧ R start after ∧
      Q start facts a after := by
  intro state
  obtain ⟨grows, related, log, makes, keys, holds⟩ := checks state state
  exact ⟨grows, related, log, makes, keys, fun quiet start facts known =>
    ⟨state, start, related, holds quiet ⟨rfl, start⟩ facts known⟩⟩

theorem Checks.discard (checks : f.Checks ids R pre post) :
    (discard f).Checks ids R pre fun facts _ after => ∃ a, post facts a after := by
  intro state
  obtain ⟨grows, related, log, makes, keys, holds⟩ := checks state
  have makes : (Functor.discard f).Makes state (log ++ []) :=
    makes.bind (g := fun _ => pure PUnit.unit) (.quiet (fun _ => rfl) _)
  exact ⟨grows, related, log, log.append_nil ▸ makes, keys, fun quiet start facts known =>
    ⟨_, holds quiet start facts known⟩⟩

theorem checks_note {f : SymbolTable → Noting α} {P : SymbolTable → Facts → α → Prop}
    (finds : ∀ table, (f table).Finds ids (P table)) :
    (note f).Checks ids CheckState.Kept pre fun facts a after => P after.table facts a := by
  intro state
  obtain ⟨grows, log, makes, keys, holds⟩ := finds state.table state.toNotes
  exact ⟨grows, ⟨.refl _, rfl, rfl, rfl⟩, log, .note makes, keys, fun quiet _ => holds quiet⟩

theorem checks_report (problem : Problem) (span : Span) :
    (report problem span).Checks [] CheckState.Kept pre fun _ _ _ => False :=
  checks_note fun _ => finds_report problem span

section Places

variable {sight : Sight} {taken : List String} {leavable : Bool} {result : Tag}

theorem checks_noteAt {f : SymbolTable → Noting α} {P : Sight → Facts → α → Prop}
    (finds : ∀ table, (f table).Finds ids (P table.sight)) :
    (note f).Checks ids CheckState.Kept (·.At sight taken leavable result)
      fun facts a _ => P sight facts a := by
  refine (checks_note finds).mono fun before facts a after here kept found => ?_
  rwa [(here.kept kept).shows.sight] at found

theorem Checks.stays (checks : f.Checks ids CheckState.Kept (·.At sight taken leavable result) post) :
    f.Checks ids CheckState.Grown (·.At sight taken leavable result) fun facts a after =>
      post facts a after ∧ after.At sight taken leavable result :=
  (checks.mono fun _ _ _ _ here kept found => ⟨found, here.kept kept⟩).of_rel CheckState.Kept.grown

theorem Checks.andThen {g : α → Checking β} {P : Facts → α → Prop} {Q : α → Facts → β → Prop}
    (first : f.Checks ids CheckState.Kept (·.At sight taken leavable result) fun facts a _ =>
      P facts a)
    (second : ∀ a, (g a).Checks ids' CheckState.Kept (·.At sight taken leavable result)
      fun facts b _ => Q a facts b) :
    (f >>= g).Checks (ids ++ ids') CheckState.Kept (·.At sight taken leavable result)
      fun facts b _ => ∃ a, P facts a ∧ Q a facts b := by
  refine (first.bind second CheckState.Kept.trans fun _ _ _ here kept _ => here.kept kept).mono ?_
  rintro _ facts b _ _ _ ⟨a, _, found, rest⟩
  exact ⟨a, found, rest⟩

theorem Checks.inLoop {f : Checking Unit} {P : Facts → Prop}
    (checks : f.Checks ids CheckState.Kept (·.At sight taken true result) fun facts _ _ => P facts) :
    (do enterLoop; f; leaveLoop).Checks ids CheckState.Kept (·.At sight taken leavable result)
      fun facts _ _ => P facts := by
  intro state
  obtain ⟨grows, kept, log, makes, keys, holds⟩ :=
    checks { state with loopDepth := state.loopDepth + 1 }
  refine ⟨grows, ⟨kept.table, ?_, kept.switchDepth, kept.expectedResult⟩, log,
    .within makes (fun _ => rfl) fun _ => rfl, keys, ?_⟩
  · change (f.outcome { state with loopDepth := state.loopDepth + 1 }).2.loopDepth - 1 = _
    rw [kept.loopDepth]
    rfl
  · intro quiet here
    exact holds quiet ⟨here.shows, by simp, here.expected, here.known⟩

theorem Checks.inSwitch {f : Checking Unit} {P : Facts → Prop}
    (checks : f.Checks ids CheckState.Kept (·.At sight taken true result) fun facts _ _ => P facts) :
    (do enterSwitch; f; leaveSwitch).Checks ids CheckState.Kept (·.At sight taken leavable result)
      fun facts _ _ => P facts := by
  intro state
  obtain ⟨grows, kept, log, makes, keys, holds⟩ :=
    checks { state with switchDepth := state.switchDepth + 1 }
  refine ⟨grows, ⟨kept.table, kept.loopDepth, ?_, kept.expectedResult⟩, log,
    .within makes (fun _ => rfl) fun _ => rfl, keys, ?_⟩
  · change (f.outcome { state with switchDepth := state.switchDepth + 1 }).2.switchDepth - 1 = _
    rw [kept.switchDepth]
    rfl
  · intro quiet here
    exact holds quiet ⟨here.shows, by simp, here.expected, here.known⟩

theorem Checks.inScope {f : Checking Unit} {P : Facts → Prop}
    (checks : f.Checks ids CheckState.Grown (·.At sight [] leavable result) fun facts _ _ => P facts) :
    (do openScope; f; closeScope).Checks ids CheckState.Kept (·.At sight taken leavable result)
      fun facts _ _ => P facts := by
  intro state
  obtain ⟨grows, grown, log, makes, keys, holds⟩ :=
    checks { state with table := state.table.openScope }
  generalize ended : f.outcome { state with table := state.table.openScope } = final at *
  have run : (do openScope; f; closeScope : Checking Unit).outcome state =
      ((), { final.2 with table := final.2.table.closeScope?.getD final.2.table }) := by
    rw [← ended]
    rfl
  obtain ⟨new, active⟩ := grown.active
  have closed : final.2.table.closeScope? = some { final.2.table with
      active := state.table.active, boundaries := state.table.boundaries } := by
    have boundaries : final.2.table.boundaries = state.table.active.length :: state.table.boundaries :=
      grown.boundaries
    have whole : final.2.table.active = new ++ state.table.active := active.symm
    rw [SymbolTable.closeScope?, boundaries]
    simp [whole]
  rw [run, closed]
  refine ⟨grows, ⟨⟨grown.registry, grown.fields, rfl, rfl, grown.history⟩, grown.loopDepth,
    grown.switchDepth, grown.expectedResult⟩, log, .within makes (fun _ => rfl) fun _ => rfl, keys,
    fun quiet here => ?_⟩
  exact holds quiet ⟨here.shows.openScope, here.leavable, here.expected, here.known⟩

theorem outcome_introduce (name : Ident) (declaration : SymbolTable → Option SymbolTable)
    (state : CheckState) : (introduce name declaration).outcome state =
      match declaration state.table with
      | some table => (true, { state with table })
      | none => (false, ((report (.redeclaration name.name) name.span).outcome state).2) := by
  have run : (introduce name declaration).outcome state = (match declaration state.table with
      | some table => do
        modify fun state => { state with table }
        return true
      | none => do
        report (.redeclaration name.name) name.span
        return false : Checking Bool).outcome state := rfl
  rw [run]
  cases declaration state.table <;> rfl

theorem annotations_introduce (name : Ident) (declaration : SymbolTable → Option SymbolTable)
    (state : CheckState) :
    ((introduce name declaration).outcome state).2.annotations = state.annotations := by
  rw [outcome_introduce]
  cases declaration state.table <;> rfl

theorem outcome_checkEntry (entry : String) (span : Span) (state : CheckState) :
    ((checkEntry entry span).outcome state).2 = if state.table.hasEntry entry then state
      else { state with errors := state.errors.push ⟨.missingEntry entry, span⟩ } := by
  change ((if !state.table.hasEntry entry then report (.missingEntry entry) span
    else pure () : Checking Unit).outcome state).2 = _
  cases state.table.hasEntry entry <;> rfl

theorem checks_introduce {name : Ident} {declaration : SymbolTable → Option SymbolTable}
    (type : Tag) (site : Site) (kind : SymbolKind) (decl : Span)
    (declares : ∀ table, declaration table = if (table.lookupCurrent? name.name).isSome then none
      else some (table.push name type site kind decl)) :
    (discard (introduce name declaration)).Checks [] CheckState.Grown
      (·.At sight taken leavable result) fun _ _ after => name.name ∉ taken ∧
        after.At (sight.declare name.name ⟨type, kind⟩) (name.name :: taken) leavable result := by
  intro state
  have run : (discard (introduce name declaration)).outcome state =
      ((), ((introduce name declaration).outcome state).2) := rfl
  have made : (discard (introduce name declaration)).Makes state [] :=
    .quiet (f := discard (introduce name declaration)) (annotations_introduce name declaration) state
  rw [run, outcome_introduce, declares]
  cases known : (state.table.lookupCurrent? name.name).isSome with
  | true =>
    rw [if_pos rfl]
    have noted : (report (.redeclaration name.name) name.span).Checks [] CheckState.Kept
        (·.At sight taken leavable result) fun _ _ _ => False := checks_report _ _
    obtain ⟨grows, kept, _, _, _, holds⟩ := noted state
    exact ⟨grows, kept.grown, [], made, rfl, fun quiet here _ _ =>
      (holds quiet here (fun _ _ => True) fun _ _ => trivial).elim⟩
  | false =>
    rw [if_neg (by simp)]
    refine ⟨le_refl _, ⟨rfl, rfl, List.suffix_cons _ _, rfl, SymbolTable.history_push .., rfl, rfl,
      rfl⟩, [], made, rfl, fun _ here _ _ => ⟨fun member => ?_, ?_⟩⟩
    · rw [(here.shows.lookupCurrent? name.name).mpr member] at known
      cases known
    · exact ⟨here.shows.push name type site kind decl, here.leavable, here.expected, here.known⟩

end Places

end Checking

end StackCode
