import StackCode.Proofs.Strict.Expressions
import StackCode.Proofs.Tree.Numbers
import StackCode.Proofs.Typing.Checks

namespace StackCode

open Noting

namespace CheckState

def strict (state : CheckState) : StrictState :=
  ⟨state.annotations, state.table, state.loopDepth, state.switchDepth, state.expectedResult⟩

def moved (state : CheckState) (after : StrictState) : CheckState :=
  { state with
    annotations := after.annotations
    table := after.table
    loopDepth := after.loopDepth
    switchDepth := after.switchDepth
    expectedResult := after.expectedResult }

structure Known (state : CheckState) : Prop where
  table : state.table.Known
  expectedResult : state.expectedResult.isKnown = true

end CheckState

namespace SymbolTable

variable {table : SymbolTable}

theorem mem_symbolsAt_push {name : Ident} {type : Tag} {site : Site} {kind : SymbolKind} {decl : Span}
    {ids : List Nat} {symbol : Symbol}
    (member : symbol ∈ (table.push name type site kind decl).symbolsAt ids) :
    symbol ∈ table.symbolsAt ids ∨ symbol = ⟨name.name, name.span, decl, type, table.level, site, kind⟩ := by
  obtain ⟨id, listed, found⟩ := List.mem_filterMap.mp member
  rw [push, Array.getElem?_push] at found
  split at found
  · exact .inr (Option.some.inj found).symm
  · exact .inl (List.mem_filterMap.mpr ⟨id, listed, found⟩)

theorem mem_symbolsAt_sublist {ids ids' : List Nat} (sub : ids ⊆ ids') {symbol : Symbol}
    (member : symbol ∈ table.symbolsAt ids) : symbol ∈ table.symbolsAt ids' := by
  obtain ⟨id, listed, found⟩ := List.mem_filterMap.mp member
  exact List.mem_filterMap.mpr ⟨id, sub listed, found⟩

namespace Known

theorem push (known : table.Known) {type : Tag} (real : type.isKnown = true) (name : Ident) (site : Site)
    (decl : Span) : (table.push name type site (.var false) decl).Known := by
  have visible : ∀ symbol ∈ (table.push name type site (.var false) decl).visible,
      symbol ∈ table.visible ∨
        symbol = ⟨name.name, name.span, decl, type, table.level, site, .var false⟩ := by
    intro symbol member
    rcases mem_symbolsAt_push member with old | rfl
    · rcases List.mem_filterMap.mp old with ⟨id, listed, found⟩
      rcases List.mem_cons.mp listed with rfl | listed
      · simp at found
      · exact .inl (List.mem_filterMap.mpr ⟨id, listed, found⟩)
    · exact .inr rfl
  constructor
  · intro symbol member isVariable
    rcases visible symbol member with old | rfl
    · exact known.vars symbol old isVariable
    · exact real
  · intro className symbol member
    rcases mem_symbolsAt_push member with old | rfl
    · exact known.fields className symbol old
    · exact real
  · intro symbol member result params isMethod
    rcases visible symbol member with old | rfl
    · exact known.methods symbol old result params isMethod
    · cases isMethod
  · intro symbol member isClass
    rcases visible symbol member with old | rfl
    · exact known.classes symbol old isClass
    · cases isClass

theorem openScope (known : table.Known) : table.openScope.Known :=
  ⟨known.vars, known.fields, known.methods, known.classes⟩

theorem closeScope (known : table.Known) : (table.closeScope?.getD table).Known := by
  unfold closeScope?
  split
  · exact known
  · rename_i start _ _
    have visible : ∀ symbol, symbol ∈ table.symbolsAt (table.active.drop (table.active.length - start)) →
        symbol ∈ table.visible := fun _ => mem_symbolsAt_sublist (List.drop_subset _ _)
    exact ⟨fun symbol member => known.vars symbol (visible symbol member), known.fields,
      fun symbol member => known.methods symbol (visible symbol member),
      fun symbol member => known.classes symbol (visible symbol member)⟩

end Known

end SymbolTable

namespace Checking

variable {α β γ δ : Type}

/-- The check `f` follows the strict check `g`: it never takes a report back; and started where
`pre` holds, it does as `g` does if that accepts, ending with `post`, and reports something if
not. -/
structure Follows (f : Checking α) (pre : CheckState → Prop) (g : Strictly α)
    (post : α → CheckState → Prop) : Prop where
  grows : ∀ state, state.errors.size ≤ (f.outcome state).2.errors.size
  accepted : ∀ state, pre state → ∀ a after, g.run state.strict = some (a, after) →
    f.outcome state = (a, state.moved after) ∧ post a (state.moved after)
  refused : ∀ state, pre state → g.run state.strict = none →
    state.errors.size < (f.outcome state).2.errors.size

variable {f : Checking α} {g : Strictly α} {pre : CheckState → Prop} {post : α → CheckState → Prop}

theorem outcome_bind (f : Checking α) (k : α → Checking γ) (state : CheckState) :
    (f >>= k).outcome state = (k (f.outcome state).1).outcome (f.outcome state).2 := rfl

theorem Follows.mono {post' : α → CheckState → Prop} (follows : f.Follows pre g post)
    (weaker : ∀ a after, post a after → post' a after) : f.Follows pre g post' where
  grows := follows.grows
  accepted state holds a after runs :=
    (follows.accepted state holds a after runs).imp id (weaker a _)
  refused := follows.refused

theorem Follows.bind {k : α → Checking γ} {l : α → Strictly γ} {final : γ → CheckState → Prop}
    (first : f.Follows pre g post) (second : ∀ a, (k a).Follows (post a) (l a) final) :
    (f >>= k).Follows pre (g >>= l) final := by
  refine ⟨fun state => ?_, fun state holds c after runs => ?_, fun state holds runs => ?_⟩
  · exact (first.grows state).trans ((second _).grows _)
  · rw [StateT.run_bind] at runs
    obtain ⟨⟨a, between⟩, ran, runs⟩ := Option.bind_eq_some_iff.mp runs
    obtain ⟨done, found⟩ := first.accepted state holds a between ran
    rw [outcome_bind, done]
    exact (second a).accepted (state.moved between) found c after runs
  · rw [StateT.run_bind] at runs
    rw [outcome_bind]
    cases ran : g.run state.strict with
    | none => exact (first.refused state holds ran).trans_le ((second _).grows _)
    | some result =>
      obtain ⟨a, between⟩ := result
      rw [ran] at runs
      obtain ⟨done, found⟩ := first.accepted state holds a between ran
      rw [done]
      exact (second a).refused (state.moved between) found runs

theorem follows_pure (a : α) : (pure a : Checking α).Follows pre (pure a) fun _ => pre where
  grows _ := le_refl _
  accepted state holds b after runs := by
    cases runs
    exact ⟨rfl, holds⟩
  refused _ _ runs := by cases runs

theorem Follows.of_pre {pre' : CheckState → Prop} (follows : f.Follows pre g post)
    (stronger : ∀ state, pre' state → pre state) : f.Follows pre' g post :=
  ⟨follows.grows, fun state holds => follows.accepted state (stronger state holds),
    fun state holds => follows.refused state (stronger state holds)⟩

theorem Follows.frame (follows : f.Follows pre g post) (extra : Prop) :
    f.Follows (fun state => pre state ∧ extra) g fun a after => post a after ∧ extra where
  grows := follows.grows
  accepted state holds a after runs :=
    (follows.accepted state holds.1 a after runs).imp id fun found => ⟨found, holds.2⟩
  refused state holds := follows.refused state holds.1

theorem follows_note {f : SymbolTable → Noting α} {g : SymbolTable → Strict α} {P : α → Prop}
    {extra : Prop} (follows : ∀ table start,
      (f table).Follows start (table.Known ∧ extra) (g table) fun a b => a = b ∧ P a) :
    (note f).Follows (fun state => state.Known ∧ extra) (Strictly.apply g) fun a after =>
      after.Known ∧ P a := by
  refine ⟨fun state => (follows state.table 0).grows state.toNotes,
    fun state ⟨known, holds⟩ a after runs => ?_, fun state ⟨known, holds⟩ runs => ?_⟩
  · obtain ⟨⟨_, annotations⟩, ran, done⟩ := Option.bind_eq_some_iff.mp runs
    cases done
    obtain ⟨_, done, rfl, found⟩ := (follows state.table state.tally).accepted ⟨known.table, holds⟩
      state.toNotes rfl a annotations ran
    refine ⟨?_, ⟨known.table, known.expectedResult⟩, found⟩
    exact congrArg (fun outcome => (outcome.1, { state with toNotes := outcome.2 })) done
  · refine (follows state.table state.tally).refused ⟨known.table, holds⟩ state.toNotes rfl ?_
    by_contra ran
    obtain ⟨result, ran⟩ := Option.ne_none_iff_exists'.mp ran
    have runs : ((g state.table).run state.annotations).bind _ = none := runs
    rw [ran] at runs
    cases runs

theorem follows_note_unit {f : SymbolTable → Noting Unit} {g : SymbolTable → Strict Unit}
    (follows : ∀ table start, (f table).Follows start table.Known (g table) fun a b => a = b ∧ True) :
    (note f).Follows CheckState.Known (Strictly.apply g) fun _ => CheckState.Known :=
  ((follows_note fun table start => (follows table start).of_pre And.left).of_pre
    fun _ known => ⟨known, trivial⟩).mono fun _ _ => And.left

theorem follows_modify {change : CheckState → CheckState} {change' : StrictState → StrictState}
    {post : CheckState → Prop} (quiet : ∀ state, (change state).errors = state.errors)
    (same : ∀ state, change state = state.moved (change' state.strict))
    (keeps : ∀ state, pre state → post (change state)) :
    (modify change : Checking Unit).Follows pre (modify change') fun _ => post := by
  refine ⟨fun state => (congrArg Array.size (quiet state)).ge, fun state holds a after runs => ?_,
    fun _ _ runs => nomatch runs⟩
  cases runs
  exact ⟨congrArg (Prod.mk ()) (same state), same state ▸ keeps state holds⟩

theorem follows_get {k : CheckState → Checking α} {l : StrictState → Strictly α}
    (more : ∀ start, (k start).Follows (fun state => state = start ∧ pre state) (l start.strict) post) :
    (get >>= k).Follows pre (get >>= l) post :=
  ⟨fun state => (more state).grows state, fun state holds => (more state).accepted state ⟨rfl, holds⟩,
    fun state holds => (more state).refused state ⟨rfl, holds⟩⟩

theorem follows_require {condition : CheckState → Bool} {rule : StrictState → Bool}
    {problem : CheckState → Problem} {span : Span}
    (agree : ∀ state, pre state → rule state.strict = !condition state) :
    (get >>= fun state => if condition state then report (problem state) span else pure ()).Follows pre
      (Strictly.require rule) fun _ => pre := by
  have reports : ∀ state, (get >>= fun state =>
      if condition state then report (problem state) span else pure ()).outcome state =
      if condition state then (report (problem state) span).outcome state else ((), state) := by
    intro state
    change (if condition state then report (problem state) span else pure ()).outcome state = _
    cases condition state <;> rfl
  have complains : ∀ state, state.errors.size < ((report (problem state) span).outcome state).2.errors.size :=
    fun state => complains_report (problem state) span state.toNotes
  refine ⟨fun state => ?_, fun state holds a after runs => ?_, fun state holds runs => ?_⟩
  · rw [reports]
    split
    · exact (complains state).le
    · exact le_refl _
  · have runs : (if rule state.strict then some ((), state.strict) else none) = some (a, after) := runs
    rw [agree state holds] at runs
    rw [reports]
    cases broken : condition state with
    | true =>
      rw [broken] at runs
      cases runs
    | false =>
      rw [broken] at runs
      cases runs
      exact ⟨rfl, holds⟩
  · have runs : (if rule state.strict then some ((), state.strict) else none) = none := runs
    rw [agree state holds] at runs
    rw [reports]
    cases broken : condition state with
    | true => exact complains state
    | false =>
      rw [broken] at runs
      cases runs

theorem follows_introduce {name : Ident} {declaration : SymbolTable → Option SymbolTable}
    (keeps : ∀ state next, pre state → declaration state.table = some next → pre { state with table := next }) :
    (discard (introduce name declaration)).Follows pre (Strictly.introduce declaration) fun _ => pre := by
  have made : ∀ state, (discard (introduce name declaration)).outcome state =
      ((), ((introduce name declaration).outcome state).2) := fun _ => rfl
  have complains : ∀ state, state.errors.size <
      ((report (.redeclaration name.name) name.span).outcome state).2.errors.size :=
    fun state => complains_report (.redeclaration name.name) name.span state.toNotes
  refine ⟨fun state => ?_, fun state holds a after runs => ?_, fun state holds runs => ?_⟩
  · rw [made, outcome_introduce]
    split
    · exact le_refl _
    · exact (complains state).le
  · have runs : (declaration state.table).map (fun table => ((), { state.strict with table })) =
        some (a, after) := runs
    obtain ⟨next, declared, done⟩ := Option.map_eq_some_iff.mp runs
    cases done
    rw [made, outcome_introduce, declared]
    exact ⟨rfl, keeps state next holds declared⟩
  · have refused : declaration state.table = none := Option.map_eq_none_iff.mp runs
    rw [made, outcome_introduce, refused]
    exact complains state

end Checking

open Checking

section Changes

variable {extra : Prop}

theorem openScope_follows :
    openScope.Follows CheckState.Known Strictly.openScope fun _ => CheckState.Known :=
  follows_modify (fun _ => rfl) (fun _ => rfl) fun _ known =>
    ⟨known.table.openScope, known.expectedResult⟩

theorem closeScope_follows :
    closeScope.Follows CheckState.Known Strictly.closeScope fun _ => CheckState.Known :=
  follows_modify (fun _ => rfl) (fun _ => rfl) fun _ known =>
    ⟨known.table.closeScope, known.expectedResult⟩

theorem enterLoop_follows :
    enterLoop.Follows CheckState.Known Strictly.enterLoop fun _ => CheckState.Known :=
  follows_modify (fun _ => rfl) (fun _ => rfl) fun _ known => ⟨known.table, known.expectedResult⟩

theorem leaveLoop_follows :
    leaveLoop.Follows CheckState.Known Strictly.leaveLoop fun _ => CheckState.Known :=
  follows_modify (fun _ => rfl) (fun _ => rfl) fun _ known => ⟨known.table, known.expectedResult⟩

theorem enterSwitch_follows :
    enterSwitch.Follows (fun state => state.Known ∧ extra) Strictly.enterSwitch
      fun _ after => after.Known ∧ extra :=
  follows_modify (fun _ => rfl) (fun _ => rfl) fun _ holds =>
    ⟨⟨holds.1.table, holds.1.expectedResult⟩, holds.2⟩

theorem leaveSwitch_follows :
    leaveSwitch.Follows CheckState.Known Strictly.leaveSwitch fun _ => CheckState.Known :=
  follows_modify (fun _ => rfl) (fun _ => rfl) fun _ known => ⟨known.table, known.expectedResult⟩

end Changes

theorem cond_follows (cond : Condition) :
    (note fun table => cond.check table).Follows CheckState.Known
      (Strictly.apply fun table => cond.strict table) fun _ => CheckState.Known :=
  follows_note_unit fun _ _ => cond.check_follows id

theorem declareNames_follows (type : Tag) (site : Site) (decl : Span) (names : List Ident) :
    (declareNames type site decl names).Follows (fun state => state.Known ∧ type.isKnown = true)
      (strictNames type site decl names) fun _ => CheckState.Known := by
  induction names with
  | nil => exact (Checking.follows_pure ()).mono fun _ _ => And.left
  | cons name names ih =>
    refine (follows_introduce fun state next holds declared => ?_).bind fun _ => ih
    unfold SymbolTable.declareVar? at declared
    split at declared
    · cases declared
    · cases declared
      exact ⟨⟨holds.1.table.push holds.2 name site decl, holds.1.expectedResult⟩, holds.2⟩

theorem VarDecl.declare_follows (decl : VarDecl) (site : Site) :
    (decl.declare site).Follows CheckState.Known (decl.strict site) fun _ => CheckState.Known := by
  have named : (note (·.namedValueType decl.type)).Follows (fun state => state.Known ∧ True)
      (Strictly.apply (·.strictValueType decl.type)) fun type after =>
        after.Known ∧ type.isKnown = true :=
    follows_note fun _ _ => namedValueType_follows And.left decl.type
  exact (named.of_pre fun _ known => ⟨known, trivial⟩).bind fun type =>
    declareNames_follows type site decl.span decl.names

theorem checkAssign_follows (target : Designator) (value : Expr) (span : Span) :
    (checkAssign target value span).Follows CheckState.Known (strictAssign target value)
      fun _ => CheckState.Known := by
  refine follows_note_unit fun table start => (target.checkWritten_follows id).bind_same fun left =>
    follows_tally fun n => (checkExpected_follows (fun holds => holds.1.1) value
      fun holds => holds.1.2).bind_same fun right =>
    follows_excused (fun holds => holds.1.2) fun silent =>
      (follows_guard (complains_mismatch _ _) fun holds => ?_).mono fun _ _ _ found => ⟨found.1, trivial⟩
  simp [holds.2, Tag.isUnknown_of_isKnown holds.1.1.1.2]

theorem checkTarget_follows (target : Designator) (fits : Tag → Bool) (problem : Tag → Mismatch)
    (span : Span) : (checkTarget target fits problem span).Follows CheckState.Known
      (Strictly.apply fun table => do
        let type ← target.strictWritten table
        Strict.require (fits type)) fun _ => CheckState.Known := by
  refine follows_note_unit fun table start => ?_
  have whole : target.strictWritten table >>= (fun type => Strict.require (fits type)) =
      target.strictWritten table >>= fun type => Strict.require (fits type) >>= fun _ => pure () := by
    simp only [bind_pure_unit]
  rw [whole]
  exact follows_demand (fun _ => target.checkWritten_follows And.left) fun _ _ _ =>
    follows_return () fun _ => trivial

theorem checkWrite_follows (value : Expr) (width : Option Int64) (span : Span) :
    (checkWrite value width span).Follows CheckState.Known (strictWrite value width)
      fun _ => CheckState.Known := by
  refine follows_note_unit fun table start =>
    follows_demand (fun _ => Expr.check_follows And.left value) fun _ _ _ => ?_
  cases width with
  | none => exact follows_return () fun _ => trivial
  | some width =>
    exact (follows_guard (complains_mismatch _ _) fun _ => by simp).mono
      fun _ _ _ found => ⟨found.1, trivial⟩

theorem checkBreak_follows (span : Span) :
    (checkBreak span).Follows CheckState.Known (Strictly.require fun state =>
      state.loopDepth != 0 || state.switchDepth != 0) fun _ => CheckState.Known :=
  Checking.follows_require fun state _ => by
    simp only [CheckState.strict, Bool.not_and]
    rfl

theorem checkResult_follows (value : Option Expr) (span : Span) :
    (checkResult value span).Follows CheckState.Known (strictResult value)
      fun _ => CheckState.Known := by
  cases value with
  | none =>
    refine Checking.follows_require fun state known => ?_
    simp [CheckState.strict, Tag.isUnknown_of_isKnown known.expectedResult, bne]
  | some value =>
    refine follows_get fun start => ?_
    have valued : (note fun table => do
        let n ← tally
        let type ← checkExpected table value start.expectedResult
        if start.expectedResult == .void then mismatch .voidResult (span.orElse value.span)
        else if !start.expectedResult.isUnknown && !(← excused n [type]) &&
            !table.registry.accepts start.expectedResult type then
          mismatch (.result type start.expectedResult) (span.orElse value.span)).Follows
        (fun state => state.Known ∧ start.expectedResult.isKnown = true) (Strictly.apply fun table => do
          let type ← strictExpected table value start.expectedResult
          Strict.require (start.expectedResult != .void &&
            table.registry.accepts start.expectedResult type)) fun _ after => after.Known ∧ True := by
      refine follows_note fun table n => follows_tally fun n =>
        (checkExpected_follows (fun holds => holds.1.1) value fun holds => holds.1.2).bind_same fun type => ?_
      rw [require_and]
      refine follows_require_else (complains_mismatch _ _) (fun _ => by simp)
        (follows_excused (fun holds => holds.1.1.2) fun silent =>
          (follows_guard (complains_mismatch _ _) fun holds => ?_).mono
            fun _ _ _ found => ⟨found.1, trivial⟩)
      simp [holds.2, Tag.isUnknown_of_isKnown holds.1.1.1.1.2]
    refine (valued.of_pre ?_).mono fun _ _ => And.left
    rintro _ ⟨rfl, known⟩
    exact ⟨known, known.expectedResult⟩

theorem checkSelector_follows (selector : Expr) (span : Span) :
    (checkSelector selector span).Follows CheckState.Known (strictSelector selector)
      fun type after => after.Known ∧ type.isSelector = true := by
  have follows : (checkSelector selector span).Follows (fun state => state.Known ∧ True)
      (strictSelector selector) fun type after => after.Known ∧ type.isSelector = true := by
    refine follows_note fun table start => ?_
    rw [← bind_pure (demand _ _ _ _)]
    exact follows_demand (fun _ => Expr.check_follows (And.left ∘ And.left) selector)
      fun _ _ _ => follows_return _ And.right
  exact follows.of_pre fun _ known => ⟨known, trivial⟩

theorem checkLabel_follows (selector : Tag) (seen : List Literal) (label : Literal) (span : Span) :
    (checkLabel selector seen label span).Follows
      (fun state => state.Known ∧ selector.isSelector = true) (strictLabel selector seen label)
      fun _ after => after.Known ∧ selector.isSelector = true := by
  refine follows_note fun table start => (label.check_follows span).bind_same fun type =>
    Noting.follows_require (complains_mismatch _ _) (fun holds => ?_)
      ((follows_guard (complains_report _ _) fun _ => by simp).mono
        fun holds _ _ found => ⟨found.1, holds.1.1.2⟩)
  simp [holds.1.2]

theorem Checking.Follows.discard {α : Type} {f : Checking α} {g : Strictly α}
    {pre post : CheckState → Prop} (follows : f.Follows pre g fun _ => post) :
    (discard f).Follows pre (discard g) fun _ => post := by
  have plain := follows.bind fun _ => Checking.follows_pure ()
  rwa [← map_eq_pure_bind, ← map_eq_pure_bind] at plain

mutual

theorem Stmt.check_follows : ∀ stmt : Stmt,
    stmt.check.Follows CheckState.Known stmt.strict fun _ => CheckState.Known
  | .assign target value span => checkAssign_follows target value span
  | .call callee args span => by
    refine ((follows_note fun table start => callee.checkCall_follows And.left args span).of_pre
      fun _ known => ⟨known, trivial⟩).mono (fun _ _ => And.left) |>.discard
  | .increment target span | .decrement target span => checkTarget_follows target (· == .int) _ span
  | .branch cond onTrue onFalse _ =>
    (cond_follows cond).bind fun _ => (Stmt.check_follows onTrue).bind fun _ =>
      checkOption_follows onFalse
  | .whileLoop cond body _ =>
    (cond_follows cond).bind fun _ => enterLoop_follows.bind fun _ =>
      (Stmt.check_follows body).bind fun _ => leaveLoop_follows
  | .forLoop init cond update body _ => by
    have looping := enterLoop_follows.bind fun _ => (Stmt.check_follows body).bind fun _ =>
      leaveLoop_follows
    cases cond with
    | some cond =>
      exact (checkOption_follows init).bind fun _ => (cond_follows cond).bind fun _ =>
        (checkOption_follows update).bind fun _ => looping
    | none =>
      exact (checkOption_follows init).bind fun _ => (Checking.follows_pure ()).bind fun _ =>
        (checkOption_follows update).bind fun _ => looping
  | .breakStmt span => checkBreak_follows span
  | .returnStmt value span => checkResult_follows value span
  | .read target span => checkTarget_follows target Tag.isReadable _ span
  | .write value width span => checkWrite_follows value width span
  | .switch selector cases default span =>
    (checkSelector_follows selector span).bind fun type => enterSwitch_follows.bind fun _ =>
      (checkCases_follows type [] cases).bind fun _ => (checkDefault_follows default).bind fun _ =>
      leaveSwitch_follows
  | .block ⟨items, _⟩ =>
    openScope_follows.bind fun _ => (checkItems_follows items).bind fun _ => closeScope_follows
  | .empty _ => Checking.follows_pure ()

theorem checkOption_follows : ∀ stmt : Option Stmt,
    (checkOption stmt).Follows CheckState.Known (strictOption stmt) fun _ => CheckState.Known
  | none => Checking.follows_pure ()
  | some stmt => Stmt.check_follows stmt

theorem checkStmts_follows : ∀ stmts : List Stmt,
    (checkStmts stmts).Follows CheckState.Known (strictStmts stmts) fun _ => CheckState.Known
  | [] => Checking.follows_pure ()
  | stmt :: rest => (Stmt.check_follows stmt).bind fun _ => checkStmts_follows rest

theorem checkCases_follows (selector : Tag) : ∀ (seen : List Literal) (cases : List SwitchCase),
    (checkCases selector seen cases).Follows
      (fun state => state.Known ∧ selector.isSelector = true) (strictCases selector seen cases)
      fun _ => CheckState.Known
  | _, [] => (Checking.follows_pure ()).mono fun _ _ => And.left
  | seen, ⟨label, body, span⟩ :: rest =>
    (checkLabel_follows selector seen label span).bind fun _ =>
      ((checkStmts_follows body).frame _).bind fun _ => checkCases_follows selector (label :: seen) rest

theorem checkDefault_follows : ∀ default : Option DefaultCase,
    (checkDefault default).Follows CheckState.Known (strictDefault default) fun _ => CheckState.Known
  | none => Checking.follows_pure ()
  | some ⟨body, _⟩ => checkStmts_follows body

theorem checkItems_follows : ∀ items : List BlockItem,
    (checkItems items).Follows CheckState.Known (strictItems items) fun _ => CheckState.Known
  | [] => Checking.follows_pure ()
  | .var decl :: rest => (decl.declare_follows .localVar).bind fun _ => checkItems_follows rest
  | .stmt stmt :: rest => (Stmt.check_follows stmt).bind fun _ => checkItems_follows rest

end

theorem Checking.Follows.quiet_iff {α : Type} {f : Checking α} {g : Strictly α}
    {pre : CheckState → Prop} {post : α → CheckState → Prop} (follows : f.Follows pre g post)
    {state : CheckState} (holds : pre state) :
    (f.run state).2.errors = state.errors ↔ (g.run state.strict).isSome = true := by
  cases ran : g.run state.strict with
  | none =>
    have more : state.errors.size < (f.run state).2.errors.size := follows.refused state holds ran
    refine ⟨fun same => ?_, nofun⟩
    rw [same] at more
    omega
  | some result =>
    have done : f.run state = _ := (follows.accepted state holds result.1 result.2 ran).1
    rw [done]
    exact ⟨fun _ => rfl, fun _ => rfl⟩

theorem Noting.Follows.quiet_iff {α β : Type} {f : Noting α} {g : Strict β} {R : α → β → Prop}
    {notes : Notes} {pre : Prop} (follows : f.Follows notes.tally pre g R) (holds : pre) :
    (f.run notes).2.errors = notes.errors ↔ (g.run notes.annotations).isSome = true := by
  cases ran : g.run notes.annotations with
  | none =>
    have more : notes.errors.size < (f.run notes).2.errors.size := follows.refused holds notes rfl ran
    refine ⟨fun same => ?_, nofun⟩
    rw [same] at more
    omega
  | some result =>
    obtain ⟨a, done, _⟩ := follows.accepted holds notes rfl result.1 result.2 ran
    have done : f.run notes = _ := done
    rw [done]
    exact ⟨fun _ => rfl, fun _ => rfl⟩

/-- What is passed over in silence changes nothing: from a state that knows all types, a check has
nothing to report where, and only where, every rule is kept, and then it records the same types. -/
theorem check_quiet_iff_strict (state : CheckState) (known : state.Known) :
    (∀ stmt : Stmt,
      ((stmt.check.run state).2.errors = state.errors ↔
        (stmt.strict.run state.strict).isSome = true) ∧
      ∀ after, stmt.strict.run state.strict = some ((), after) →
        (stmt.check.run state).2 = state.moved after) ∧
    (∀ e : Expr,
      (((e.check state.table).run state.toNotes).2.errors = state.errors ↔
        ((e.strict state.table).run state.annotations).isSome = true) ∧
      ∀ type annotations, (e.strict state.table).run state.annotations = some (type, annotations) →
        (e.check state.table).run state.toNotes = (type, { state.toNotes with annotations })) ∧
    (∀ cond : Condition,
      (((cond.check state.table).run state.toNotes).2.errors = state.errors ↔
        ((cond.strict state.table).run state.annotations).isSome = true) ∧
      ∀ annotations, (cond.strict state.table).run state.annotations = some ((), annotations) →
        (cond.check state.table).run state.toNotes = ((), { state.toNotes with annotations })) := by
  refine ⟨fun stmt => ?_, fun e => ?_, fun cond => ?_⟩
  · have follows := stmt.check_follows
    exact ⟨follows.quiet_iff known, fun after ran =>
      congrArg Prod.snd (follows.accepted state known () after ran).1⟩
  · have follows : (e.check state.table).Follows state.tally True (e.strict state.table) SameProper :=
      Expr.check_follows (fun _ => known.table) e
    refine ⟨follows.quiet_iff trivial, fun type annotations ran => ?_⟩
    obtain ⟨_, done, rfl, _⟩ := follows.accepted trivial state.toNotes rfl type annotations ran
    exact done
  · have follows : (cond.check state.table).Follows state.tally True (cond.strict state.table) _ :=
      cond.check_follows fun _ => known.table
    refine ⟨follows.quiet_iff trivial, fun annotations ran => ?_⟩
    obtain ⟨_, done, _⟩ := follows.accepted trivial state.toNotes rfl () annotations ran
    exact done

/-- Behind the check of a program, `total = Sum([], null);` is accepted and `total = len([]);` is
not. -/
theorem totals_check_quiet : (Sample.totals.check "Main").Known ∧
    ((Stmt.assign (Sample.place "total" []) (Sample.value (Sample.call "Sum" [Sample.value (.list []),
      Sample.value (.literal .null)])) {}).check.run (Sample.totals.check "Main")).2.errors =
        (Sample.totals.check "Main").errors ∧
    ((Stmt.assign (Sample.place "total" []) (Sample.value (Sample.call "len" [Sample.value (.list [])]))
      {}).check.run (Sample.totals.check "Main")).2.errors ≠ (Sample.totals.check "Main").errors := by
  have known : (Sample.totals.check "Main").Known :=
    ⟨SymbolTable.known_of_history (by decide +kernel), by decide +kernel⟩
  have both := (check_quiet_iff_strict (Sample.totals.check "Main") known).1
  exact ⟨known, (both _).1.mpr (by decide +kernel), mt (both _).1.mp (by decide +kernel)⟩

end StackCode
