import StackCode.Proofs.Dispatch.Labels
import StackCode.Proofs.Lowering.Preservation

namespace StackCode

open Code Platform

def Literal.word? : Literal → Option Int32
  | .int n => some (Int32.ofInt n.toInt)
  | .char c => some (Int32.ofNat c.toNat)
  | _ => none

structure Arm where
  word : Int32
  label : Label
  body : Piece

namespace Arm

def test (slot : Nat) (arm : Arm) : Piece := [.ldloc slot, .ldcI4 arm.word, .beq arm.label]

def code (arm : Arm) : Piece := .mark arm.label :: arm.body

def IsOf (env : Env) (case : SwitchCase) (arm : Arm) : Prop :=
  case.label.word? = some arm.word ∧
    ∃ before after, (emitStmts env case.body).Yields before arm.body after

end Arm

def chain (slot : Nat) (arms : List Arm) (fallback : Label) : Piece :=
  arms.flatMap (Arm.test slot) ++ [.br fallback]

theorem chain_cons (slot : Nat) (arm : Arm) (arms : List Arm) (fallback : Label) (rest : Piece) :
    chain slot (arm :: arms) fallback ++ rest = arm.test slot ++ (chain slot arms fallback ++ rest) := by
  simp [chain]

structure SwitchCode where
  value : Piece
  slot : Nat
  arms : List Arm
  fallback : Label
  last : Piece
  finish : Label

namespace SwitchCode

variable (parts : SwitchCode)

def onward (i : Nat) : Piece :=
  (parts.arms.drop i).flatMap Arm.code ++ (parts.last ++ [.mark parts.finish])

def code (order : List Arm) : Piece :=
  parts.value ++ .stloc parts.slot :: (chain parts.slot order parts.fallback ++ parts.onward 0)

structure IsOf (env : Env) (cases : List SwitchCase) (default : Option DefaultCase) : Prop where
  arms : List.Forall₂ (Arm.IsOf env) cases parts.arms
  last : ∀ block, default = some block → ∃ rest before after,
    parts.last = .mark parts.fallback :: rest ∧ (emitStmts env block.body).Yields before rest after
  alone : default = none → parts.last = [] ∧ parts.fallback = parts.finish

end SwitchCode

section Words

theorem Literal.selects_iff {label : Literal} : label.tag.isSelector = true ↔
    (∃ n, label = .int n) ∨ ∃ c, label = .char c := by
  cases label <;> simp [Literal.tag, Tag.isSelector, Tag.int, Tag.char, Tag.float, Tag.double,
    Tag.string, Tag.bool, Tag.unknown]

theorem Literal.word_injective {a b : Literal} (selects : a.tag.isSelector = true)
    (typed : b.tag = a.tag) (fits : a.Fits) (fits' : b.Fits) (same : a.word? = b.word?) : a = b := by
  rcases Literal.selects_iff.mp selects with ⟨n, rfl⟩ | ⟨c, rfl⟩
  · cases b with
    | int m =>
      have words := congrArg Int32.toInt (Option.some.inj same)
      simp only [Literal.Fits, fitsInt32, Bool.and_eq_true, decide_eq_true_eq] at fits fits'
      rw [Int32.toInt_ofInt_of_le (by omega) (by omega),
        Int32.toInt_ofInt_of_le (by omega) (by omega)] at words
      rw [Int64.toInt_inj.mp words]
    | char c => cases typed
    | float x | double x | str s | bool b | null => cases typed
  · cases b with
    | char d =>
      have words := congrArg Int32.toInt (Option.some.inj same)
      simp only [Literal.Fits] at fits fits'
      rw [Int32.toInt_ofNat_of_lt (by omega), Int32.toInt_ofNat_of_lt (by omega)] at words
      rw [Char.toNat_inj.mp (Int.ofNat_inj.mp words)]
    | int n => cases typed
    | float x | double x | str s | bool b | null => cases typed

theorem Literal.loads_word {label : Literal} (selects : label.tag.isSelector = true) {instr : Instr}
    (loaded : literalInstr label = .ok instr) :
    ∃ word, label.word? = some word ∧ instr = .ldcI4 word := by
  rcases Literal.selects_iff.mp selects with ⟨n, rfl⟩ | ⟨c, rfl⟩
  · rw [literalInstr] at loaded
    split at loaded
    · cases loaded
      exact ⟨_, rfl, rfl⟩
    · cases loaded
  · cases loaded
    exact ⟨_, rfl, rfl⟩

end Words

section Arms

variable {env : Env} {type : Tag} (selects : type.isSelector = true)

include selects

theorem exists_arms {slot : Nat} {cases : List SwitchCase} {labels : List Label} {seen : List Literal}
    {dispatch bodies : Piece} {before frame after : Frame} (fit : CasesFit type seen cases)
    (labelled : labels.length = cases.length)
    (dispatched : (emitDispatch slot (cases.zip labels)).Yields frame dispatch frame)
    (cased : (emitCases env labels cases).Yields before bodies after) :
    ∃ arms : List Arm, dispatch = arms.flatMap (Arm.test slot) ∧ bodies = arms.flatMap Arm.code ∧
      List.Forall₂ (Arm.IsOf env) cases arms := by
  induction cases generalizing labels seen dispatch bodies before with
  | nil =>
    cases List.length_eq_zero_iff.mp labelled
    exact ⟨[], (emitDispatch_nil_yields.mp dispatched).1, (emitCases_nil_yields.mp cased).1, .nil⟩
  | cons case cases ih =>
    obtain ⟨label, body, span⟩ := case
    cases labels with
    | nil => cases labelled
    | cons target labels =>
      obtain ⟨⟨_, typed, _⟩, fit⟩ := fit
      obtain ⟨instr, _, loaded, more, rfl⟩ := emitDispatch_cons_yields.mp dispatched
      obtain ⟨first, mid, _, emitted, others, rfl⟩ := emitCases_cons_yields.mp cased
      obtain ⟨arms, rfl, rfl, each⟩ := ih fit (Nat.succ.inj labelled) more others
      have selects : label.tag.isSelector = true := by rw [typed, selects]
      obtain ⟨word, known, rfl⟩ := Literal.loads_word selects loaded
      exact ⟨⟨word, target, first⟩ :: arms, rfl, rfl, .cons ⟨known, _, _, emitted⟩ each⟩

theorem nodup_words {cases : List SwitchCase} {seen : List Literal} {arms : List Arm}
    (fit : CasesFit type seen cases) (each : List.Forall₂ (Arm.IsOf env) cases arms) :
    (arms.map Arm.word).Nodup ∧ ∀ other ∈ seen, other.Fits → other.tag = type →
      ∀ arm ∈ arms, other.word? ≠ some arm.word := by
  induction cases generalizing seen arms with
  | nil =>
    cases each
    exact ⟨List.nodup_nil, fun _ _ _ _ _ member => nomatch member⟩
  | cons case cases ih =>
    obtain ⟨⟨fits, typed, new⟩, fit⟩ := fit
    cases each with
    | cons one each =>
      rename_i arm arms
      obtain ⟨once, apart⟩ := ih fit each
      constructor
      · rw [List.map_cons, List.nodup_cons]
        refine ⟨fun member => ?_, once⟩
        obtain ⟨other, inside, same⟩ := List.mem_map.mp member
        apply apart case.label (List.mem_cons_self ..) fits typed other inside
        rw [one.1, same]
      · intro other member fits' typed' arm' inside same
        rcases List.mem_cons.mp inside with rfl | inside
        · have selected : other.tag.isSelector = true := by rw [typed', selects]
          have equal : other = case.label := Literal.word_injective selected
            (typed.trans typed'.symm) fits' fits (same.trans one.1.symm)
          have unlike := new other member
          rw [← equal] at unlike
          rcases Literal.selects_iff.mp selected with ⟨n, rfl⟩ | ⟨c, rfl⟩
          · simp [Literal.sameValue] at unlike
          · simp [Literal.sameValue] at unlike
        · exact apart other (List.mem_cons_of_mem _ member) fits' typed' arm' inside same

end Arms

section Runs

variable {P : Platform} {built : Module} {whole : Piece} {slot : Nat} {n : Int32} {s : P.State}
  {stack : List (Value P.Data)} {fallback : Label} {rest behind : Piece}

theorem Arm.reaches_test {arm : Arm} (marked : Marked whole) (kept : s.locals slot = .word n)
    (located : .mark arm.label :: behind <:+ whole) :
    P.Reaches built whole ⟨arm.test slot ++ rest, stack, s⟩
      ⟨if n == arm.word then .mark arm.label :: behind else rest, stack, s⟩ := by
  have read : P.step built (.ldloc slot) (stack, s) = some (.word n :: stack, s) := by
    rw [← kept]
    rfl
  have loads : P.step built (.ldcI4 arm.word) (.word n :: stack, s) =
      some (.word arm.word :: .word n :: stack, s) := rfl
  exact ((reaches_step rfl read).trans (reaches_step rfl loads)).trans (reaches_beq marked located rfl)

theorem Arm.reaches_next {arm : Arm} (marked : Marked whole) (kept : s.locals slot = .word n)
    (labelled : ∃ behind, .mark arm.label :: behind <:+ whole) (differs : arm.word ≠ n) :
    P.Reaches built whole ⟨arm.test slot ++ rest, stack, s⟩ ⟨rest, stack, s⟩ := by
  obtain ⟨place, here⟩ := labelled
  have tested : P.Reaches built whole ⟨arm.test slot ++ rest, stack, s⟩ _ :=
    Arm.reaches_test marked kept here
  rwa [if_neg (by simpa using Ne.symm differs)] at tested

theorem reaches_fallback {order : List Arm} (marked : Marked whole) (kept : s.locals slot = .word n)
    (labels : ∀ arm ∈ order, ∃ behind, .mark arm.label :: behind <:+ whole)
    (misses : ∀ arm ∈ order, arm.word ≠ n) (located : .mark fallback :: behind <:+ whole) :
    P.Reaches built whole ⟨chain slot order fallback ++ rest, stack, s⟩
      ⟨.mark fallback :: behind, stack, s⟩ := by
  induction order with
  | nil => exact reaches_br marked located
  | cons arm order ih =>
    obtain ⟨labelled, others⟩ := List.forall_mem_cons.mp labels
    obtain ⟨differs, misses⟩ := List.forall_mem_cons.mp misses
    rw [chain_cons]
    exact (Arm.reaches_next marked kept labelled differs).trans (ih others misses)

theorem reaches_arm {order : List Arm} (marked : Marked whole) (kept : s.locals slot = .word n)
    (labels : ∀ arm ∈ order, ∃ behind, .mark arm.label :: behind <:+ whole)
    (once : (order.map Arm.word).Nodup) {arm : Arm} (member : arm ∈ order) (hits : arm.word = n)
    (located : .mark arm.label :: behind <:+ whole) :
    P.Reaches built whole ⟨chain slot order fallback ++ rest, stack, s⟩
      ⟨.mark arm.label :: behind, stack, s⟩ := by
  induction order with
  | nil => cases member
  | cons first order ih =>
    rw [chain_cons]
    rw [List.map_cons, List.nodup_cons] at once
    obtain ⟨labelled, others⟩ := List.forall_mem_cons.mp labels
    rcases List.mem_cons.mp member with rfl | member
    · have taken : P.Reaches built whole ⟨arm.test slot ++ (chain slot order fallback ++ rest), stack, s⟩
          _ := Arm.reaches_test marked kept located
      rwa [if_pos (by simp [hits])] at taken
    · have differs : first.word ≠ n := by
        intro equal
        apply once.1
        rw [equal, ← hits]
        exact List.mem_map_of_mem member
      exact (Arm.reaches_next marked kept labelled differs).trans (ih others once.2 member)

end Runs

namespace SwitchCode

variable {parts : SwitchCode} {P : Platform} {built : Module} {whole behind : Piece} {n : Int32}
  {s s' : P.State}

theorem onward_suffix (parts : SwitchCode) (i : Nat) : parts.onward i <:+ parts.onward 0 := by
  refine ⟨(parts.arms.take i).flatMap Arm.code, ?_⟩
  rw [onward, onward, List.drop_zero, ← List.append_assoc, ← List.flatMap_append, List.take_append_drop]

theorem onward_eq {i : Nat} {arm : Arm} (found : parts.arms[i]? = some arm) :
    parts.onward i = .mark arm.label :: (arm.body ++ parts.onward (i + 1)) := by
  obtain ⟨inside, rfl⟩ := List.getElem?_eq_some_iff.mp found
  rw [onward, List.drop_eq_getElem_cons inside, List.flatMap_cons, Arm.code, List.append_assoc]
  rfl

theorem IsOf.onward_length {env : Env} {cases : List SwitchCase} {default : Option DefaultCase}
    (formed : parts.IsOf env cases default) :
    ∃ rest, parts.onward parts.arms.length = .mark parts.fallback :: rest := by
  rw [onward, List.drop_length]
  cases default with
  | none =>
    obtain ⟨last, same⟩ := formed.alone rfl
    exact ⟨[], by rw [last, same]; rfl⟩
  | some block =>
    obtain ⟨rest, _, _, last, _⟩ := formed.last block rfl
    exact ⟨rest ++ [.mark parts.finish], by rw [last]; rfl⟩

theorem IsOf.sends {env : Env} {cases : List SwitchCase} {default : Option DefaultCase}
    (formed : parts.IsOf env cases default) (once : (parts.arms.map Arm.word).Nodup)
    {order : List Arm} (permuted : order.Perm parts.arms) (marked : Marked whole)
    (located : parts.code order ++ behind <:+ whole)
    (passes : P.Passes built parts.value s [.word n] s') :
    (∀ i arm, parts.arms[i]? = some arm → arm.word = n →
      P.Reaches built whole ⟨parts.code order ++ behind, [], s⟩
        ⟨parts.onward i ++ behind, [], s'.keep parts.slot (.word n)⟩) ∧
    ((∀ arm ∈ parts.arms, arm.word ≠ n) →
      P.Reaches built whole ⟨parts.code order ++ behind, [], s⟩
        ⟨parts.onward parts.arms.length ++ behind, [], s'.keep parts.slot (.word n)⟩) := by
  have shape : parts.code order ++ behind = parts.value ++ .stloc parts.slot ::
      (chain parts.slot order parts.fallback ++ (parts.onward 0 ++ behind)) := by simp [code]
  rw [shape] at located ⊢
  have inBodies : parts.onward 0 ++ behind <:+ whole :=
    behind_append (behind_cons (behind_append located))
  have place (i : Nat) : parts.onward i ++ behind <:+ whole := by
    obtain ⟨skipped, same⟩ := parts.onward_suffix i
    rw [← same, List.append_assoc] at inBodies
    exact behind_append inBodies
  have labels : ∀ arm ∈ order, ∃ behind, .mark arm.label :: behind <:+ whole := by
    intro arm member
    obtain ⟨i, found⟩ := List.getElem?_of_mem (permuted.mem_iff.mp member)
    have located := place i
    rw [onward_eq found] at located
    exact ⟨_, located⟩
  have starts : P.Reaches built whole ⟨parts.value ++ .stloc parts.slot ::
      (chain parts.slot order parts.fallback ++ (parts.onward 0 ++ behind)), [], s⟩
      ⟨chain parts.slot order parts.fallback ++ (parts.onward 0 ++ behind), [],
        s'.keep parts.slot (.word n)⟩ :=
    (passes.inside marked located).trans (reaches_step rfl rfl)
  have kept := s'.keep_locals_self parts.slot (.word n)
  constructor
  · intro i arm found hits
    have located := place i
    rw [onward_eq found] at located ⊢
    have once : (order.map Arm.word).Nodup := (permuted.map Arm.word).nodup_iff.mpr once
    have member : arm ∈ order := permuted.mem_iff.mpr (List.mem_of_getElem? found)
    exact starts.trans (reaches_arm marked kept labels once member hits located)
  · intro misses
    have located := place parts.arms.length
    obtain ⟨rest, falls⟩ := formed.onward_length
    rw [falls] at located ⊢
    exact starts.trans (reaches_fallback marked kept labels
      (fun arm member => misses arm (permuted.mem_iff.mp member)) located)

end SwitchCode

theorem Stmt.exists_switchCode {env : Env} {selector : Expr} {cases : List SwitchCase}
    {default : Option DefaultCase} {span : Span} {type : Tag} {before after : Frame} {code : Piece}
    (selects : type.isSelector = true) (fit : CasesFit type [] cases)
    (emitted : (Stmt.emit env (.switch selector cases default span)).Yields before code after) :
    ∃ parts : SwitchCode, code = parts.code parts.arms ∧
      (∃ mid, (selector.emit env).Yields before parts.value mid) ∧ parts.IsOf env cases default ∧
      (parts.arms.map Arm.word).Nodup := by
  obtain ⟨tag, value, mid, _, dispatch, bodies, mid', last, inner, _, selected, _, _, dispatched, cased,
    defaulted, _, rfl⟩ := Stmt.emit_switch_yields.mp emitted
  have labelled : (labelsFrom (mid.labelCount + 1) cases.length).length = cases.length := by
    simp [labelsFrom]
  obtain ⟨arms, rfl, rfl, each⟩ := exists_arms selects fit labelled dispatched cased
  refine ⟨⟨value, mid.locals.length, arms, switchFallback mid.labelCount cases.length default, last,
    ⟨mid.labelCount⟩⟩, ?_, ⟨mid, selected⟩, ⟨each, ?_, ?_⟩, (nodup_words selects fit each).1⟩
  · simp [SwitchCode.code, SwitchCode.onward, chain]
  · intro block same
    subst same
    obtain ⟨body, place⟩ := block
    obtain ⟨rest, given, rfl⟩ := emitDefault_some_yields.mp defaulted
    exact ⟨rest, _, _, rfl, given⟩
  · intro same
    subst same
    exact ⟨(emitDefault_none_yields.mp defaulted).1, rfl⟩

namespace Program

variable {program : Program} {entry : String} {path : Path} {selector : Expr} {cases : List SwitchCase}
  {default : Option DefaultCase} {span : Span}

/-- The labels of a switch for which there is code fit the type of its selector, if types are recorded
for every node on its own, or if no name of unknown type is used. -/
theorem casesFit_of_emit (sound : program.IsNumbered ∨ (program.check entry).unknownUses = 0)
    (clean : (program.check entry).errors = #[])
    (inside : (path, Stmt.switch selector cases default span) ∈ methodsPositions 0 program.items)
    {before after : Frame} {code : Piece}
    (emitted : (Stmt.emit (program.env (program.check entry).table (program.check entry).annotations)
      (.switch selector cases default span)).Yields before code after) :
    ∃ type : Tag, type.isSelector = true ∧ CasesFit type [] cases := by
  rcases sound with numbered | none
  · obtain ⟨type, recorded, ⟨rfl, _⟩ | sorted⟩ := switch_sorted numbered clean inside
    · obtain ⟨tag, _, _, type, _, _, _, _, _, found, _, typed, _⟩ := Stmt.emit_switch_yields.mp emitted
      have same : tag = .unknown :=
        Option.some.inj ((Env.nodeType_eq_ok.mp found).symm.trans recorded)
      rw [same] at typed
      exact absurd typed (Env.type_unknown type)
    · exact ⟨type, sorted⟩
  · obtain ⟨_, _, _, sorted⟩ := switches_sorted clean
    obtain ⟨type, _, ⟨_, used⟩ | sorted⟩ := sorted (fun _ _ => True) (fun _ _ => trivial) _ inside
    · omega
    · exact ⟨type, sorted⟩

/-- In a program of which nothing is reported, every switch compares the value of its selector with the
words of its labels, which differ from each other. A value goes to the case that has its word, or else
to the default, or behind the switch if there is none; whatever the order of the comparisons. -/
theorem switch_dispatches (sound : program.IsNumbered ∨ (program.check entry).unknownUses = 0)
    (clean : (program.check entry).errors = #[])
    (inside : (path, Stmt.switch selector cases default span) ∈ methodsPositions 0 program.items)
    {before after : Frame} {code : Piece}
    (emitted : (Stmt.emit (program.env (program.check entry).table (program.check entry).annotations)
      (.switch selector cases default span)).Yields before code after) :
    ∃ parts : SwitchCode, code = parts.code parts.arms ∧
      (∃ mid, (selector.emit (program.env (program.check entry).table
        (program.check entry).annotations)).Yields before parts.value mid) ∧
      parts.IsOf (program.env (program.check entry).table (program.check entry).annotations) cases
        default ∧
      (parts.arms.map Arm.word).Nodup ∧
      ∀ (P : Platform) (built : Module) (whole behind : Piece) (order : List Arm),
        order.Perm parts.arms → Marked whole → parts.code order ++ behind <:+ whole →
        ∀ (s s' : P.State) (n : Int32), P.Passes built parts.value s [.word n] s' →
          (∀ i arm, parts.arms[i]? = some arm → arm.word = n →
            P.Reaches built whole ⟨parts.code order ++ behind, [], s⟩
              ⟨parts.onward i ++ behind, [], s'.keep parts.slot (.word n)⟩) ∧
          ((∀ arm ∈ parts.arms, arm.word ≠ n) →
            P.Reaches built whole ⟨parts.code order ++ behind, [], s⟩
              ⟨parts.onward parts.arms.length ++ behind, [], s'.keep parts.slot (.word n)⟩) := by
  obtain ⟨type, selects, fit⟩ := casesFit_of_emit sound clean inside emitted
  obtain ⟨parts, same, value, formed, once⟩ := Stmt.exists_switchCode selects fit emitted
  refine ⟨parts, same, value, formed, once, ?_⟩
  intro P built whole behind order permuted marked located s s' n passes
  exact formed.sends once permuted marked located passes

end Program

theorem Sample.switchCode_marked : Marked Sample.switchCode := by
  intro label
  obtain ⟨n⟩ := label
  simp only [Sample.switchCode, List.count_cons, List.count_nil, beq_iff_eq, Instr.mark.injEq,
    reduceCtorEq, if_false, Label.mk.injEq]
  split_ifs <;> omega

theorem leaves_dispatched : ∃ parts : SwitchCode, Sample.switchCode = parts.code parts.arms ∧
    parts.arms.map Arm.word = [1, 7] ∧
    Sample.bare.Reaches ⟨"P", [], [], [], none⟩ Sample.switchCode
      ⟨Sample.switchCode, [], ⟨fun _ => .word 7, [], ()⟩⟩
      ⟨parts.onward 1, [], ⟨fun _ => .word 7, [], ()⟩⟩ := by
  let frame : Frame := ((Sample.declared.withLabels 2).breaking ⟨1⟩).opened
  let s : Sample.bare.State := ⟨fun _ => .word 7, [], ()⟩
  obtain ⟨parts, same, ⟨mid, value⟩, formed, _, sends⟩ :=
    @Program.switch_dispatches Sample.leaves "Main" [.item 0, .body, .item 2, .method 0] _ _ none {}
      (.inl (Sample.isNumbered (by decide +kernel))) (by decide +kernel)
      (List.mem_of_getElem? (i := 3) rfl) frame _ _
      (Sample.emits Sample.switchCode Sample.switched (by decide +kernel))
  have loaded : parts.value = [.ldloc 0] :=
    ((Sample.emits [.ldloc 0] frame (by decide +kernel)).unique value).1
  have passes : Sample.bare.Passes ⟨"P", [], [], [], none⟩ parts.value s [.word 7] s := by
    rw [loaded]
    exact reaches_step rfl rfl
  have words : parts.arms.map Arm.word = [1, 7] := by
    have each := formed.arms
    generalize parts.arms = arms at each ⊢
    cases each with
    | cons one more =>
      cases more with
      | cons two none =>
        cases none
        rw [List.map_cons, List.map_cons, ← Option.some.inj one.1, ← Option.some.inj two.1]
        rfl
  obtain ⟨arm, found, hits⟩ : ∃ arm, parts.arms[1]? = some arm ∧ arm.word = 7 := by
    have second := congrArg (·[1]?) words
    simpa using second
  have kept : s.keep parts.slot (.word 7) = s :=
    congrArg (fun locals => (⟨locals, [], ()⟩ : Sample.bare.State))
      (Function.update_eq_self parts.slot s.locals)
  have reaches := (sends Sample.bare ⟨"P", [], [], [], none⟩ Sample.switchCode [] parts.arms (.refl _)
    Sample.switchCode_marked (by rw [same, List.append_nil]) s s 7 passes).1 1 arm found hits
  rw [kept, List.append_nil, List.append_nil, ← same] at reaches
  exact ⟨parts, same, words, reaches⟩

end StackCode
