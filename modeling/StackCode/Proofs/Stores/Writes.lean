import StackCode.Proofs.Stores.Places

namespace StackCode

open Code Emit

namespace Platform

variable {P : Platform} {built : Module} {whole rest : Piece} {stack : List (Value P.Data)}
  {s s' : P.State}

namespace Place

variable {Data : Type}

def operands : Place Data → List (Value Data)
  | .slot _ => []
  | .spot p => p.operands

def load : Place Data → Instr
  | .slot i => .ldloc i
  | .spot (.static name) => .ldsfld name
  | .spot (.field _ className name) => .ldfld className name
  | .spot (.item _ elem _) => .callvirt .getItem elem

def store : Place Data → Instr
  | .slot i => .stloc i
  | .spot (.static name) => .stsfld name
  | .spot (.field _ className name) => .stfld className name
  | .spot (.item _ elem _) => .callvirt .setItem elem

end Place

theorem reaches_served {instr : Instr} {below args : List (Value P.Data)} {gives : Bool}
    {service : Service} {value : Value P.Data} {world : P.World} (plain : instr.isPlain = true)
    (operands : instr.operands = below.length)
    (acts : P.act built instr below = P.result gives service args)
    (served : P.serve service args s.world = some (value, world)) :
    P.Reaches built whole ⟨instr :: rest, below ++ stack, s⟩
      ⟨rest, (if gives then [value] else []) ++ stack, { s with world }⟩ := by
  have given : P.result gives service args s = some (if gives then [value] else [], { s with world }) := by
    change (P.serving service args s).bind _ = _
    rw [serving_eq, served]
    rfl
  refine reaches_step plain ?_
  rw [step, operands, if_pos (by simp), List.take_left, List.drop_left, acts, given]
  rfl

namespace Memory

variable (M : P.Memory)

theorem reaches_load (place : Place P.Data) {value : Value P.Data} (found : M.read s place = some value) :
    P.Reaches built whole ⟨place.load :: rest, place.operands.reverse ++ stack, s⟩
      ⟨rest, value :: stack, s⟩ := by
  cases place with
  | slot slot =>
    cases found
    exact reaches_step rfl rfl
  | spot spot =>
    have acts : P.act built (Place.spot spot).load spot.operands.reverse =
        P.result true spot.getter spot.operands := by
      cases spot <;> rfl
    refine reaches_served ?_ ?_ acts (M.gets spot s.world value found) <;> cases spot <;> rfl

theorem reaches_store (place : Place P.Data) {value : Value P.Data} (taken : M.takes s place value)
    (slots : Nat) : ∃ t, P.Reaches built whole
        ⟨place.store :: rest, value :: (place.operands.reverse ++ stack), s⟩ ⟨rest, stack, t⟩ ∧
      M.Writes slots place value s t := by
  cases place with
  | slot slot =>
    refine ⟨s.keep slot value, reaches_step rfl rfl, ?_, fun _ _ => rfl, ?_, rfl, rfl⟩
    · exact congrArg some (s.keep_locals_self slot value)
    · intro other different _
      exact s.keep_locals_of_ne value fun same => different (congrArg _ same.symm)
  | spot spot =>
    obtain ⟨given, world, served, put, others, kept⟩ := M.sets spot s.world value taken
    refine ⟨{ s with world }, ?_, put, ?_, fun _ _ _ => rfl, kept, rfl⟩
    · have acts : P.act built (Place.spot spot).store (value :: spot.operands.reverse) =
          P.result false spot.setter (spot.operands ++ [value]) := by
        cases spot <;> rfl
      refine reaches_served ?_ ?_ acts served <;> cases spot <;> rfl
    · exact fun other different => others other fun same => different (congrArg _ same.symm)

theorem reaches_base {home : Home} {value : Value P.Data} {code : Piece} {tag : Tag}
    (found : M.held s home = some value) (loaded : home.load = .ok (code, tag)) :
    tag = home.tag ∧ P.Reaches built whole ⟨code ++ rest, stack, s⟩ ⟨rest, value :: stack, s⟩ := by
  cases home with
  | slot i _ =>
    cases loaded
    exact ⟨rfl, M.reaches_load (.slot i) found⟩
  | static name _ =>
    cases loaded
    exact ⟨rfl, M.reaches_load (.spot (.static name)) found⟩
  | constant literal =>
    simp only [Home.load, bind_eq_ok, pure_eq_ok, Prod.mk.injEq] at loaded
    obtain ⟨instr, loaded, rfl, rfl⟩ := loaded
    cases found
    exact ⟨rfl, reaches_literal loaded⟩

variable {M} {env : Env} {frame after : Frame} {code : Piece} {target : Designator}
  {place : Place P.Data}

theorem Writes.of_keep {slots slot : Nat} {kept value : Value P.Data} {t : P.State}
    (writes : M.Writes slots place value (s.keep slot kept) t) (beyond : slots ≤ slot) :
    M.Writes slots place value s t where
  written := writes.written
  spots := writes.spots
  locals := by
    intro other different below
    rw [writes.locals other different below, s.keep_locals_of_ne kept (by omega)]
  rest := writes.rest
  args := writes.args

theorem reaches_stepped (M : P.Memory) (op : StepOp) (place : Place P.Data) {n : Int32}
    (found : M.read s place = some (.word n)) (taken : M.takes s place (.word (op.stepped n)))
    (slots : Nat) : ∃ t, P.Reaches built whole
        ⟨place.load :: .ldcI4 1 :: op.instr :: place.store :: rest,
          place.operands.reverse ++ (place.operands.reverse ++ stack), s⟩ ⟨rest, stack, t⟩ ∧
      M.Writes slots place (.word (op.stepped n)) s t := by
  obtain ⟨t, stored, writes⟩ := M.reaches_store place taken slots
  have computed : P.step built op.instr (.word 1 :: .word n :: (place.operands.reverse ++ stack), s) =
      some (.word (op.stepped n) :: (place.operands.reverse ++ stack), s) := by
    cases op <;> rfl
  have plain : op.instr.isPlain = true := by cases op <;> rfl
  exact ⟨t, (M.reaches_load place found).trans <| .trans (reaches_step rfl rfl) <|
    (reaches_step plain computed).trans stored, writes⟩

end Memory

/-- The code between two frames has left the names alone, and its run the slots that were taken. -/
structure Spares (frame : Frame) (s : P.State) (after : Frame) (s' : P.State) : Prop where
  longer : frame.locals.length ≤ after.locals.length
  scopes : after.scopes = frame.scopes
  locals : ∀ slot < frame.locals.length, s'.locals slot = s.locals slot

variable {env : Env} {frame mid after : Frame} {code : Piece} {e : Expr} {value : Value P.Data}

theorem Spares.refl (frame : Frame) (s : P.State) : Spares frame s frame s :=
  ⟨le_rfl, rfl, fun _ _ => rfl⟩

theorem Spares.trans {t : P.State} (first : Spares frame s mid s') (second : Spares mid s' after t) :
    Spares frame s after t where
  longer := first.longer.trans second.longer
  scopes := second.scopes.trans first.scopes
  locals := fun slot old => by
    rw [second.locals slot (old.trans_le first.longer), first.locals slot old]

theorem Spares.keep (frame : Frame) (s : P.State) (type : Ty) (value : Value P.Data) :
    Spares frame s (frame.withTemp type) (s.keep frame.locals.length value) where
  longer := by rw [Frame.length_withTemp]; omega
  scopes := rfl
  locals := fun slot old => s.keep_locals_of_ne value (by omega)

theorem Evaluates.spares (evaluated : P.Evaluates built env frame e s value s' after) :
    Spares frame s after s' := by
  obtain ⟨code, emitted, passes⟩ := evaluated
  have emits := e.spares emitted
  exact ⟨emits.locals.length_le, emits.scopes, fun slot old => passes.locals emitted old⟩

theorem Evaluates.reaches (evaluated : P.Evaluates built env frame e s value s' after)
    (marked : Marked whole) (emitted : (e.emit env).Yields frame code mid)
    (located : code ++ rest <:+ whole) (stack : List (Value P.Data)) :
    mid = after ∧ P.Reaches built whole ⟨code ++ rest, stack, s⟩ ⟨rest, value :: stack, s'⟩ := by
  obtain ⟨_, emitted', passes⟩ := evaluated
  obtain ⟨rfl, rfl⟩ := emitted.unique emitted'
  exact ⟨rfl, (passes.inside marked located).above stack⟩

namespace Memory

variable {M : P.Memory} {here there : P.Cursor} {selectors : List Selector} {target : Designator}
  {place : Place P.Data} {kept : Bool}

theorem Selects.spares (selects : M.Selects built env here selectors there) :
    Spares here.frame here.state there.frame there.state := by
  induction selects with
  | nil => exact .refl _ _
  | field _ _ _ _ ih => exact ih
  | index indexed _ _ _ ih => exact indexed.spares.trans ih

theorem Selects.reaches (marked : Marked whole) (selects : M.Selects built env here selectors there)
    {tag : Tag} (emitted : (emitSelectors env here.tag selectors).Yields here.frame (code, tag) after)
    (located : code ++ rest <:+ whole) (stack : List (Value P.Data)) :
    tag = there.tag ∧ after = there.frame ∧ P.Reaches built whole
      ⟨code ++ rest, here.value :: stack, here.state⟩ ⟨rest, there.value :: stack, there.state⟩ := by
  induction selects generalizing code with
  | nil =>
    obtain ⟨rfl, rfl, rfl⟩ := emitSelectors_nil_yields.mp emitted
    exact ⟨rfl, rfl, .refl⟩
  | @field frame _ object s name className _ _ _ _ named typed found _ ih =>
    obtain ⟨_, _, values, named', typed', more, rfl⟩ := emitSelectors_field_yields.mp emitted
    obtain rfl := Except.ok.inj (named.symm.trans named')
    obtain rfl := Except.ok.inj (typed.symm.trans typed')
    obtain ⟨last, ended, goes⟩ := ih more (behind_cons located)
    exact ⟨last, ended,
      (M.reaches_load (.spot (.field object className name.name)) found).trans goes⟩
  | @index frame _ _ list _ _ e i elem _ _ _ indexed typed found _ ih =>
    obtain ⟨_, _, _, values, coded, typed', more, rfl⟩ := emitSelectors_index_yields.mp emitted
    obtain rfl := Except.ok.inj (typed.symm.trans typed')
    simp only [List.append_assoc, List.cons_append, List.nil_append] at located ⊢
    obtain ⟨rfl, evaluated⟩ := indexed.reaches marked coded located (.data list :: stack)
    obtain ⟨last, ended, goes⟩ := ih more (behind_cons (behind_append located))
    exact ⟨last, ended, evaluated.trans ((M.reaches_load (.spot (.item list elem i)) found).trans goes)⟩

theorem Contains.reaches (marked : Marked whole) (contained : M.Contains built env frame target s there)
    {tag : Tag} (emitted : (target.emitContainer env).Yields frame (code, tag) after)
    (located : code ++ rest <:+ whole) (stack : List (Value P.Data)) :
    tag = there.tag ∧ after = there.frame ∧
      P.Reaches built whole ⟨code ++ rest, stack, s⟩ ⟨rest, there.value :: stack, there.state⟩ := by
  obtain ⟨home, value, placed, held, selects⟩ := contained
  obtain ⟨_, _, _, based, selected, rfl⟩ := Designator.emitContainer_yields.mp emitted
  obtain ⟨_, placed', loaded, _⟩ := emitBase_yields.mp based
  obtain rfl := Except.ok.inj (placed.symm.trans placed')
  rw [List.append_assoc] at located ⊢
  obtain ⟨rfl, base⟩ := M.reaches_base held loaded
  obtain ⟨last, ended, goes⟩ := selects.reaches marked selected (behind_append located) stack
  exact ⟨last, ended, base.trans goes⟩

theorem Contains.spares (contained : M.Contains built env frame target s there) :
    Spares frame s there.frame there.state := by
  obtain ⟨_, _, _, _, selects⟩ := contained
  exact selects.spares

theorem Designates.spares (designated : M.Designates built env frame target s kept place after s') :
    Spares frame s after s' := by
  cases designated with
  | name => exact .refl _ _
  | field _ contained _ => exact contained.spares
  | item _ contained _ indexed => exact contained.spares.trans indexed.spares
  | keptItem _ contained _ _ indexed =>
    exact contained.spares.trans ((Spares.keep _ _ _ _).trans indexed.spares)

theorem home_put {home : Home} {put : Instr} (placed : home.place P.Data = some place)
    (stored : home.put = some put) : put = place.store := by
  cases home <;> cases placed <;> cases stored <;> rfl

/-- A value that is found behind its place is written there. -/
theorem Designates.stores {source : Emit Piece} {s₁ : P.State} {slots : Nat} (marked : Marked whole)
    (designated : M.Designates built env frame target s false place mid s₁)
    (emitted : (target.emitStore env source).Yields frame code after)
    (sees : ∀ {stored}, source.Yields mid stored after → after.scopes = mid.scopes)
    (valued : ∀ {stored rest stack}, source.Yields mid stored after → stored ++ rest <:+ whole →
      P.Reaches built whole ⟨stored ++ rest, stack, s₁⟩ ⟨rest, value :: stack, s'⟩)
    (taken : M.takes s' place value) (located : code ++ rest <:+ whole)
    (stack : List (Value P.Data)) :
    ∃ t, P.Reaches built whole ⟨code ++ rest, stack, s⟩ ⟨rest, stack, t⟩ ∧
      M.Writes slots place value s' t := by
  obtain ⟨t, stored, writes⟩ : ∃ t, P.Reaches built whole
        ⟨place.store :: rest, value :: (place.operands.reverse ++ stack), s'⟩ ⟨rest, stack, t⟩ ∧
      M.Writes slots place value s' t := M.reaches_store place taken slots
  refine ⟨t, ?_, writes⟩
  cases designated with
  | @name _ home _ bare found placed =>
    obtain ⟨_, _, put, coded, found', puts, rfl⟩ :=
      (Designator.emitStore_name_yields bare).mp emitted
    rw [Env.home_congr (congrArg _ (sees coded)), found] at found'
    cases found'
    obtain rfl := home_put placed puts
    rw [List.append_assoc] at located ⊢
    have unchanged : place.operands = [] := by
      cases home <;> cases placed <;> rfl
    rw [unchanged] at stored
    exact (valued coded located).trans stored
  | @field _ name _ _ object className _ last contained named =>
    obtain ⟨_, _, _, _, _, container, named', coded, rfl⟩ :=
      (Designator.emitStore_field_yields last).mp emitted
    simp only [List.append_assoc] at located ⊢
    obtain ⟨rfl, rfl, found⟩ := contained.reaches marked container located stack
    obtain rfl := Except.ok.inj (named.symm.trans named')
    exact found.trans ((valued coded (behind_append located)).trans stored)
  | @item e _ _ list elem i _ _ _ last contained typed indexed =>
    obtain ⟨_, _, _, _, _, _, _, container, positioned, coded, typed', rfl⟩ :=
      (Designator.emitStore_index_yields last).mp emitted
    simp only [List.append_assoc] at located ⊢
    obtain ⟨rfl, rfl, found⟩ := contained.reaches marked container located stack
    obtain rfl := Except.ok.inj (typed.symm.trans typed')
    obtain ⟨rfl, position⟩ :=
      indexed.reaches marked positioned (behind_append located) (.data list :: stack)
    exact found.trans (position.trans ((valued coded (behind_append (behind_append located))).trans stored))

theorem Designates.steps {op : StepOp} {n : Int32} (marked : Marked whole)
    (designated : M.Designates built env frame target s true place mid s')
    (emitted : (target.emitStep env op).Yields frame code after)
    (found : M.read s' place = some (.word n)) (taken : M.takes s' place (.word (op.stepped n)))
    (located : code ++ rest <:+ whole) (stack : List (Value P.Data)) :
    ∃ t, P.Reaches built whole ⟨code ++ rest, stack, s⟩ ⟨rest, stack, t⟩ ∧
      M.Writes frame.locals.length place (.word (op.stepped n)) s' t := by
  cases designated with
  | @name _ home _ bare known placed =>
    obtain ⟨_, _, _, put, known', loaded, puts, rfl, rfl⟩ :=
      (Designator.emitStep_name_yields bare).mp emitted
    obtain rfl := Except.ok.inj (known.symm.trans known')
    obtain ⟨t, stepped, writes⟩ := M.reaches_stepped op place found taken _
    refine ⟨t, ?_, writes⟩
    obtain rfl := home_put placed puts
    cases home <;> cases placed <;> cases loaded <;> exact stepped
  | @field _ name _ _ object className _ last contained named =>
    obtain ⟨_, _, _, container, named', rfl⟩ := (Designator.emitStep_field_yields last).mp emitted
    rw [List.append_assoc] at located ⊢
    obtain ⟨rfl, rfl, reached⟩ := contained.reaches marked container located stack
    obtain rfl := Except.ok.inj (named.symm.trans named')
    obtain ⟨t, stepped, writes⟩ := M.reaches_stepped op _ found taken frame.locals.length
    exact ⟨t, reached.trans (.trans (reaches_step rfl rfl) stepped), writes⟩
  | @keptItem _ _ _ list elem _ i _ s₁ _ last contained typed held indexed =>
    obtain ⟨_, _, mid, _, _, _, next, _, container, typed', held', _, positioned, _, _, _, rfl⟩ :=
      (Designator.emitStep_index_yields last).mp emitted
    simp only [List.append_assoc, List.cons_append, List.nil_append] at located ⊢
    obtain ⟨rfl, rfl, reached⟩ := contained.reaches marked container located stack
    obtain rfl := Except.ok.inj (typed.symm.trans typed')
    obtain rfl := Except.ok.inj (held.symm.trans held')
    obtain ⟨rfl, position⟩ := indexed.reaches marked positioned
      (behind_cons (behind_append located)) stack
    have longer := indexed.spares.longer
    rw [Frame.length_withTemp] at longer
    have listed : M.read (s'.keep next.locals.length (.word i)) (.slot mid.locals.length) =
        some (.data list) := by
      rw [read, s'.keep_locals_of_ne _ (by omega),
        indexed.spares.locals _ (by rw [Frame.length_withTemp]; omega), s₁.keep_locals_self]
    have counted : M.read (s'.keep next.locals.length (.word i)) (.slot next.locals.length) =
        some (.word i) := congrArg some (s'.keep_locals_self _ _)
    have operands (rest : Piece) (stack : List (Value P.Data)) : P.Reaches built whole
        ⟨.ldloc mid.locals.length :: .ldloc next.locals.length :: rest, stack, _⟩
        ⟨rest, .word i :: .data list :: stack, _⟩ :=
      (M.reaches_load (.slot _) listed).trans (M.reaches_load (.slot _) counted)
    have still : M.read (s'.keep next.locals.length (.word i)) (.spot (.item list elem i)) =
        some (.word n) := found
    obtain ⟨t, stepped, writes⟩ := M.reaches_stepped op _ still taken frame.locals.length
    have older : frame.locals.length ≤ mid.locals.length := contained.spares.longer
    refine ⟨t, ?_, writes.of_keep (by omega)⟩
    exact reached.trans <| .trans (reaches_step rfl rfl) <| position.trans <|
      .trans (reaches_step rfl rfl) <| (operands _ _).trans ((operands _ _).trans stepped)

theorem Prepares.spares {stmt : Stmt} (prepared : M.Prepares built env frame s stmt place value s') :
    ∀ slot < frame.locals.length, s'.locals slot = s.locals slot := by
  cases prepared with
  | assign designated evaluated _ => exact (designated.spares.trans evaluated.spares).locals
  | read designated input _ =>
    intro slot old
    have absent : .stloc slot ∉ readCode := by simp [readCode]
    rw [Reaches.locals absent (List.suffix_refl _) input, designated.spares.locals slot old]
  | increment designated _ _ => exact designated.spares.locals
  | decrement designated _ _ => exact designated.spares.locals

end Memory

end Platform

/-- A statement that writes evaluates what its place consists of, then its value, and then writes to
the place and nowhere else. -/
theorem Stmt.writes_to_place {P : Platform} {M : P.Memory} {built : Module} {env : Env} {stmt : Stmt}
    {frame after : Frame} {code whole rest : Piece} {s s' : P.State} {place : Platform.Place P.Data}
    {value : Value P.Data} (emitted : (stmt.emit env).Yields frame code after)
    (prepared : M.Prepares built env frame s stmt place value s') (marked : Marked whole)
    (located : code ++ rest <:+ whole) (stack : List (Value P.Data)) :
    (∀ slot < frame.locals.length, s'.locals slot = s.locals slot) ∧
      ∃ t, P.Reaches built whole ⟨code ++ rest, stack, s⟩ ⟨rest, stack, t⟩ ∧
        M.Writes frame.locals.length place value s' t := by
  refine ⟨prepared.spares, ?_⟩
  cases prepared with
  | assign designated evaluated taken =>
    refine designated.stores marked (Stmt.emit_assign_yields.mp emitted) (fun coded => ?_)
      (fun coded inside => (evaluated.reaches marked coded inside _).2) taken located stack
    exact (Expr.spares _ coded).scopes
  | read designated input taken =>
    refine designated.stores marked (Stmt.emit_read_yields.mp emitted) (fun coded => ?_)
      (fun coded inside => ?_) taken located stack
    · rw [(yields_pure.mp coded).2]
    · obtain ⟨rfl, _⟩ := yields_pure.mp coded
      exact (input.inside marked inside).above _
  | increment designated found taken =>
    exact designated.steps marked (Stmt.emit_increment_yields.mp emitted) found taken located stack
  | decrement designated found taken =>
    exact designated.steps marked (Stmt.emit_decrement_yields.mp emitted) found taken located stack

namespace Sample

open Platform

abbrev Cells := Platform.Spot (Option Nat) → Option Entry

def serveCells : Service → List Entry → Cells → Option (Entry × Cells)
  | .getStatic name, [], cells => (cells (.static name)).map (·, cells)
  | .setStatic name, [value], cells => some (value, Function.update cells (.static name) (some value))
  | .getField className name, [.data object], cells =>
    (cells (.field object className name)).map (·, cells)
  | .setField className name, [.data object, value], cells =>
    some (value, Function.update cells (.field object className name) (some value))
  | .member .getItem elem, [.data list, .word i], cells => (cells (.item list elem i)).map (·, cells)
  | .member .setItem elem, [.data list, .word i, value], cells =>
    some (value, Function.update cells (.item list elem i) (some value))
  | _, _, _ => none

/-- A machine whose world consists of places only. -/
def celled : Platform := { listed with World := Cells, sameText := fun _ _ _ => none, serve := serveCells }

instance : DecidableEq celled.Data := inferInstanceAs (DecidableEq (Option Nat))

def cells : celled.Memory where
  content := fun cells spot => cells spot
  Takes := fun cells spot _ => cells spot ≠ none
  Rest := Unit
  rest := fun _ => ()
  gets := by
    intro spot world value found
    cases spot <;> exact congrArg (Option.map (·, world)) found
  sets := by
    intro spot world value _
    refine ⟨value, Function.update world spot (some value), ?_, Function.update_self .., ?_, rfl⟩
    · cases spot <;> rfl
    · exact fun other different => Function.update_of_ne different ..

/-- `xs[1]++;` -/
def bump : Stmt := .increment (place "xs" [.index (value (int 1))]) {}

/-- The frame behind `int[] xs;`. -/
def listFrame : Frame := { locals := [⟨"xs", .list .int32⟩], scopes := [[("xs", 0, Tag.int.listOf)]] }

def bumpCode : Piece :=
  [.ldloc 0, .stloc 1, .ldcI4 1, .stloc 2, .ldloc 1, .ldloc 2, .ldloc 1, .ldloc 2,
    .callvirt .getItem .int32, .ldcI4 1, .add, .callvirt .setItem .int32]

def bumpFrame : Frame := (listFrame.withTemp (.list .int32)).withTemp .int32

def fortyOnes : celled.State := ⟨fun _ => .data none, [], fun _ => some (.word 41)⟩

end Sample

section Bump

open Sample

theorem bump_writes_to_place :
    (bump.emit boardEnv).Yields listFrame bumpCode bumpFrame ∧
    ∃ t, celled.Reaches boardModule bumpCode ⟨bumpCode, [], fortyOnes⟩ ⟨[], [], t⟩ ∧
      cells.Writes 1 (.spot (.item none .int32 1)) (.word 42) (fortyOnes.keep 1 (.data none)) t := by
  have emitted : (bump.emit boardEnv).Yields listFrame bumpCode bumpFrame :=
    Sample.emits _ _ (by decide +kernel)
  have grows : Frame.Emits [] [] _ _ _ _ true _ := Stmt.emit_emits bump (List.nil_subset _) emitted
  have index : (Expr.emit boardEnv (value (int 1))).Yields (listFrame.withTemp (.list .int32)) [.ldcI4 1]
      (listFrame.withTemp (.list .int32)) := Sample.emits _ _ (by decide +kernel)
  have contained : cells.Contains boardModule boardEnv listFrame (place "xs" [.index (value (int 1))])
      fortyOnes ⟨listFrame, Tag.int.listOf, .data none, fortyOnes⟩ :=
    ⟨.slot 0 Tag.int.listOf, .data none, rfl, rfl, .nil⟩
  have designated : cells.Designates boardModule boardEnv listFrame _ fortyOnes true
      (.spot (.item none .int32 1)) _ (fortyOnes.keep 1 (.data none)) :=
    .keptItem rfl contained rfl rfl ⟨[.ldcI4 1], index, Platform.reaches_step rfl rfl⟩
  have prepared : cells.Prepares boardModule boardEnv listFrame fortyOnes bump
      (.spot (.item none .int32 1)) (.word (41 + 1)) _ := .increment designated rfl (Option.some_ne_none _)
  exact ⟨emitted, (Stmt.writes_to_place emitted prepared grows.marked (List.suffix_refl _) []).2⟩

end Bump

end StackCode
