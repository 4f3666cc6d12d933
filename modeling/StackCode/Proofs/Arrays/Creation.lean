import StackCode.Proofs.Arrays.Grid
import StackCode.Proofs.Generation.Contract

namespace StackCode

open Code Emit

theorem Expr.spares {env : Env} {before after : Frame} {code : Piece} (e : Expr)
    (emitted : (e.emit env).Yields before code after) :
    before.Emits [] [] code after e.slots false (e.tokens env.constants) :=
  e.emit_emits emitted

theorem emitSizes_longer {env : Env} {sizes : List Expr} {slots : List Nat} {before after : Frame}
    {code : Piece} (emitted : (emitSizes env sizes).Yields before (code, slots) after) :
    before.locals.length ≤ after.locals.length := by
  have emits : before.Emits [] [] code after _ true _ := emitSizes_emits sizes emitted
  exact emits.locals.length_le

theorem emitGrid_type {env : Env} {base : Tag} {slots : List Nat} {before after : Frame} {code : Piece}
    (emitted : (emitGrid env base slots).Yields before code after) :
    ∃ type, env.type base = .ok type := by
  induction slots generalizing before code with
  | nil =>
    rw [emitGrid] at emitted
    exact absurd emitted not_yields_throw
  | cons slot inner ih =>
    cases inner with
    | nil =>
      obtain ⟨type, typed, _⟩ := emitGrid_one_yields.mp emitted
      exact ⟨type, typed⟩
    | cons second inner =>
      obtain ⟨_, _, _, _, _, _, rowed, _⟩ := emitGrid_cons_yields.mp emitted
      exact ih rowed

namespace Platform

variable (P : Platform) (built : Module) (env : Env)

/-- The sizes of an array are computed one after the other, as their own code does it, and put into
slots. A frame tells which: it is the one in which generation comes to the sizes. -/
inductive Measures : Frame → List Expr → P.State → List Nat → Frame → P.State → Prop
  | nil {frame s} : Measures frame [] s [] frame s
  | cons {frame mid final size rest code count counts s s₁ s'}
      (emitted : (size.emit env).Yields frame code mid)
      (passes : P.Passes built code s [.word (.ofNat count)] s₁) (small : count < 2 ^ 31)
      (others : Measures (mid.withTemp .int32) rest
        (s₁.keep mid.locals.length (.word (.ofNat count))) counts final s') :
      Measures frame (size :: rest) s (count :: counts) final s'

variable {P built env} {frame final after : Frame} {sizes : List Expr} {s s' : P.State}
  {counts : List Nat} {code whole : Piece}

theorem Passes.locals {e : Expr} {mid : Frame} {values : List (Value P.Data)} {slot : Nat}
    (emitted : (e.emit env).Yields frame code mid) (passes : P.Passes built code s values s')
    (old : slot < frame.locals.length) : s'.locals slot = s.locals slot := by
  have absent : .stloc slot ∉ code := fun member => by
    have new := (e.spares emitted).stores rfl slot member
    omega
  exact Reaches.locals absent (List.suffix_refl code) passes

namespace Measures

theorem locals {slot : Nat} (measures : P.Measures built env frame sizes s counts final s')
    (old : slot < frame.locals.length) : s'.locals slot = s.locals slot := by
  induction measures with
  | nil => rfl
  | @cons frame mid _ size _ code count _ s s₁ _ emitted passes _ _ ih =>
    have grows := (size.spares emitted).locals.length_le
    have kept := ih (by rw [Frame.length_withTemp]; omega)
    rw [kept, s₁.keep_locals_of_ne _ (by omega)]
    exact passes.locals emitted old

theorem small (measures : P.Measures built env frame sizes s counts final s') :
    ∀ count ∈ counts, count < 2 ^ 31 := by
  induction measures with
  | nil => simp
  | cons _ _ small _ ih => exact List.forall_mem_cons.mpr ⟨small, ih⟩

theorem reaches {slots : List Nat} {rest : Piece} (marked : Marked whole)
    (measures : P.Measures built env frame sizes s counts final s')
    (emitted : (emitSizes env sizes).Yields frame (code, slots) after)
    (located : code ++ rest <:+ whole) (stack : List (Value P.Data)) :
    after = final ∧ s'.Holds slots counts ∧ (∀ slot ∈ slots, slot < after.locals.length) ∧
      P.Reaches built whole ⟨code ++ rest, stack, s⟩ ⟨rest, stack, s'⟩ := by
  induction measures generalizing code slots with
  | nil =>
    obtain ⟨rfl, rfl, rfl⟩ := emitSizes_nil_yields.mp emitted
    exact ⟨rfl, .nil, by simp, .refl⟩
  | @cons _ _ _ size _ _ count counts s s₁ s' sized passes _ others ih =>
    obtain ⟨value, mid, int, values, slots, sized', typed, _, more, rfl, rfl⟩ :=
      emitSizes_cons_yields.mp emitted
    obtain ⟨rfl, rfl⟩ := sized.unique sized'
    cases typed
    simp only [List.append_assoc, List.cons_append, List.nil_append] at located ⊢
    obtain ⟨same, holds, below, goes⟩ := ih more (behind_cons (behind_append located))
    have grows := emitSizes_longer more
    rw [Frame.length_withTemp] at grows
    have held : s'.locals mid.locals.length = .word (.ofNat count) := by
      rw [others.locals (by rw [Frame.length_withTemp]; omega), State.keep_locals_self]
    have valued : P.Reaches built whole ⟨value ++ .stloc mid.locals.length :: (values ++ rest), stack, s⟩
        ⟨.stloc mid.locals.length :: (values ++ rest), .word (.ofNat count) :: stack, s₁⟩ :=
      (passes.inside marked located).above stack
    refine ⟨same, .cons held holds, List.forall_mem_cons.mpr ⟨by omega, below⟩, valued.trans ?_⟩
    exact .trans (reaches_step rfl rfl) goes

theorem reaches_single {size : Expr} {rest : Piece} (marked : Marked whole)
    (measures : P.Measures built env frame [size] s counts final s')
    (emitted : (size.emit env).Yields frame code after) (located : code ++ rest <:+ whole)
    (stack : List (Value P.Data)) :
    ∃ count s₁, counts = [count] ∧ s' = s₁.keep after.locals.length (.word (.ofNat count)) ∧
      P.Reaches built whole ⟨code ++ rest, stack, s⟩ ⟨rest, .word (.ofNat count) :: stack, s₁⟩ := by
  cases measures with
  | @cons _ mid _ _ _ value count _ _ s₁ _ sized passes _ others =>
    cases others
    obtain ⟨rfl, rfl⟩ := sized.unique emitted
    exact ⟨count, s₁, rfl, rfl, (passes.inside marked located).above stack⟩

end Measures

namespace ListView

theorem Grown.of_keep {view : P.ListView} {t : P.State} {slots slot : Nat} {made : List P.Data}
    (grown : view.Grown slots made s t) (beyond : slots ≤ slot) (value : Value P.Data) :
    view.Grown slots made (s.keep slot value) t :=
  { grown with
    locals := fun other below => by
      rw [s.keep_locals_of_ne value (by omega)]
      exact grown.locals other below }

end ListView

variable (P built env) in
/-- Code that makes an array: wherever it stands in a method, once the sizes have been computed, it
leaves a grid on the stack. The grid consists of new lists, and nothing else is different from when the
sizes have been computed, but for slots that are taken for the code. -/
def MakesArray (L : P.Lists) (frame : Frame) (sizes : List Expr) (zero : Value P.Data)
    (code : Piece) : Prop :=
  ∀ (whole rest : Piece) (stack : List (Value P.Data)) (s s' : P.State) (counts : List Nat)
    (final : Frame), Marked whole → code ++ rest <:+ whole →
    P.Measures built env frame sizes s counts final s' → ∃ value t made,
      P.Reaches built whole ⟨code ++ rest, stack, s⟩ ⟨rest, value :: stack, t⟩ ∧
      L.IsGrid t.world zero counts value made ∧ L.Grown frame.locals.length made s' t

theorem makesArray_single {L : P.Lists} {size : Expr} {type : Ty}
    (emitted : (size.emit env).Yields frame code after) :
    P.MakesArray built env L frame [size] (P.zero type) (code ++ ([.newlist type true] : Piece)) := by
  intro whole rest stack s s' counts final marked located measures
  rw [List.append_assoc] at located ⊢
  have grows := (size.spares emitted).locals.length_le
  have small := measures.small
  obtain ⟨count, s₁, rfl, rfl, sized⟩ := measures.reaches_single marked emitted located stack
  obtain ⟨value, t, made, reaches, grid, grown⟩ :=
    reaches_sized (L := L) (small count List.mem_cons_self) s₁ stack rest
  exact ⟨value, t, made, sized.trans reaches, grid, grown.of_keep grows _⟩

theorem makesArray_grid {L : P.Lists} {base : Tag} {slots : List Nat} {mid : Frame} {grid : Piece}
    {type : Ty} (typed : env.type base = .ok type)
    (sized : (emitSizes env sizes).Yields frame (code, slots) mid)
    (gridded : (emitGrid env base slots).Yields mid grid after) :
    P.MakesArray built env L frame sizes (P.zero type) (code ++ grid) := by
  intro whole rest stack s s' counts final marked located measures
  rw [List.append_assoc] at located ⊢
  have grows := emitSizes_longer sized
  obtain ⟨_, holds, below, measured⟩ := measures.reaches marked sized located stack
  have builds : Builds L built whole grid slots counts mid.locals.length (P.zero type) :=
    emitGrid_builds typed marked gridded below holds.length_eq.symm measures.small
  obtain ⟨value, t, made, reaches, filled, grown⟩ := builds s' stack rest holds (behind_append located)
  exact ⟨value, t, made, measured.trans reaches, filled, grown.mono grows⟩

end Platform

/-- The code of `new T[e1]...[ek]` makes a full grid of new lists with default values of `T` in it. -/
theorem FactorKind.newArray_makes_grid {env : Env} {id : NodeId} {elem : TypeName} {sizes : List Expr}
    {before after : Frame} {code : Piece}
    (emitted : (FactorKind.emit env id (.newArray elem sizes)).Yields before code after) :
    ∃ base type, env.writtenType elem = .ok base ∧ env.type base = .ok type ∧
      ∀ (P : Platform) (L : P.Lists) (built : Module),
        P.MakesArray built env L before sizes (P.zero type) code := by
  by_cases several : sizes.length = 1
  · obtain ⟨size, rfl⟩ := List.length_eq_one_iff.mp several
    obtain ⟨base, count, type, written, counted, typed, rfl⟩ :=
      FactorKind.emit_newArray_one_yields.mp emitted
    exact ⟨base, type, written, typed, fun P L built => Platform.makesArray_single counted⟩
  · obtain ⟨base, values, slots, mid, grid, written, sized, gridded, rfl⟩ :=
      (FactorKind.emit_newArray_yields several).mp emitted
    obtain ⟨type, typed⟩ := emitGrid_type gridded
    exact ⟨base, type, written, typed, fun P L built => Platform.makesArray_grid typed sized gridded⟩

namespace Sample

/-- What there is in a world of lists only, which are numbered as they are made. -/
abbrev Entry := Value (Option Nat)

def initial (elem : Ty) : Entry :=
  if elem = .int32 ∨ elem = .char ∨ elem = .bool then .word 0 else .data none

def serveLists : Service → List Entry → List (List Entry) → Option (Entry × List (List Entry))
  | .newList elem true, [.word n], lists =>
    some (.data (some lists.length), lists ++ [List.replicate n.toInt.toNat (initial elem)])
  | .newList _ false, [], lists => some (.data (some lists.length), lists ++ [[]])
  | .member .add _, [.data (some i), item], lists =>
    lists[i]?.map fun items => (.word 0, lists.set i (items ++ [item]))
  | _, _, _ => none

def listed : Platform where
  Data := Option Nat
  World := List (List Entry)
  single := fun _ => none
  double := fun _ => none
  text := fun _ => none
  null := none
  arith := fun _ _ _ => none
  negate := fun _ => none
  equal := fun _ _ => none
  less := fun _ _ => none
  greater := fun _ _ => none
  sameText := fun _ _ _ => none
  toInt := fun _ => none
  toChar := fun _ => none
  toSingle := fun _ => none
  toDouble := fun _ => none
  serve := serveLists

def itemsOf (lists : List (List Entry)) : Option Nat → Option (List Entry)
  | some i => lists[i]?
  | none => none

def itemsView : listed.ListView where
  elements := itemsOf
  Rest := Unit
  rest := fun _ => ()

theorem itemsView_new (lists : List (List Entry)) (items : List Entry) :
    itemsView.elements lists (some lists.length) = none ∧
      itemsView.Puts lists (lists ++ [items]) (some lists.length) items := by
  refine ⟨List.getElem?_eq_none (le_refl _), List.getElem?_concat_length, ?_, rfl⟩
  intro other different
  cases other with
  | none => rfl
  | some i =>
    have apart : i ≠ lists.length := fun same => different (congrArg some same)
    change (lists ++ [items])[i]? = lists[i]?
    rcases Nat.lt_or_gt_of_ne apart with below | above
    · exact List.getElem?_append_left below
    · have length : (lists ++ [items]).length = lists.length + 1 := List.length_append
      rw [List.getElem?_eq_none (by omega), List.getElem?_eq_none (by omega)]

theorem listed_zero (elem : Ty) : listed.zero elem = initial elem := by
  cases elem <;> rfl

theorem serveLists_sized (lists : List (List Entry)) (elem : Ty) {count : Nat} (small : count < 2 ^ 31) :
    serveLists (.newList elem true) [.word (.ofNat count)] lists =
      some (.data (some lists.length), lists ++ [List.replicate count (initial elem)]) := by
  have same : (Int32.ofNat count).toInt.toNat = count := by
    rw [Int32.toInt_ofNat_of_lt small, Int.toNat_natCast]
  rw [serveLists, same]

theorem serveLists_add (lists : List (List Entry)) (elem : Ty) {i : Nat} {row : Option Nat}
    {items : List Entry} (found : lists[i]? = some items) :
    serveLists (.member .add elem) [.data (some i), .data row] lists =
        some (.word 0, lists.set i (items ++ [.data row])) ∧
      itemsView.Puts lists (lists.set i (items ++ [.data row])) (some i) (items ++ [.data row]) := by
  refine ⟨by rw [serveLists, found]; rfl, ?_, ?_, rfl⟩
  · exact List.getElem?_set_self (List.getElem?_eq_some_iff.mp found).1
  · intro other different
    cases other with
    | none => rfl
    | some j => exact List.getElem?_set_ne fun same => different (congrArg some same.symm)

def lists : listed.Lists where
  toListView := itemsView
  sized := by
    intro elem count lists small
    rw [listed_zero]
    exact ⟨_, _, serveLists_sized lists elem small, itemsView_new lists _⟩
  empty := fun _ lists => ⟨_, _, rfl, itemsView_new lists []⟩
  add := by
    intro elem lists list row items found _
    cases list with
    | none => cases found
    | some i => exact ⟨_, _, serveLists_add lists elem found⟩

def board : FactorKind := .newArray ⟨"int", {}⟩ [value (int 2), value (int 3)]

def boardEnv : Env where
  table := (totals.check "Main").table
  annotations := ({} : Annotations).record 0 .int

def oneSize : Frame := ({} : Frame).withTemp .int32

open Platform in
theorem board_measures (built : Module) (s : listed.State) :
    listed.Measures built boardEnv {} [value (int 2), value (int 3)] s [2, 3] (oneSize.withTemp .int32)
      ((s.keep 0 (.word 2)).keep 1 (.word 3)) := by
  have two : (Expr.emit boardEnv (value (int 2))).Yields {} [.ldcI4 2] {} :=
    Sample.emits _ _ (by decide +kernel)
  have three : (Expr.emit boardEnv (value (int 3))).Yields oneSize [.ldcI4 3] oneSize :=
    Sample.emits _ _ (by decide +kernel)
  exact .cons two (reaches_step rfl rfl) (by decide) (.cons three (reaches_step rfl rfl) (by decide) .nil)

def boardCode : Piece :=
  [.ldcI4 2, .stloc 0, .ldcI4 3, .stloc 1, .ldcI4 0, .stloc 2, .newlist (.list .int32) false, .br ⟨1⟩,
    .mark ⟨0⟩, .dup, .ldloc 1, .newlist .int32 true, .callvirt .add (.list .int32), .ldloc 2, .ldcI4 1,
    .add, .stloc 2, .mark ⟨1⟩, .ldloc 2, .ldloc 0, .clt, .brtrue ⟨0⟩]

def boardFrame : Frame := ((oneSize.withTemp .int32).withTemp .int32).withLabels 2

def boardModule : Module := { name := "P" }

def noLists : listed.State := ⟨fun _ => .word 0, [], []⟩

end Sample

theorem board_makes_grid :
    (FactorKind.emit Sample.boardEnv 0 Sample.board).Yields {} Sample.boardCode Sample.boardFrame ∧
    ∃ value t made,
      Sample.listed.Reaches Sample.boardModule Sample.boardCode
        ⟨Sample.boardCode, [], Sample.noLists⟩ ⟨[], [value], t⟩ ∧
      Sample.lists.IsGrid t.world (.word 0) [2, 3] value made ∧
      Sample.lists.Grown 0 made ((Sample.noLists.keep 0 (.word 2)).keep 1 (.word 3)) t := by
  have emitted : (FactorKind.emit Sample.boardEnv 0 Sample.board).Yields {} Sample.boardCode
      Sample.boardFrame := Sample.emits _ _ (by decide +kernel)
  obtain ⟨base, type, written, typed, makes⟩ := FactorKind.newArray_makes_grid emitted
  cases written
  cases typed
  have grows : Frame.Emits [] [] _ _ _ _ true _ := FactorKind.emit_emits Sample.board emitted
  exact ⟨emitted, makes Sample.listed Sample.lists Sample.boardModule Sample.boardCode [] [] Sample.noLists _
    [2, 3] _ grows.marked (List.suffix_refl _) (Sample.board_measures Sample.boardModule Sample.noLists)⟩

end StackCode
