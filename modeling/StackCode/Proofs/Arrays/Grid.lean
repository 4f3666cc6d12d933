import StackCode.Proofs.Arrays.Lists

namespace StackCode

open Code Emit

namespace Platform

variable {P : Platform} {L : P.Lists} {built : Module} {whole : Piece}

def State.Holds (state : P.State) (slots counts : List Nat) : Prop :=
  List.Forall₂ (fun slot count => state.locals slot = .word (.ofNat count)) slots counts

theorem State.Holds.of_kept {s t : P.State} {slots counts : List Nat} {first : Nat}
    (holds : s.Holds slots counts) (below : ∀ slot ∈ slots, slot < first)
    (kept : ∀ slot, slot < first → t.locals slot = s.locals slot) : t.Holds slots counts := by
  induction holds with
  | nil => exact .nil
  | cons held _ ih =>
    rw [List.forall_mem_cons] at below
    exact .cons ((kept _ below.1).trans held) (ih below.2)

theorem step_service {instr : Instr} {service : Service} {world : P.World}
    {args : List (Value P.Data)} {value : Value P.Data} {s : P.State} (gives : Bool)
    (operands : List (Value P.Data)) (takes : instr.operands = operands.length)
    (acts : P.act built instr operands = P.result gives service args)
    (serves : P.serve service args s.world = some (value, world)) (stack : List (Value P.Data)) :
    P.step built instr (operands ++ stack, s) =
      some ((if gives then [value] else []) ++ stack, { s with world }) := by
  have served : P.serving service args s = some (value, { s with world }) := by
    rw [serving_eq, serves]
    rfl
  have result : P.result gives service args s =
      some (if gives then [value] else [], { s with world }) := by
    change (P.serving service args s).bind _ = _
    rw [served]
    rfl
  rw [step, if_pos (by simp [takes]), takes, List.take_left, List.drop_left, acts, result]
  rfl

section Check

variable {i count position limit : Nat} {s : P.State}

theorem reaches_check {check body : Label} {behind rest : Piece} {stack : List (Value P.Data)}
    (marked : Marked whole) (place : .mark body :: behind <:+ whole)
    (at_position : s.locals i = .word (.ofNat position))
    (held : s.locals count = .word (.ofNat limit)) (small : limit < 2 ^ 31)
    (below : position ≤ limit) :
    P.Reaches built whole
      ⟨.mark check :: .ldloc i :: .ldloc count :: .clt :: .brtrue body :: rest, stack, s⟩
      ⟨if position < limit then .mark body :: behind else rest, stack, s⟩ := by
  have compares : P.step built .clt (s.locals count :: s.locals i :: stack, s) =
      some (.truth (decide (position < limit)) :: stack, s) := by
    have less : (Int32.ofNat position < Int32.ofNat limit) ↔ position < limit :=
      Int32.ofNat_lt_iff_lt (by omega) (by omega)
    rw [at_position, held, ← decide_eq_decide.mpr less]
    rfl
  have loads : P.Reaches built whole
      ⟨.mark check :: .ldloc i :: .ldloc count :: .clt :: .brtrue body :: rest, stack, s⟩
      ⟨.brtrue body :: rest, .truth (decide (position < limit)) :: stack, s⟩ :=
    reaches_mark.trans ((reaches_step rfl rfl).trans ((reaches_step rfl rfl).trans
      (reaches_step rfl compares)))
  have goes := loads.trans (reaches_brtrue_truth marked place)
  simp only [decide_eq_true_eq] at goes
  exact goes

end Check

variable (L built whole) in
/-- Code that builds a grid on top of the stack, of the counts in the slots, wherever it stands. It
puts values into slots from `first` on only. -/
def Builds (code : Piece) (slots counts : List Nat) (first : Nat) (zero : Value P.Data) : Prop :=
  ∀ (s : P.State) (stack : List (Value P.Data)) (rest : Piece), s.Holds slots counts →
    code ++ rest <:+ whole → ∃ value t made,
      P.Reaches built whole ⟨code ++ rest, stack, s⟩ ⟨rest, value :: stack, t⟩ ∧
      L.IsGrid t.world zero counts value made ∧ L.Grown first made s t

theorem reaches_sized {elem : Ty} {count slots : Nat} (small : count < 2 ^ 31) (s : P.State)
    (stack : List (Value P.Data)) (rest : Piece) : ∃ value t made,
      P.Reaches built whole ⟨.newlist elem true :: rest, .word (.ofNat count) :: stack, s⟩
        ⟨rest, value :: stack, t⟩ ∧
      L.IsGrid t.world (P.zero elem) [count] value made ∧ L.Grown slots made s t := by
  obtain ⟨list, world, serves, fresh, puts⟩ := L.sized elem count s.world small
  have steps : P.step built (.newlist elem true) (.word (.ofNat count) :: stack, s) = _ :=
    step_service true [.word (.ofNat count)] rfl rfl serves stack
  refine ⟨.data list, { s with world }, [list], reaches_step rfl steps, ?_, .single fresh puts⟩
  exact ⟨list, _, _, rfl, puts.put, List.length_replicate, L.forall₂_zeros world _ count, by simp⟩

/-- A list that is being filled: the position is the number of rows that it has, and nothing but those
rows has been made since `s`. -/
structure Filling (L : P.Lists) (s : P.State) (zero : Value P.Data) (counts : List Nat) (i : Nat)
    (list : P.Data) (rows : List (Value P.Data)) (u : P.State) : Prop where
  position : u.locals i = .word (.ofNat rows.length)
  found : L.elements u.world list = some rows
  made : ∃ parts, List.Forall₂ (L.IsGrid u.world zero counts) rows parts ∧
    L.Grown i (list :: parts.flatten) s u

namespace Filling

variable {s u t : P.State} {zero : Value P.Data} {counts : List Nat} {i : Nat} {list row : P.Data}
  {rows : List (Value P.Data)}

theorem start (zero : Value P.Data) (counts : List Nat) (i : Nat) (elem : Ty) (s : P.State)
    (stack : List (Value P.Data)) : ∃ list t, Filling L s zero counts i list [] t ∧
      ∀ rest, P.Reaches built whole ⟨.ldcI4 0 :: .stloc i :: .newlist elem false :: rest, stack, s⟩
        ⟨rest, .data list :: stack, t⟩ := by
  obtain ⟨list, world, serves, fresh, puts⟩ := L.empty elem (s.keep i (.word 0)).world
  have makes : P.step built (.newlist elem false) (stack, s.keep i (.word 0)) =
      some (.data list :: stack, { s.keep i (.word 0) with world }) :=
    step_service true [] rfl rfl serves stack
  have grown : L.Grown i [list] s { s.keep i (.word 0) with world } :=
    ((ListView.Grown.refl i s).keep (le_refl i)).trans (.single fresh puts)
  refine ⟨list, { s.keep i (.word 0) with world },
    ⟨s.keep_locals_self i (.word 0), puts.put, [], .nil, grown⟩, fun rest => ?_⟩
  exact (reaches_step rfl rfl).trans ((reaches_step rfl rfl).trans (reaches_step rfl makes))

theorem add {part : List P.Data} {world : P.World} (filling : Filling L s zero counts i list rows u)
    (grid : L.IsGrid t.world zero counts (.data row) part) (grown : L.Grown (i + 1) part u t)
    (puts : L.Puts t.world world list (rows ++ [.data row])) :
    Filling L s zero counts i list (rows ++ [.data row])
      (State.keep { t with world } i (.word (.ofNat (rows.length + 1)))) := by
  obtain ⟨parts, built, before⟩ := filling.made
  have apart : list ∉ parts.flatten := (List.nodup_cons.mp before.once).1
  -- What the new row consists of was not there before it.
  have fresh : ∀ inner ∈ part, inner ≠ list ∧ inner ∉ parts.flatten := by
    intro inner member
    have absent := grown.fresh inner member
    refine ⟨?_, fun earlier => before.there inner (List.mem_cons_of_mem list earlier) absent⟩
    rintro rfl
    rw [filling.found] at absent
    cases absent
  constructor
  · rw [State.keep_locals_self, List.length_append, List.length_singleton]
  · exact puts.put
  · refine ⟨parts ++ [part], ?_, ?_⟩
    · have kept : ∀ inner ∈ parts.flatten, L.elements world inner = L.elements u.world inner := by
        intro inner member
        rw [puts.others inner fun same => apart (same ▸ member)]
        exact grown.others inner fun later => (fresh inner later).2 member
      refine List.rel_append (ListView.forall₂_of_flatten built kept fun _ _ => .congr) (.cons ?_ .nil)
      exact grid.congr fun inner member => puts.others inner (fresh inner member).1
    · have all := (before.trans (grown.mono (Nat.le_succ i))).put
        (List.mem_append_left part List.mem_cons_self) puts
      simpa using all.keep (le_refl i)

variable {slots : List Nat} {count limit second : Nat} {elem : Ty} {body check : Label}
  {code rest : Piece} {stack : List (Value P.Data)}

theorem turn (filling : Filling L s zero (second :: counts) i list rows u)
    (builds : Builds L built whole code slots (second :: counts) (i + 1) zero)
    (holds : u.Holds slots (second :: counts))
    (located : code ++ .callvirt .add elem :: .ldloc i :: .ldcI4 1 :: .add :: .stloc i :: rest <:+
      whole) :
    ∃ row u', Filling L s zero (second :: counts) i list (rows ++ [row]) u' ∧
      P.Reaches built whole
        ⟨.mark body :: .dup :: (code ++ .callvirt .add elem :: .ldloc i :: .ldcI4 1 :: .add ::
          .stloc i :: rest), .data list :: stack, u⟩
        ⟨rest, .data list :: stack, u'⟩ := by
  obtain ⟨_, t, part, runs, grid, grown⟩ := builds u (.data list :: .data list :: stack) _ holds located
  obtain ⟨row, rfl, there⟩ := grid.exists_list
  have found : L.elements t.world list = some rows := by
    rw [grown.others list fun member => ?_, filling.found]
    have fresh := grown.fresh list member
    rw [filling.found] at fresh
    cases fresh
  obtain ⟨given, world, serves, puts⟩ := L.add elem t.world list row rows found there
  have adds : P.step built (.callvirt .add elem) (.data row :: .data list :: .data list :: stack, t) =
      some (.data list :: stack, { t with world }) :=
    step_service false [.data row, .data list] rfl rfl serves (.data list :: stack)
  have position : t.locals i = .word (.ofNat rows.length) :=
    (grown.locals i (Nat.lt_succ_self i)).trans filling.position
  have sums : P.step built .add (.word 1 :: t.locals i :: .data list :: stack, { t with world }) =
      some (.word (.ofNat (rows.length + 1)) :: .data list :: stack, { t with world }) := by
    rw [position, Int32.ofNat_add]
    rfl
  refine ⟨.data row, _, filling.add grid grown puts, ?_⟩
  have begins : P.Reaches built whole ⟨.mark body :: .dup :: (code ++ .callvirt .add elem ::
      .ldloc i :: .ldcI4 1 :: .add :: .stloc i :: rest), .data list :: stack, u⟩
      ⟨code ++ .callvirt .add elem :: .ldloc i :: .ldcI4 1 :: .add :: .stloc i :: rest,
        .data list :: .data list :: stack, u⟩ := reaches_mark.trans (reaches_step rfl rfl)
  have ends : P.Reaches built whole ⟨.callvirt .add elem :: .ldloc i :: .ldcI4 1 :: .add :: .stloc i ::
      rest, .data row :: .data list :: .data list :: stack, t⟩ ⟨rest, .data list :: stack,
      State.keep { t with world } i (.word (.ofNat (rows.length + 1)))⟩ :=
    (reaches_step rfl adds).trans ((reaches_step rfl rfl).trans ((reaches_step rfl rfl).trans
      ((reaches_step rfl sums).trans (reaches_step rfl rfl))))
  exact begins.trans (runs.trans ends)

theorem checked (filling : Filling L s zero counts i list rows u) (marked : Marked whole)
    {behind : Piece} (place : .mark body :: behind <:+ whole) (inside : count < i)
    (held : s.locals count = .word (.ofNat limit)) (small : limit < 2 ^ 31)
    (length : rows.length ≤ limit) (check : Label) (rest : Piece) (stack : List (Value P.Data)) :
    P.Reaches built whole
      ⟨.mark check :: .ldloc i :: .ldloc count :: .clt :: .brtrue body :: rest, .data list :: stack, u⟩
      ⟨if rows.length < limit then .mark body :: behind else rest, .data list :: stack, u⟩ := by
  obtain ⟨_, _, grown⟩ := filling.made
  exact reaches_check marked place filling.position ((grown.locals count inside).trans held) small length

theorem run (marked : Marked whole) (holds : s.Holds slots (second :: counts))
    (below : ∀ slot ∈ count :: slots, slot < i) (held : s.locals count = .word (.ofNat limit))
    (small : limit < 2 ^ 31)
    (builds : Builds L built whole code slots (second :: counts) (i + 1) zero)
    (located : .mark body :: .dup :: (code ++ .callvirt .add elem :: .ldloc i :: .ldcI4 1 :: .add ::
      .stloc i :: .mark check :: .ldloc i :: .ldloc count :: .clt :: .brtrue body :: rest) <:+ whole)
    (missing : Nat) (filling : Filling L s zero (second :: counts) i list rows u)
    (length : rows.length + missing = limit) :
    ∃ all u', all.length = limit ∧ Filling L s zero (second :: counts) i list all u' ∧
      P.Reaches built whole
        ⟨.mark check :: .ldloc i :: .ldloc count :: .clt :: .brtrue body :: rest, .data list :: stack, u⟩
        ⟨rest, .data list :: stack, u'⟩ := by
  rw [List.forall_mem_cons] at below
  induction missing generalizing rows u with
  | zero =>
    have checked : P.Reaches built _ _ _ :=
      filling.checked marked located below.1 held small (by omega) check rest stack
    rw [if_neg (by omega)] at checked
    exact ⟨rows, u, length, filling, checked⟩
  | succ missing ih =>
    have checked : P.Reaches built _ _ _ :=
      filling.checked marked located below.1 held small (by omega) check rest stack
    rw [if_pos (by omega)] at checked
    obtain ⟨_, _, grown⟩ := filling.made
    have inside := behind_cons (behind_cons located)
    obtain ⟨row, next, filled, turned⟩ := filling.turn builds (holds.of_kept below.2 grown.locals) inside
    have length' : (rows ++ [row]).length + missing = limit := by
      rw [List.length_append, List.length_singleton]
      omega
    obtain ⟨all, final, count, done, reaches⟩ := ih filled length'
    exact ⟨all, final, count, done, (checked.trans turned).trans reaches⟩

end Filling

variable {env : Env}

theorem emitGrid_builds {base : Tag} {elem : Ty} {slots counts : List Nat} {before after : Frame}
    {code : Piece} (typed : env.type base = .ok elem) (marked : Marked whole)
    (emitted : (emitGrid env base slots).Yields before code after)
    (below : ∀ slot ∈ slots, slot < before.locals.length) (same : counts.length = slots.length)
    (small : ∀ count ∈ counts, count < 2 ^ 31) :
    Builds L built whole code slots counts before.locals.length (P.zero elem) := by
  induction slots generalizing counts before code with
  | nil =>
    rw [emitGrid] at emitted
    exact absurd emitted not_yields_throw
  | cons slot inner ih =>
    cases inner with
    | nil =>
      obtain ⟨_, typed', rfl, rfl⟩ := emitGrid_one_yields.mp emitted
      cases typed.symm.trans typed'
      intro s stack rest holds _
      cases holds with
      | cons held none =>
        cases none
        obtain ⟨value, t, made, reaches, grid, grown⟩ :=
          reaches_sized (L := L) (small _ List.mem_cons_self) s stack rest
        rw [← held] at reaches
        exact ⟨value, t, made, (reaches_step rfl rfl).trans reaches, grid, grown⟩
    | cons second inner =>
      obtain ⟨rowType, int, row, _, _, _, rowed, rfl⟩ := emitGrid_cons_yields.mp emitted
      have next : ((before.withTemp int).withLabels 2).locals.length = before.locals.length + 1 := by
        simp [Frame.withTemp, Frame.withLabels]
      obtain _ | ⟨limit, _ | ⟨first, counts⟩⟩ := counts
      · cases same
      · cases same
      rw [List.forall_mem_cons] at small
      have builds := ih rowed
        (fun slot member => next ▸ Nat.lt_succ_of_lt (below slot (List.mem_cons_of_mem _ member)))
        (Nat.succ.inj same) small.2
      rw [next] at builds
      intro s stack rest holds located
      cases holds with
      | cons held holds =>
        simp only [List.append_assoc, List.cons_append, List.nil_append] at located ⊢
        obtain ⟨list, t, filling, makes⟩ := Filling.start (L := L) (P.zero elem) (first :: counts)
          before.locals.length rowType s stack
        have inBody := behind_cons (behind_cons (behind_cons (behind_cons located)))
        have inCheck := behind_append (behind_cons (behind_cons inBody))
        have inCheck := behind_cons (behind_cons (behind_cons (behind_cons (behind_cons inCheck))))
        obtain ⟨rows, u, length, filled, looped⟩ :=
          filling.run marked holds below held small.1 builds inBody limit (Nat.zero_add limit)
        obtain ⟨parts, inside, grown⟩ := filled.made
        refine ⟨.data list, u, list :: parts.flatten, ?_,
          ⟨list, rows, parts, rfl, filled.found, length, inside, rfl⟩, grown⟩
        exact ((makes _).trans (reaches_br marked inCheck)).trans looped

end Platform

end StackCode
