import StackCode.Proofs.Emission.Labels
import StackCode.Proofs.Machine.Straight

namespace StackCode

open Code

def resume (code : Piece) (label : Label) : Option Piece :=
  match code.dropWhile (· != .mark label) with
  | [] => none
  | rest => some rest

def jump (code : Piece) (label : Label) (rest : Piece) (taken : Bool) : Option Piece :=
  if taken then resume code label else some rest

def Marked (code : Piece) : Prop := ∀ label, code.count (.mark label) ≤ 1

namespace Platform

variable (P : Platform) (built : Module)

structure Config where
  rest : Piece
  stack : List (Value P.Data)
  state : P.State

def alike : Value P.Data → Value P.Data → Option Bool
  | .word a, .word b => some (a == b)
  | .data a, .data b => P.equal a b
  | _, _ => none

def go (code rest : Piece) : Instr → List (Value P.Data) → Option (Piece × List (Value P.Data))
  | .mark _, stack => some (rest, stack)
  | .br label, stack => (resume code label).map (·, stack)
  | .brtrue label, .word n :: stack => (jump code label rest (n != 0)).map (·, stack)
  | .brfalse label, .word n :: stack => (jump code label rest (n == 0)).map (·, stack)
  | .beq label, b :: a :: stack =>
    (P.alike a b).bind fun same => (jump code label rest same).map (·, stack)
  | _, _ => none

def next (code : Piece) : P.Config → Option P.Config
  | ⟨[], _, _⟩ => none
  | ⟨instr :: rest, stack, state⟩ =>
    if instr.isPlain then
      (P.step built instr (stack, state)).map fun (stack, state) => ⟨rest, stack, state⟩
    else (P.go code rest instr stack).map fun (rest, stack) => ⟨rest, stack, state⟩

def Reaches (code : Piece) : P.Config → P.Config → Prop :=
  Relation.ReflTransGen fun config after => P.next built code config = some after

/-- What a piece of code does on its own: it runs from its start, on the empty stack, to its end. -/
def Passes (code : Piece) (state : P.State) (stack : List (Value P.Data)) (after : P.State) : Prop :=
  P.Reaches built code ⟨code, [], state⟩ ⟨[], stack, after⟩

end Platform

theorem Frame.Grows.marked {exits : List Label} {before after : Frame} {code : Piece} {slots : Nat}
    (grows : Frame.Grows exits [] before code after slots) : Marked code := by
  intro label
  rw [grows.marks label.number, List.count_nil]
  split <;> omega

theorem behind_append {x y whole : Piece} (located : x ++ y <:+ whole) : y <:+ whole :=
  (List.suffix_append x y).trans located

variable {instr : Instr}

theorem behind_cons {rest whole : Piece} (located : instr :: rest <:+ whole) : rest <:+ whole :=
  (List.suffix_cons instr rest).trans located

theorem resume_eq_some {code rest : Piece} {label : Label} (found : resume code label = some rest) :
    rest <:+ code ∧ ∃ behind, rest = .mark label :: behind := by
  have first := List.head?_dropWhile_not (· != Instr.mark label) code
  have suffix := List.dropWhile_suffix (· != Instr.mark label) (l := code)
  unfold resume at found
  cases dropped : code.dropWhile (· != .mark label) with
  | nil =>
    rw [dropped] at found
    cases found
  | cons instr behind =>
    rw [dropped] at found first suffix
    obtain rfl := Option.some.inj found
    have same : instr = .mark label := by simpa using first
    exact ⟨suffix, behind, by rw [same]⟩

theorem resume_of_suffix {code behind : Piece} {label : Label} (marked : Marked code)
    (located : .mark label :: behind <:+ code) : resume code label = some (.mark label :: behind) := by
  obtain ⟨before, rfl⟩ := located
  have once := marked label
  rw [List.count_append, List.count_cons_self] at once
  have absent : .mark label ∉ before := List.count_eq_zero.mp (by omega)
  have dropped : (before ++ .mark label :: behind).dropWhile (· != .mark label) =
      .mark label :: behind := by
    rw [List.dropWhile_append_of_pos fun instr member => ?_]
    · simp
    · simp only [bne_iff_ne, ne_eq]
      rintro rfl
      exact absent member
  rw [resume, dropped]

namespace Platform

variable {P : Platform} {built : Module} {code whole after : Piece}

theorem resume_inside (marked : Marked whole) (located : code ++ after <:+ whole) {label : Label}
    {rest : Piece} (found : resume code label = some rest) :
    resume whole label = some (rest ++ after) := by
  obtain ⟨⟨before, rfl⟩, behind, rfl⟩ := resume_eq_some found
  exact resume_of_suffix marked (List.IsSuffix.trans ⟨before, by simp⟩ located)

variable {target : Piece}

theorem jump_inside (marked : Marked whole) (located : code ++ after <:+ whole) {label : Label}
    {rest : Piece} {taken : Bool} (found : jump code label rest taken = some target) :
    jump whole label (rest ++ after) taken = some (target ++ after) := by
  cases taken with
  | true => exact resume_inside marked located found
  | false =>
    cases found
    rfl

theorem go_inside (marked : Marked whole) (located : code ++ after <:+ whole) {rest : Piece}
    {stack stack' : List (Value P.Data)} (goes : P.go code rest instr stack = some (target, stack')) :
    P.go whole (rest ++ after) instr stack = some (target ++ after, stack') := by
  unfold go at goes
  split at goes
  · cases goes
    rfl
  · obtain ⟨_, found, same⟩ := Option.map_eq_some_iff.mp goes
    cases same
    rw [go, resume_inside marked located found]
    rfl
  · obtain ⟨_, found, same⟩ := Option.map_eq_some_iff.mp goes
    cases same
    rw [go, jump_inside marked located found]
    rfl
  · obtain ⟨_, found, same⟩ := Option.map_eq_some_iff.mp goes
    cases same
    rw [go, jump_inside marked located found]
    rfl
  · obtain ⟨_, compared, goes⟩ := Option.bind_eq_some_iff.mp goes
    obtain ⟨_, found, same⟩ := Option.map_eq_some_iff.mp goes
    cases same
    rw [go, compared, Option.bind_some, jump_inside marked located found]
    rfl
  · cases goes

variable {config next : P.Config}

theorem next_inside (marked : Marked whole) (located : code ++ after <:+ whole)
    (steps : P.next built code config = some next) :
    P.next built whole ⟨config.rest ++ after, config.stack, config.state⟩ =
      some ⟨next.rest ++ after, next.stack, next.state⟩ := by
  obtain ⟨rest, stack, state⟩ := config
  cases rest with
  | nil => cases steps
  | cons instr rest =>
    rw [Platform.next] at steps
    rw [List.cons_append, Platform.next]
    split at steps
    · obtain ⟨_, acts, rfl⟩ := Option.map_eq_some_iff.mp steps
      rw [if_pos ‹_›, acts]
      rfl
    · obtain ⟨⟨target, stack'⟩, goes, rfl⟩ := Option.map_eq_some_iff.mp steps
      rw [if_neg ‹_›, go_inside marked located goes]
      rfl

theorem Reaches.inside (marked : Marked whole) (located : code ++ after <:+ whole) {final : P.Config}
    (reaches : P.Reaches built code config final) :
    P.Reaches built whole ⟨config.rest ++ after, config.stack, config.state⟩
      ⟨final.rest ++ after, final.stack, final.state⟩ := by
  induction reaches with
  | refl => exact .refl
  | tail _ steps ih => exact ih.tail (next_inside marked located steps)

theorem Passes.inside (marked : Marked whole) (located : code ++ after <:+ whole)
    {state state' : P.State} {stack : List (Value P.Data)}
    (passes : P.Passes built code state stack state') :
    P.Reaches built whole ⟨code ++ after, [], state⟩ ⟨after, stack, state'⟩ :=
  Reaches.inside marked located passes

theorem jump_suffix {label : Label} {rest : Piece} {taken : Bool} (located : rest <:+ whole)
    (found : jump whole label rest taken = some target) : target <:+ whole := by
  cases taken with
  | true => exact (resume_eq_some found).1
  | false =>
    cases found
    exact located

theorem go_suffix {rest : Piece} {stack stack' : List (Value P.Data)} (located : rest <:+ whole)
    (goes : P.go whole rest instr stack = some (target, stack')) : target <:+ whole := by
  unfold go at goes
  split at goes
  · cases goes
    exact located
  · obtain ⟨_, found, same⟩ := Option.map_eq_some_iff.mp goes
    cases same
    exact (resume_eq_some found).1
  · obtain ⟨_, found, same⟩ := Option.map_eq_some_iff.mp goes
    cases same
    exact jump_suffix located found
  · obtain ⟨_, found, same⟩ := Option.map_eq_some_iff.mp goes
    cases same
    exact jump_suffix located found
  · obtain ⟨_, _, goes⟩ := Option.bind_eq_some_iff.mp goes
    obtain ⟨_, found, same⟩ := Option.map_eq_some_iff.mp goes
    cases same
    exact jump_suffix located found
  · cases goes

theorem next_suffix (located : config.rest <:+ whole) (steps : P.next built whole config = some next) :
    next.rest <:+ whole := by
  obtain ⟨rest, stack, state⟩ := config
  cases rest with
  | nil => cases steps
  | cons instr rest =>
    have behind := behind_cons located
    rw [Platform.next] at steps
    split at steps
    · obtain ⟨_, _, rfl⟩ := Option.map_eq_some_iff.mp steps
      exact behind
    · obtain ⟨⟨target, stack'⟩, goes, rfl⟩ := Option.map_eq_some_iff.mp steps
      exact go_suffix behind goes

section Above

variable {stack stack' : List (Value P.Data)} {state state' : P.State} (under : List (Value P.Data))

theorem step_above (acts : P.step built instr (stack, state) = some (stack', state')) :
    P.step built instr (stack ++ under, state) = some (stack' ++ under, state') := by
  rw [step] at acts ⊢
  split at acts
  · obtain ⟨⟨top, _⟩, acts, same⟩ := Option.map_eq_some_iff.mp acts
    cases same
    have enough : instr.operands ≤ (stack ++ under).length := by
      rw [List.length_append]
      omega
    rw [if_pos enough, List.take_append_of_le_length ‹_›, List.drop_append_of_le_length ‹_›, acts,
      List.append_assoc]
    rfl
  · cases acts

theorem go_above {rest : Piece} (goes : P.go whole rest instr stack = some (target, stack')) :
    P.go whole rest instr (stack ++ under) = some (target, stack' ++ under) := by
  unfold go at goes
  split at goes
  · cases goes
    rfl
  · obtain ⟨_, found, same⟩ := Option.map_eq_some_iff.mp goes
    cases same
    rw [go, found]
    rfl
  · obtain ⟨_, found, same⟩ := Option.map_eq_some_iff.mp goes
    cases same
    rw [List.cons_append, go, found]
    rfl
  · obtain ⟨_, found, same⟩ := Option.map_eq_some_iff.mp goes
    cases same
    rw [List.cons_append, go, found]
    rfl
  · obtain ⟨_, compared, goes⟩ := Option.bind_eq_some_iff.mp goes
    obtain ⟨_, found, same⟩ := Option.map_eq_some_iff.mp goes
    cases same
    rw [List.cons_append, List.cons_append, go, compared, Option.bind_some, found]
    rfl
  · cases goes

theorem next_above (steps : P.next built whole config = some next) :
    P.next built whole ⟨config.rest, config.stack ++ under, config.state⟩ =
      some ⟨next.rest, next.stack ++ under, next.state⟩ := by
  obtain ⟨rest, stack, state⟩ := config
  cases rest with
  | nil => cases steps
  | cons instr rest =>
    rw [Platform.next] at steps ⊢
    split at steps
    · obtain ⟨_, acts, rfl⟩ := Option.map_eq_some_iff.mp steps
      rw [if_pos ‹_›, step_above under acts]
      rfl
    · obtain ⟨⟨target, stack'⟩, goes, rfl⟩ := Option.map_eq_some_iff.mp steps
      rw [if_neg ‹_›, go_above under goes]
      rfl

theorem Reaches.above {final : P.Config} (reaches : P.Reaches built whole config final) :
    P.Reaches built whole ⟨config.rest, config.stack ++ under, config.state⟩
      ⟨final.rest, final.stack ++ under, final.state⟩ := by
  induction reaches with
  | refl => exact .refl
  | tail _ steps ih => exact ih.tail (next_above under steps)

end Above

section Steps

variable {label : Label} {rest behind : Piece} {stack stack' : List (Value P.Data)}
  {state state' : P.State}

theorem reaches_step (plain : instr.isPlain = true)
    (acts : P.step built instr (stack, state) = some (stack', state')) :
    P.Reaches built whole ⟨instr :: rest, stack, state⟩ ⟨rest, stack', state'⟩ := by
  refine .single ?_
  rw [next, if_pos plain, acts]
  rfl

theorem reaches_go (branch : instr.isPlain = false)
    (goes : P.go whole rest instr stack = some (behind, stack')) :
    P.Reaches built whole ⟨instr :: rest, stack, state⟩ ⟨behind, stack', state⟩ := by
  refine .single ?_
  rw [next, if_neg (by simp [branch]), goes]
  rfl

theorem reaches_mark :
    P.Reaches built whole ⟨.mark label :: rest, stack, state⟩ ⟨rest, stack, state⟩ :=
  reaches_go rfl rfl

variable (marked : Marked whole) (located : .mark label :: behind <:+ whole)

include marked located

theorem reaches_br :
    P.Reaches built whole ⟨.br label :: rest, stack, state⟩ ⟨.mark label :: behind, stack, state⟩ := by
  refine reaches_go rfl ?_
  rw [go, resume_of_suffix marked located]
  rfl

theorem reaches_brtrue {n : Int32} : P.Reaches built whole
    ⟨.brtrue label :: rest, .word n :: stack, state⟩
    ⟨if n != 0 then .mark label :: behind else rest, stack, state⟩ := by
  refine reaches_go rfl ?_
  rw [go, jump]
  split
  · rw [resume_of_suffix marked located]
    rfl
  · rfl

theorem reaches_brtrue_truth {holds : Bool} : P.Reaches built whole
    ⟨.brtrue label :: rest, .truth holds :: stack, state⟩
    ⟨if holds then .mark label :: behind else rest, stack, state⟩ := by
  cases holds with
  | true => exact reaches_brtrue marked located
  | false => exact reaches_brtrue marked located

theorem reaches_brfalse {n : Int32} : P.Reaches built whole
    ⟨.brfalse label :: rest, .word n :: stack, state⟩
    ⟨if n != 0 then rest else .mark label :: behind, stack, state⟩ := by
  refine reaches_go rfl ?_
  rw [go, jump, bne]
  cases n == 0 with
  | true =>
    rw [if_pos rfl, resume_of_suffix marked located]
    rfl
  | false => rfl

theorem reaches_beq {a b : Value P.Data} {same : Bool} (compared : P.alike a b = some same) :
    P.Reaches built whole ⟨.beq label :: rest, b :: a :: stack, state⟩
      ⟨if same then .mark label :: behind else rest, stack, state⟩ := by
  refine reaches_go rfl ?_
  rw [go, compared, Option.bind_some, jump]
  split
  · rw [resume_of_suffix marked located]
    rfl
  · rfl

end Steps

end Platform

end StackCode
