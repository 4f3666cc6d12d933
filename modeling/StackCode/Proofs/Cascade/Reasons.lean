import StackCode.Proofs.Order.Declarations
import StackCode.Proofs.Strict.Follows
import StackCode.Proofs.Typing.Values

namespace StackCode

def Mismatch.types : Mismatch → List Tag
  | .constantValue _ type _ | .step _ type | .read type | .write type | .missingResult type
  | .selector type | .caseLabel _ type | .index type | .indexed type | .listArgument _ type
  | .delIndex type | .ordArgument type | .chrArgument type | .castTarget type | .negation type
  | .arraySize type | .condition type => [type]
  | .assign value target => [value, target]
  | .result found expected => [found, expected]
  | .argument _ _ expected found => [expected, found]
  | .addElement value list => [value, list]
  | .cast source target => [source, target]
  | .operator _ left right => [left, right]
  | .listElements first other => [first, other]
  | .comparison left _ right => [left, right]
  | .voidVariable | .writeWidth _ | .voidResult | .notVariable _ | .intRange _ | .charRange _
  | .noValue _ | .emptyList => []

def Problem.types : Problem → List Tag
  | .unknownField _ type => [type]
  | .mismatch what => what.types
  | _ => []

/-- Reports that do not name the unknown type, but for casts to a type whose name has just been
reported. -/
inductive Reported : List Diagnostic → Prop
  | nil : Reported []
  | cons {d : Diagnostic} {rest : List Diagnostic} (definite : .unknown ∉ d.problem.types)
      (more : Reported rest) : Reported (d :: rest)
  | cast {name : String} {source : Tag} {span place : Span} {rest : List Diagnostic}
      (known : source ≠ .unknown) (more : Reported rest) :
      Reported (⟨.unknownType name, span⟩ :: ⟨.mismatch (.cast source .unknown), place⟩ :: rest)

namespace Reported

variable {first others : List Diagnostic}

theorem append (one : Reported first) (two : Reported others) : Reported (first ++ others) := by
  induction one with
  | nil => exact two
  | cons definite _ ih => exact .cons definite ih
  | cast known _ ih => exact .cast known ih

theorem single {problem : Problem} (definite : .unknown ∉ problem.types) (span : Span) :
    Reported [⟨problem, span⟩] :=
  .cons definite .nil

theorem getElem? (reported : Reported first) {i : Nat} {d : Diagnostic} (found : first[i]? = some d)
    (named : .unknown ∈ d.problem.types) :
    ∃ j source name span, i = j + 1 ∧ d.problem = .mismatch (.cast source .unknown) ∧
      source ≠ .unknown ∧ first[j]? = some ⟨.unknownType name, span⟩ := by
  induction reported generalizing i with
  | nil => cases found
  | cons definite _ ih =>
    cases i with
    | zero =>
      cases found
      exact absurd named definite
    | succ i =>
      obtain ⟨j, source, name, span, rfl, cast, known, before⟩ := ih found
      exact ⟨j + 1, source, name, span, rfl, cast, known, before⟩
  | @cast name source span place rest known _ ih =>
    match i, found with
    | 0, found =>
      cases found
      cases named
    | 1, found =>
      cases found
      exact ⟨0, source, name, span, rfl, rfl, known, rfl⟩
    | i + 2, found =>
      obtain ⟨j, source, name, span, rfl, cast, known, before⟩ := ih found
      exact ⟨j + 2, source, name, span, rfl, cast, known, before⟩

end Reported

namespace Notes

structure Leads (before after : Notes) : Prop where
  reports : ∃ new, after.errors.toList = before.errors.toList ++ new ∧ Reported new
  uses : before.unknownUses ≤ after.unknownUses

/-- If the type is unknown, a reason has been noted since the tally was `start`. -/
def Explains (notes : Notes) (start : Nat) (type : Tag) : Prop :=
  type = .unknown → start < notes.tally

variable {before mid after : Notes} {start : Nat} {type : Tag}

theorem Leads.refl (notes : Notes) : notes.Leads notes :=
  ⟨⟨[], (List.append_nil _).symm, .nil⟩, le_refl _⟩

theorem Leads.trans (one : before.Leads mid) (two : mid.Leads after) : before.Leads after := by
  obtain ⟨⟨new, added, reported⟩, uses⟩ := one
  obtain ⟨⟨new', added', reported'⟩, uses'⟩ := two
  refine ⟨⟨new ++ new', ?_, reported.append reported'⟩, uses.trans uses'⟩
  rw [added', added, List.append_assoc]

theorem Leads.tally (leads : before.Leads after) : before.tally ≤ after.tally := by
  obtain ⟨⟨new, added, _⟩, uses⟩ := leads
  have size := congrArg List.length added
  simp only [List.length_append, Array.length_toList] at size
  unfold Notes.tally
  omega

theorem explains_of_ne (known : type ≠ .unknown) : after.Explains start type :=
  fun unknown => absurd unknown known

theorem Explains.since {earlier : Nat} (explains : after.Explains start type) (early : earlier ≤ start) :
    after.Explains earlier type :=
  fun unknown => early.trans_lt (explains unknown)

theorem unknown_notMem {types : List Tag} (each : ∀ type ∈ types, after.Explains start type)
    (silent : (decide (start < after.tally) && types.any Tag.isUnknown) = false) : .unknown ∉ types := by
  intro member
  have later := each _ member rfl
  have named : types.any Tag.isUnknown = true := List.any_eq_true.mpr ⟨_, member, rfl⟩
  simp [later, named] at silent

end Notes

/-- The type has values, or a reason why it has none has been noted since the tally was `start`. -/
def Given (registry : Registry) (start : Nat) (type : Tag) (notes : Notes) : Prop :=
  registry.Valued type ∨ (type = .unknown ∨ type = .void) ∧ start < notes.tally

section Given

variable {registry : Registry} {start : Nat} {type : Tag} {notes after : Notes}

theorem given_unknown (later : start < notes.tally) : Given registry start .unknown notes :=
  .inr ⟨.inl rfl, later⟩

theorem Given.explains (given : Given registry start type notes) : notes.Explains start type := by
  rcases given with valued | ⟨_, later⟩
  · exact Notes.explains_of_ne valued.ne_unknown
  · exact fun _ => later

theorem Registry.Held.given (held : registry.Held type) (explains : notes.Explains start type) :
    Given registry start type notes := by
  rcases held with unknown | valued
  · exact .inr ⟨.inl unknown, explains unknown⟩
  · exact .inl valued

theorem Given.mono (given : Given registry start type notes) (leads : notes.Leads after) :
    Given registry start type after :=
  given.imp_right fun ⟨empty, later⟩ => ⟨empty, later.trans_le leads.tally⟩

theorem Given.since {earlier : Nat} (given : Given registry start type notes)
    (early : earlier ≤ start) : Given registry earlier type notes :=
  given.imp_right fun ⟨empty, later⟩ => ⟨empty, early.trans_lt later⟩

end Given

namespace Noting

variable {α β : Type} {notes : Notes}

/-- From these notes on, the check reports as it should, and what it finds is as `post` says. -/
def Tells (f : Noting α) (notes : Notes) (post : α → Notes → Prop) : Prop :=
  notes.Leads (f.outcome notes).2 ∧ post (f.outcome notes).1 (f.outcome notes).2

variable {f : Noting α} {post weaker : α → Notes → Prop} {Q : β → Notes → Prop}

theorem Tells.mono (tells : f.Tells notes post)
    (implies : ∀ a after, notes.Leads after → post a after → weaker a after) : f.Tells notes weaker :=
  ⟨tells.1, implies _ _ tells.1 tells.2⟩

theorem Tells.result (tells : f.Tells notes post) :
    f.Tells notes fun a after => a = (f.outcome notes).1 ∧ post a after :=
  ⟨tells.1, rfl, tells.2⟩

theorem Tells.bind {k : α → Noting β} (first : f.Tells notes post)
    (second : ∀ a after, notes.Leads after → post a after → (k a).Tells after Q) :
    (f >>= k).Tells notes Q := by
  obtain ⟨leads, holds⟩ := second _ _ first.1 first.2
  exact ⟨first.1.trans leads, holds⟩

theorem tells_pure {a : α} (holds : post a notes) : (pure a : Noting α).Tells notes post :=
  ⟨Notes.Leads.refl notes, holds⟩

theorem tells_tally {k : Nat → Noting β} (more : (k notes.tally).Tells notes Q) :
    (tally >>= k).Tells notes Q :=
  more

theorem tells_excused {start : Nat} {types : List Tag} {k : Bool → Noting β}
    (more : (k (decide (start < notes.tally) && types.any Tag.isUnknown)).Tells notes Q) :
    (excused start types >>= k).Tells notes Q :=
  more

theorem tells_report {problem : Problem} (definite : .unknown ∉ problem.types) (span : Span) :
    (report problem span).Tells notes fun _ after => notes.tally < after.tally := by
  refine ⟨⟨⟨[⟨problem, span⟩], Array.toList_push, .single definite span⟩, le_refl _⟩, ?_⟩
  change _ < (notes.errors.push _).size + notes.unknownUses
  rw [Array.size_push, Notes.tally]
  omega

theorem tells_mismatch {what : Mismatch} (definite : .unknown ∉ what.types) (span : Span) :
    (mismatch what span).Tells notes fun _ after => notes.tally < after.tally :=
  tells_report (show .unknown ∉ (Problem.mismatch what).types from definite) span

theorem tells_remark (what : Mismatch) (definite : .unknown ∉ what.types) (span : Span) :
    (mismatch what span).Tells notes fun _ _ => True :=
  (tells_mismatch definite span).mono fun _ _ _ _ => trivial

theorem tells_record (id : NodeId) (type : Tag) :
    (record id type).Tells notes fun _ after => after.tally = notes.tally :=
  ⟨⟨⟨[], (List.append_nil _).symm, .nil⟩, le_refl _⟩, rfl⟩

theorem tells_asDeclared (type : Tag) :
    (asDeclared type).Tells notes fun found after => found = type ∧ after.Explains notes.tally found := by
  unfold asDeclared
  cases known : type.isUnknown with
  | true =>
    refine ⟨⟨⟨[], (List.append_nil _).symm, .nil⟩, Nat.le_succ _⟩, rfl, fun _ => ?_⟩
    exact Nat.lt_succ_self _
  | false =>
    refine ⟨Notes.Leads.refl notes, rfl, ?_⟩
    rintro rfl
    exact absurd known (by decide)

theorem tells_complaint {complaint : Noting Unit} {start : Nat} {registry : Registry}
    (since : start ≤ notes.tally)
    (complains : complaint.Tells notes fun _ after => notes.tally < after.tally) :
    (complaint >>= fun _ => pure Tag.unknown).Tells notes (Given registry start) :=
  complains.bind fun _ _ _ later => tells_pure (given_unknown (since.trans_lt later))

theorem tells_unless {condition : Prop} {_ : Decidable condition} {complaint : Noting Unit}
    {rest : Unit → Noting α} (complains : condition → complaint.Tells notes fun _ _ => True)
    (more : ∀ after, notes.Leads after → (rest ()).Tells after post) :
    (if condition then complaint >>= rest else rest ()).Tells notes post := by
  split
  · rename_i holds
    exact (complains holds).bind fun _ after leads _ => more after leads
  · exact more notes (Notes.Leads.refl notes)

theorem tells_guard {condition : Prop} {_ : Decidable condition} {complaint : Noting Unit}
    (complains : condition → complaint.Tells notes fun _ _ => True) :
    (if condition then complaint else pure ()).Tells notes fun _ _ => True := by
  split
  · rename_i holds
    exact complains holds
  · exact tells_pure trivial

end Noting

end StackCode
