import StackCode.Proofs.Emission.Frames
import StackCode.Proofs.Typing.Values

namespace StackCode

open Code Emit

/-- A place holds values of a type; `constant` says whether the place cannot be written. -/
def Home.Holds (env : Env) (frame : Frame) (tag : Tag) (constant : Bool) : Home → Prop
  | .slot i found => found = tag ∧ constant = false ∧
    ∃ slot, frame.locals[i]? = some slot ∧ env.type tag = .ok slot.type
  | .static _ found => found = tag ∧ constant = false
  | .constant value => constant = true ∧ value.Fits ∧
    env.table.registry.accepts tag value.tag = true

structure Env.Sees (env : Env) (frame : Frame) (sight : Sight) : Prop where
  sane : sight.Sane
  registry : env.table.registry = sight.registry
  member? : env.table.sight.member? = sight.member?
  global : ∀ name meaning, sight.meaning? name = some meaning →
    (∀ constant, meaning.kind ≠ .var constant) → env.table.sight.meaning? name = some meaning
  home : ∀ name tag constant, sight.meaning? name = some ⟨tag, .var constant⟩ → tag ≠ .unknown →
    ∃ home, env.home frame name = .ok home ∧ home.Holds env frame tag constant

def Frame.Knows (frame : Frame) (names : List String) : Prop :=
  ∀ name, (frame.scopes.findSome? (·.lookup name)).isSome = true ↔ name ∈ names

/-- Generation is where a place in a method is checked that is in sight of the local `names`. -/
structure Env.Ready (env : Env) (frame : Frame) (sight : Sight) (names : List String) : Prop extends
    env.Sees frame sight where
  knows : frame.Knows names

section Frames

variable {env : Env} {before after : Frame} {sight : Sight} {names : List String}

theorem Home.Holds.of_longer {tag : Tag} {constant : Bool} {home : Home}
    (longer : before.locals <+: after.locals) (holds : home.Holds env before tag constant) :
    home.Holds env after tag constant := by
  cases home with
  | slot i found =>
    obtain ⟨same, writable, slot, inside, typed⟩ := holds
    refine ⟨same, writable, slot, ?_, typed⟩
    obtain ⟨bound, found⟩ := List.getElem?_eq_some_iff.mp inside
    rw [List.prefix_iff_getElem?.mp longer i bound, found]
  | static name found => exact holds
  | constant value => exact holds

theorem Env.home_congr {name : String} (same : after.scopes.findSome? (·.lookup name) =
    before.scopes.findSome? (·.lookup name)) : env.home after name = env.home before name := by
  unfold Env.home
  rw [same]

theorem Env.Ready.of_same (ready : env.Ready before sight names)
    (same : ∀ name, after.scopes.findSome? (·.lookup name) =
      before.scopes.findSome? (·.lookup name))
    (longer : before.locals <+: after.locals) : env.Ready after sight names where
  sane := ready.sane
  registry := ready.registry
  member? := ready.member?
  global := ready.global
  home name tag constant meant known := by
    obtain ⟨home, found, holds⟩ := ready.home name tag constant meant known
    exact ⟨home, (Env.home_congr (same name)).trans found, holds.of_longer longer⟩
  knows name := by rw [same]; exact ready.knows name

theorem Env.Ready.emits {exits own : List Label} {code : Piece} {slots : Nat} {puts : Bool}
    {told : Telling}
    (ready : env.Ready before sight names)
    (emits : before.Emits exits own code after slots puts told) : env.Ready after sight names :=
  ready.of_same (fun _ => by rw [emits.scopes]) emits.locals

theorem Env.Ready.withTemp (ready : env.Ready before sight names) (type : Ty) :
    env.Ready (before.withTemp type) sight names :=
  ready.of_same (fun _ => rfl) (List.prefix_append _ _)

theorem Env.Ready.withLabels (ready : env.Ready before sight names) (count : Nat) :
    env.Ready (before.withLabels count) sight names :=
  ready.of_same (fun _ => rfl) (List.prefix_refl _)

theorem Env.Ready.breaking (ready : env.Ready before sight names) (label : Label) :
    env.Ready (before.breaking label) sight names :=
  ready.of_same (fun _ => rfl) (List.prefix_refl _)

theorem Env.Ready.opened (ready : env.Ready before sight names) :
    env.Ready before.opened sight names :=
  ready.of_same (fun _ => rfl) (List.prefix_refl _)

theorem Frame.findSome?_bind (scopes : List (List (String × Nat × Tag))) (name other : String)
    (slot : Nat) (tag : Tag) : (Frame.bind scopes name slot tag).findSome? (·.lookup other) =
      if other = name then some (slot, tag) else scopes.findSome? (·.lookup other) := by
  unfold Frame.bind
  rw [List.findSome?_cons, List.lookup_cons]
  by_cases same : other = name
  · simp [same]
  · rw [beq_eq_false_iff_ne.mpr same, if_neg same]
    cases scopes <;> simp [List.findSome?_cons]

theorem Env.Ready.withLocal (ready : env.Ready before sight names) {name : String} {type : Ty}
    {tag declared : Tag} (typed : env.type tag = .ok type)
    (held : sight.registry.Held declared) (same : declared = .unknown ∨ declared = tag) :
    env.Ready (before.withLocal name type tag) (sight.declare name ⟨declared, .var false⟩)
      (name :: names) where
  sane := ready.sane.declare held name
  registry := ready.registry
  member? := ready.member?
  global other meaning meant global := by
    rw [Sight.meaning?_declare] at meant
    split at meant
    · cases meant
      exact absurd rfl (global false)
    · exact ready.global other meaning meant global
  home other found constant meant known := by
    rw [Sight.meaning?_declare] at meant
    have longer : before.locals <+: (before.withLocal name type tag).locals :=
      List.prefix_append _ _
    by_cases here : other = name
    · rw [if_pos here] at meant
      cases meant
      rcases same with rfl | rfl
      · exact absurd rfl known
      · refine ⟨.slot before.locals.length declared, ?_, rfl, rfl, ⟨name, type⟩, ?_, typed⟩
        · unfold Env.home
          rw [Frame.withLocal, Frame.findSome?_bind, if_pos here]
        · simp [Frame.withLocal]
    · rw [if_neg here] at meant
      obtain ⟨home, looked, holds⟩ := ready.home other found constant meant known
      refine ⟨home, (Env.home_congr ?_).trans looked, holds.of_longer longer⟩
      rw [Frame.withLocal, Frame.findSome?_bind, if_neg here]
  knows other := by
    rw [Frame.withLocal, Frame.findSome?_bind]
    by_cases here : other = name
    · simp [here]
    · rw [if_neg here, ready.knows other, List.mem_cons]
      simp [here]

end Frames

theorem Env.writtenType_of_known {env : Env} {type : TypeName}
    (known : env.table.typeOf type.name ≠ .unknown) :
    env.writtenType type = .ok (env.table.typeOf type.name) := by
  simp [Env.writtenType, Tag.isUnknown, known]

namespace Env.Sees

variable {env : Env} {frame : Frame} {sight : Sight} (sees : env.Sees frame sight)

include sees

theorem typeOf {text : String} (known : sight.typeOf text ≠ .unknown) :
    env.table.typeOf text = sight.typeOf text := by
  rw [← env.table.sight_typeOf]
  refine Tag.ofBracketed_of_known (fun name tag found => ?_) known
  rw [Sight.classTag?_eq_some] at found ⊢
  exact sees.global name _ found (by simp)

theorem writtenType {type : TypeName} (known : sight.typeOf type.name ≠ .unknown) :
    env.writtenType type = .ok (sight.typeOf type.name) := by
  have same := sees.typeOf known
  rw [← same] at known ⊢
  exact Env.writtenType_of_known known

theorem valued {tag : Tag} (valued : sight.registry.Valued tag) :
    env.table.registry.Valued tag := sees.registry ▸ valued

theorem type_of_valued {tag : Tag} (valued : sight.registry.Valued tag) :
    ∃ type, env.type tag = .ok type ∧ type ≠ .void :=
  Env.type_of_valued (sees.valued valued)

end Env.Sees

end StackCode
