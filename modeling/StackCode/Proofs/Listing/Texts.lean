import Mathlib
import StackCode.Code.Listing

namespace StackCode.Code

/-- Names hold none of the characters that set them off in a listing. -/
def IsName (name : String) : Prop := ∀ c ∈ [' ', ':', '\n', '(', ',', '/'], c ∉ name.toList

def IsFree (text : String) : Prop := ∀ c ∈ ['\n', '(', ',', '/'], c ∉ text.toList

def Ty.Plain : Ty → Prop
  | .classType name => IsName name
  | .list elem => elem.Plain
  | _ => True

structure Slot.Plain (slot : Slot) : Prop where
  name : IsName slot.name
  type : slot.type.Plain

/-- Well named, and no constant of a floating-point type. -/
def Instr.Plain : Instr → Prop
  | .ldcR4 _ | .ldcR8 _ => False
  | .ldsfld name | .stsfld name | .newobj name | .call name _ => IsName name
  | .ldfld className field | .stfld className field => IsName className ∧ IsName field
  | .newlist type _ | .callvirt _ type | .callHost (.write type) | .callHost (.writePadded type) =>
    type.Plain
  | _ => True

section Reading

variable {α β γ : Type} {a b s t : List α} {d : α}

theorem split_unique (first : d ∉ a) (second : d ∉ b) (same : a ++ d :: s = b ++ d :: t) :
    a = b ∧ s = t := by
  induction a generalizing b with
  | nil =>
    cases b with
    | nil => exact ⟨rfl, (List.cons.inj same).2⟩
    | cons y b => exact absurd (List.cons.inj same).1 (List.ne_of_not_mem_cons second)
  | cons x a ih =>
    cases b with
    | nil => exact absurd (List.cons.inj same).1.symm (List.ne_of_not_mem_cons first)
    | cons y b =>
      obtain ⟨head, tail⟩ := List.cons.inj same
      obtain ⟨front, rest⟩ := ih (List.not_mem_of_not_mem_cons first)
        (List.not_mem_of_not_mem_cons second) tail
      exact ⟨by rw [head, front], rest⟩

theorem split_last_unique (first : d ∉ s) (second : d ∉ t) (same : a ++ d :: s = b ++ d :: t) :
    a = b ∧ s = t := by
  have := split_unique (a := s.reverse) (b := t.reverse) (d := d) (s := a.reverse) (t := b.reverse)
    (by simpa) (by simpa) (by simpa using congrArg List.reverse same)
  simpa [and_comm] using this

/-- A sequence is read piece by piece, up to an end that starts no piece. -/
theorem flatMap_unique {f : α → List β} {g : α → γ} {S : α → Prop} {E : List β → Prop}
    (piece : ∀ {x y s t}, S x → S y → f x ++ s = f y ++ t → g x = g y ∧ s = t)
    (apart : ∀ {x s t}, S x → E t → f x ++ s ≠ t) {s t : List β}
    (first : ∀ x ∈ a, S x) (second : ∀ x ∈ b, S x) (endFirst : E s) (endSecond : E t)
    (same : a.flatMap f ++ s = b.flatMap f ++ t) : a.map g = b.map g ∧ s = t := by
  induction a generalizing b with
  | nil =>
    cases b with
    | nil => exact ⟨rfl, same⟩
    | cons y b =>
      rw [List.flatMap_cons, List.append_assoc] at same
      exact absurd same.symm (apart (second y List.mem_cons_self) endFirst)
  | cons x a ih =>
    rw [List.flatMap_cons, List.append_assoc] at same
    cases b with
    | nil => exact absurd same (apart (first x List.mem_cons_self) endSecond)
    | cons y b =>
      rw [List.flatMap_cons, List.append_assoc] at same
      obtain ⟨head, same⟩ := piece (first x List.mem_cons_self) (second y List.mem_cons_self) same
      obtain ⟨tail, same⟩ := ih (fun z mem => first z (List.mem_cons_of_mem _ mem))
        (fun z mem => second z (List.mem_cons_of_mem _ mem)) same
      exact ⟨by rw [List.map_cons, List.map_cons, head, tail], same⟩

end Reading

section Numerals

variable {base n : Nat}

theorem isAlphanum_of_mem_toDigits (low : 1 < base) (high : base ≤ 16) {c : Char}
    (mem : c ∈ Nat.toDigits base n) : c.isAlphanum := by
  induction n using Nat.strong_induction_on with
  | _ n ih =>
    have digit : ∀ k < 16, k.digitChar.isAlphanum := by decide
    rw [Nat.toDigits_eq_if low] at mem
    split_ifs at mem with small
    · rw [List.mem_singleton.mp mem]
      exact digit n (by omega)
    · rcases List.mem_append.mp mem with mem | mem
      · exact ih _ (Nat.div_lt_self (by omega) low) mem
      · rw [List.mem_singleton.mp mem]
        exact digit _ ((Nat.mod_lt n (by omega)).trans_le high)

theorem toDigits_injective (low : 1 < base) (high : base ≤ 16) :
    Function.Injective (Nat.toDigits base) := by
  intro n
  induction n using Nat.strong_induction_on with
  | _ n ih =>
    intro m same
    have digit : ∀ k < 16, ∀ l < 16, k.digitChar = l.digitChar → k = l := by decide
    rw [Nat.toDigits_eq_if (n := n) low, Nat.toDigits_eq_if (n := m) low] at same
    split_ifs at same
    · exact digit n (by omega) m (by omega) (List.singleton_inj.mp same)
    · simp [List.singleton_eq_append_iff, Nat.toDigits_ne_nil] at same
    · simp [List.append_eq_singleton_iff, Nat.toDigits_ne_nil] at same
    · obtain ⟨same, last⟩ := List.append_inj' same rfl
      have := ih _ (Nat.div_lt_self (by omega) low) same
      have := digit _ ((Nat.mod_lt n (by omega)).trans_le high) _
        ((Nat.mod_lt m (by omega)).trans_le high) (by simpa using last)
      rw [← Nat.div_add_mod n base, ← Nat.div_add_mod m base]
      simp_all

end Numerals

section Escapes

theorem notMem_hex {c : Char} {n : Nat} (other : ¬ c.isAlphanum) : c ∉ Text.hex n :=
  fun mem => other (isAlphanum_of_mem_toDigits (by decide) (by decide) mem)

theorem escapeChar_unique {c d : Char} {s t : List Char}
    (same : Text.escapeChar c ++ s = Text.escapeChar d ++ t) : c = d ∧ s = t := by
  have code (same : Text.hex c.toNat ++ '\x7d' :: s = Text.hex d.toNat ++ '\x7d' :: t) :
      c = d ∧ s = t := by
    obtain ⟨digits, rest⟩ := split_unique (notMem_hex (by decide)) (notMem_hex (by decide)) same
    exact ⟨Char.toNat_inj.mp (toDigits_injective (by decide) (by decide) digits), rest⟩
  unfold Text.escapeChar Text.braced at same
  split_ifs at same <;> simp_all <;> grind

theorem escape_injective : Function.Injective Text.escape := by
  intro s t same
  have nonempty : ∀ c, Text.escapeChar c ≠ [] := by
    intro c
    unfold Text.escapeChar Text.braced
    split_ifs <;> simp
  have := flatMap_unique (g := id) (S := fun _ => True) (E := (· = [])) (a := s) (b := t)
    (fun _ _ => escapeChar_unique) (fun _ none => by simp_all) (by simp) (by simp) rfl rfl
    (by simpa [Text.escape] using same)
  simpa using this

theorem newline_notMem_escape (s : List Char) : '\n' ∉ Text.escape s := by
  intro mem
  obtain ⟨c, _, mem⟩ := List.mem_flatMap.mp mem
  have : '\n' ∉ Text.hex c.toNat := notMem_hex (by decide)
  unfold Text.escapeChar Text.braced at mem
  split_ifs at mem <;> simp_all <;> grind

end Escapes

theorem isFree_append {a b : String} : IsFree (a ++ b) ↔ IsFree a ∧ IsFree b := by
  simp [IsFree]
  tauto

theorem IsName.isFree {name : String} (plain : IsName name) : IsFree name :=
  fun _ stop => plain _ (List.mem_cons_of_mem _ (List.mem_cons_of_mem _ stop))

theorem isFree_repr (n : Nat) : IsFree n.repr := by
  intro c stop mem
  rw [Nat.toList_repr] at mem
  have letters : ∀ c ∈ ['\n', '(', ',', '/'], ¬ c.isAlphanum := by simp
  exact letters c stop (isAlphanum_of_mem_toDigits (by decide) (by decide) mem)

theorem Ty.text_free {type : Ty} (plain : type.Plain) : IsFree type.text := by
  induction type with
  | classType name => exact isFree_append.mpr ⟨by simp [IsFree], IsName.isFree plain⟩
  | list elem ih =>
    exact isFree_append.mpr ⟨isFree_append.mpr ⟨by simp [IsFree], ih plain⟩, by simp [IsFree]⟩
  | _ => simp [IsFree, text]

theorem Ty.text_injective : Function.Injective Ty.text := by
  intro a b same
  induction a generalizing b with
  | list elem ih =>
    replace same := congrArg String.toList same
    cases b <;> simp [text, String.toList_inj] at same ⊢
    exact ih same
  | _ =>
    replace same := congrArg String.toList same
    cases b <;> simp_all [text, String.toList_inj]

theorem Slot.text_injective {a b : Slot} (first : a.Plain) (second : b.Plain)
    (same : a.text = b.text) : a = b := by
  obtain ⟨types, names⟩ := split_last_unique (first.name ' ' (by simp)) (second.name ' ' (by simp))
    (by simpa [text] using congrArg String.toList same)
  have type := Ty.text_injective (String.toList_inj.mp types)
  have name := String.toList_inj.mp names
  cases a
  cases b
  simp_all

theorem Slot.text_free {slot : Slot} (plain : slot.Plain) : IsFree slot.text :=
  isFree_append.mpr ⟨isFree_append.mpr ⟨Ty.text_free plain.type, by simp [IsFree]⟩, plain.name.isFree⟩

namespace Instr

/-- The mnemonics in the order of the instructions; host and base calls are written as calls. -/
def mnemonics : List String :=
  ["ldc.i4", "ldc.r4", "ldc.r8", "ldstr", "ldnull", "ldloc", "stloc", "ldarg", "ldsfld", "stsfld",
    "ldfld", "stfld", "newobj", "newlist", "add", "sub", "mul", "div", "rem", "neg", "and", "or",
    "ceq", "cgt", "clt", "conv.i4", "conv.r4", "conv.r8", "conv.u2", "br", "brtrue", "brfalse",
    "beq", "L", "ret", "call", "callvirt", "host", "base", "dup", "pop"]

def index : Instr → Nat
  | .callHost _ | .callBaseCtor => 35
  | instr => instr.ctorIdx

def mnemonic (index : Nat) : List Char := (mnemonics.getD index "").toList

/-- The mnemonic ends at the first blank. -/
theorem takeWhile_text {instr : Instr} (code : ∀ l, instr ≠ .mark l) :
    instr.text.toList.takeWhile (· != ' ') = mnemonic instr.index := by
  have string (s : String) : toString s = s := rfl
  cases instr with
  | mark l => exact absurd rfl (code l)
  | _ => simp [text, string, index, mnemonic, mnemonics, Instr.ctorIdx]

theorem index_of_text {a b : Instr} (first : ∀ l, a ≠ .mark l) (second : ∀ l, b ≠ .mark l)
    (same : a.text = b.text) : a.index = b.index := by
  have bound (instr : Instr) : instr.index < 41 := by cases instr <;> simp [index, Instr.ctorIdx]
  have distinct : ∀ i < 41, ∀ j < 41, mnemonic i = mnemonic j → i = j := by decide +kernel
  refine distinct _ (bound a) _ (bound b) ?_
  rw [← takeWhile_text first, same, takeWhile_text second]

end Instr

theorem string_text (s : String) : toString s = s := rfl

theorem Label.text_injective : Function.Injective Label.text := by
  rintro ⟨n⟩ ⟨m⟩ same
  simpa [text, string_text] using same

theorem ListMethod.text_injective {a b : ListMethod} {s t : List Char}
    (same : a.text.toList.reverse ++ ':' :: s = b.text.toList.reverse ++ ':' :: t) :
    a = b ∧ s = t := by
  cases a <;> cases b <;> simp [text] at same ⊢ <;> exact same

theorem HostCall.text_injective : Function.Injective HostCall.text := by
  intro a b same
  delta text at same
  have chars := congrArg String.toList same
  cases a <;> cases b <;> simp [String.toList_inj, Ty.text_injective.eq_iff] at chars ⊢
  all_goals exact chars

theorem fields_unique {a b c d : String} (first : IsName a) (second : IsName c)
    (same : a ++ "::" ++ b = c ++ "::" ++ d) : a = c ∧ b = d := by
  have := split_unique (first ':' (by simp)) (second ':' (by simp))
    (by simpa using congrArg String.toList same)
  simpa [String.toList_inj] using this

namespace Instr

theorem call_ne {name : String} {argc : Nat} {instr : Instr} (free : '/' ∉ instr.text.toList) :
    (call name argc).text ≠ instr.text := by
  intro same
  rw [← same] at free
  simp [text, string_text] at free

theorem host_free {host : HostCall} (plain : (callHost host).Plain) {c : Char}
    (stop : c ∈ ['\n', '/']) : c ∉ (callHost host).text.toList := by
  rw [text]
  delta HostCall.text
  have free {type : Ty} (plain : type.Plain) := Ty.text_free plain c (by simp_all; tauto)
  rcases List.mem_pair.mp stop with rfl | rfl
  all_goals
    cases host with
    | write type | writePadded type => simp [free plain]
    | _ => simp

theorem host_ne_base {host : HostCall} : (callHost host).text ≠ callBaseCtor.text := by
  intro same
  have chars := congrArg String.toList same
  rw [text, text] at chars
  delta HostCall.text at chars
  cases host <;> simp at chars

theorem text_injective {a b : Instr} (first : a.Plain) (second : b.Plain)
    (code : ∀ l, a ≠ .mark l) (code' : ∀ l, b ≠ .mark l) (same : a.text = b.text) : a = b := by
  have index := index_of_text code code' same
  cases a <;> cases b <;> first | exact absurd index (of_decide_eq_false rfl) | rfl | skip
  case ldcI4.ldcI4 => simpa [text, Int32.toInt_inj] using same
  case ldcR4.ldcR4 => exact first.elim
  case ldcR8.ldcR8 => exact first.elim
  case ldstr.ldstr => simpa [text, escape_injective.eq_iff, String.toList_inj] using congrArg String.toList same
  case ldfld.ldfld | stfld.stfld =>
    obtain ⟨rfl, rfl⟩ := fields_unique first.1 second.1
      (by simpa [text, String.append_assoc] using same)
    rfl
  case newlist.newlist t sized u sized' =>
    have chars := congrArg (·.toList.reverse) same
    cases sized <;> cases sized' <;> simp [text, String.toList_inj] at chars
    all_goals rw [Ty.text_injective chars]
  case callvirt.callvirt =>
    have := ListMethod.text_injective (by simpa [text] using congrArg (·.toList.reverse) same)
    simpa [String.toList_inj, Ty.text_injective.eq_iff] using this
  case call.call =>
    have := split_unique (first '/' (by simp)) (second '/' (by simp))
      (by simpa [text, string_text] using congrArg String.toList same)
    simpa [String.toList_inj, ← Nat.toList_repr] using this
  case call.callHost => exact absurd same (call_ne (host_free second (by simp)))
  case callHost.call => exact absurd same.symm (call_ne (host_free first (by simp)))
  case call.callBaseCtor => exact absurd same (call_ne (by simp [text]))
  case callBaseCtor.call => exact absurd same.symm (call_ne (by simp [text]))
  case callHost.callHost => simpa [text, HostCall.text_injective.eq_iff] using same
  case callHost.callBaseCtor => exact absurd same host_ne_base
  case callBaseCtor.callHost => exact absurd same.symm host_ne_base
  case mark.mark l _ => exact absurd rfl (code l)
  all_goals simpa [text, string_text, Label.text_injective.eq_iff] using same

theorem newline_notMem_text {instr : Instr} (plain : instr.Plain) : '\n' ∉ instr.text.toList := by
  have numeral (n : Nat) : '\n' ∉ Nat.toDigits 10 n := by
    rw [← Nat.toList_repr]
    exact isFree_repr n _ (by simp)
  cases instr with
  | ldcR4 | ldcR8 => exact plain.elim
  | ldcI4 value =>
    have := numeral value.toInt.toNat
    have := numeral (-value.toInt).toNat
    change '\n' ∉ ("ldc.i4 " ++ value.toInt.repr).toList
    rw [Int.repr_eq_if]
    split <;> simp_all
  | ldstr s => simpa [text] using newline_notMem_escape s.toList
  | ldsfld name | stsfld name | newobj name | call name argc =>
    simpa [text, string_text, numeral] using plain.isFree '\n' (by simp)
  | ldfld c f | stfld c f =>
    simpa [text] using ⟨plain.1.isFree '\n' (by simp), plain.2.isFree '\n' (by simp)⟩
  | newlist type sized =>
    have := Ty.text_free plain '\n' (by simp)
    cases sized <;> simpa [text] using this
  | callvirt method type =>
    have := Ty.text_free plain '\n' (by simp)
    cases method <;> simpa [text, ListMethod.text] using this
  | callHost host => exact host_free plain (by simp)
  | _ => simp [text, Label.text, string_text, numeral]

end Instr

theorem Method.instrLine_cases (instr : Instr) : (∃ label, instr = .mark label) ∨
    (∀ label, instr ≠ .mark label) ∧ instrLine instr = "    " ++ instr.text := by
  cases instr with
  | mark label => exact .inl ⟨label, rfl⟩
  | _ => exact .inr ⟨by simp, rfl⟩

theorem Method.instrLine_injective {a b : Instr} (first : a.Plain) (second : b.Plain)
    (same : instrLine a = instrLine b) : a = b := by
  have chars := congrArg String.toList same
  rcases instrLine_cases a with ⟨label, rfl⟩ | ⟨code, line⟩
  · rcases instrLine_cases b with ⟨label', rfl⟩ | ⟨_, line'⟩
    · simpa [instrLine, Instr.text, Label.text_injective.eq_iff] using same
    · simp [instrLine, Instr.text, Label.text, string_text] at chars
  · rcases instrLine_cases b with ⟨label', rfl⟩ | ⟨code', line'⟩
    · simp [instrLine, Instr.text, Label.text, string_text] at chars
    · exact Instr.text_injective first second code code' (by simpa [line, line'] using same)

end StackCode.Code
