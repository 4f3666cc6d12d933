import StackCode.Proofs.Listing.Texts

namespace StackCode.Code

/-- The names that programs give, and `.ctor`, are read as names. -/
theorem isName_of_letters {name : String}
    (letters : ∀ c ∈ name.toList, c.isAlphanum ∨ c ∈ ['_', '$', '.']) : IsName name := by
  intro c stop member
  have other : ∀ c ∈ [' ', ':', '\n', '(', ',', '/'], ¬ (c.isAlphanum ∨ c ∈ ['_', '$', '.']) := by
    simp
  exact other c stop (letters c member)

structure Method.Plain (m : Method) : Prop where
  name : IsName m.name
  result : m.result.Plain
  params : ∀ slot ∈ m.params, slot.Plain
  locals : ∀ slot ∈ m.locals, slot.Plain
  code : ∀ instr ∈ m.code, instr.Plain

structure Class.Plain (c : Class) : Prop where
  name : IsName c.name
  fields : ∀ slot ∈ c.fields, slot.Plain
  ctor : c.ctor.Plain

/-- Every name in a module is one, and no constant is of a floating-point type. -/
structure Module.Plain (m : Module) : Prop where
  name : IsName m.name
  classes : ∀ c ∈ m.classes, c.Plain
  statics : ∀ slot ∈ m.statics, slot.Plain
  methods : ∀ method ∈ m.methods, method.Plain
  entry : ∀ name ∈ m.entry, IsName name

def Method.unlabelled (m : Method) : Method := { m with labelCount := 0 }

def Class.unlabelled (c : Class) : Class := { c with ctor := c.ctor.unlabelled }

/-- A module without what its listing does not show: the numbers of labels given out. -/
def Module.unlabelled (m : Module) : Module :=
  { m with
    classes := m.classes.map Class.unlabelled
    methods := m.methods.map Method.unlabelled }

section Reading

variable {α β : Type} {a b s t : List α}

/-- A sequence ends where a property of its elements does. -/
theorem append_unique {p : α → Bool} (first : ∀ x ∈ a, p x) (second : ∀ x ∈ b, p x)
    (behind : ∀ x ∈ s, p x = false) (behind' : ∀ x ∈ t, p x = false) (same : a ++ s = b ++ t) :
    a = b ∧ s = t := by
  have none {l : List α} (each : ∀ x ∈ l, p x = false) : l.filter p = [] := by simpa using each
  have front := congrArg (List.filter p) same
  rw [List.filter_append, List.filter_append, List.filter_eq_self.mpr first,
    List.filter_eq_self.mpr second, none behind, none behind', List.append_nil, List.append_nil] at front
  subst front
  exact ⟨rfl, List.append_cancel_left same⟩

theorem map_unique {f : α → β} {S : α → Prop} (inj : ∀ {x y}, S x → S y → f x = f y → x = y)
    (first : ∀ x ∈ a, S x) (second : ∀ x ∈ b, S x) (same : a.map f = b.map f) : a = b := by
  have := flatMap_unique (f := fun x => [f x]) (g := id) (E := (· = [])) (a := a) (b := b)
    (fun {x y s t} left right same => by
      simp only [List.singleton_append, List.cons.injEq] at same
      exact ⟨inj left right same.1, same.2⟩)
    (by rintro x s t - rfl; simp) first second rfl rfl
  simpa [List.flatMap_singleton', ← List.map_eq_flatMap, same] using this

/-- Texts without a comma are read one after the other. -/
theorem intercalate_unique {xs ys : List String} (first : ∀ x ∈ xs, x ≠ "" ∧ ',' ∉ x.toList)
    (second : ∀ y ∈ ys, y ≠ "" ∧ ',' ∉ y.toList) (same : ", ".intercalate xs = ", ".intercalate ys) :
    xs = ys := by
  have comma (x y : String) (zs : List String) : ',' ∈ (", ".intercalate (x :: y :: zs)).toList := by
    simp [String.intercalate_cons_cons]
  induction xs generalizing ys with
  | nil =>
    rcases ys with _ | ⟨y, _ | ⟨z, ys⟩⟩
    · rfl
    · simp_all
    · exact absurd (comma y z ys) (by simp [← same])
  | cons x xs ih =>
    rw [List.forall_mem_cons] at first
    rcases xs with _ | ⟨x', xs⟩ <;> rcases ys with _ | ⟨y, _ | ⟨y', ys⟩⟩
    · simp_all
    · simpa using same
    · exact absurd (comma y y' ys) (by simpa [← same] using first.1.2)
    · exact absurd (comma x x' xs) (by simp [same])
    · exact absurd (comma x x' xs) (by simp_all)
    · rw [List.forall_mem_cons] at second
      rw [String.intercalate_cons_cons, String.intercalate_cons_cons] at same
      obtain ⟨head, tail⟩ := split_unique first.1.2 second.1.2
        (by simpa using congrArg String.toList same)
      rw [String.toList_inj.mp head, ih first.2 second.2 (String.toList_inj.mp (by simpa using tail))]

theorem notMem_intercalate {x : α} {xs : List (List α)} (outside : x ∉ s) (free : ∀ l ∈ xs, x ∉ l) :
    x ∉ s.intercalate xs := by
  induction xs with
  | nil => simp
  | cons l xs ih =>
    rw [List.forall_mem_cons] at free
    cases xs with
    | nil => simpa using free.1
    | cons l' xs => simpa [List.intercalate_cons_cons, outside, free.1] using ih free.2

end Reading

namespace Method

theorem headline_unique {m n : Method} (first : m.Plain) (second : n.Plain)
    (same : m.headline = n.headline) :
    m.kind = n.kind ∧ m.result = n.result ∧ m.name = n.name ∧ m.params = n.params := by
  have front {m : Method} (plain : m.Plain) : '(' ∉ m.result.text.toList ++ ' ' :: m.name.toList := by
    simp [Ty.text_free plain.result _, plain.name '(' _]
  have commas {m : Method} (plain : m.Plain) :
      ∀ x ∈ m.params.map Slot.text, x ≠ "" ∧ ',' ∉ x.toList := by
    intro x member
    obtain ⟨slot, inside, rfl⟩ := List.mem_map.mp member
    exact ⟨by simp [Slot.text], Slot.text_free (plain.params slot inside) _ (by simp)⟩
  have kinds : m.kind = n.kind := by
    have chars := congrArg String.toList same
    cases left : m.kind <;> cases right : n.kind <;> try rfl
    · cases type : n.result <;> simp [headline, left, right, type, Ty.text] at chars
    · cases type : m.result <;> simp [headline, left, right, type, Ty.text] at chars
  have chars := congrArg String.toList same
  rw [headline, headline, kinds] at chars
  obtain ⟨left, right⟩ := split_unique (d := '(') (front first) (front second) (by simpa using chars)
  obtain ⟨result, name⟩ := split_last_unique (first.name ' ' (by simp)) (second.name ' ' (by simp)) left
  have params := intercalate_unique (commas first) (commas second)
    (String.toList_inj.mp (by simpa using right))
  exact ⟨kinds, Ty.text_injective (String.toList_inj.mp result), String.toList_inj.mp name,
    map_unique Slot.text_injective first.params second.params params⟩

theorem mem_localLines {n : Nat} {slots : List Slot} {line : String} (member : line ∈ localLines n slots) :
    ∃ k : Nat, ∃ slot ∈ slots, line = "  .local " ++ toString k ++ " " ++ slot.text := by
  induction slots generalizing n with
  | nil => cases member
  | cons slot slots ih =>
    rcases List.mem_cons.mp member with rfl | member
    · exact ⟨n, slot, List.mem_cons_self, rfl⟩
    · obtain ⟨k, slot, inside, same⟩ := ih member
      exact ⟨k, slot, List.mem_cons_of_mem _ inside, same⟩

theorem localLines_unique {n : Nat} {a b : List Slot} (first : ∀ slot ∈ a, slot.Plain)
    (second : ∀ slot ∈ b, slot.Plain) (same : localLines n a = localLines n b) : a = b := by
  induction a generalizing n b with
  | nil => cases b <;> simp_all [localLines]
  | cons slot a ih =>
    cases b with
    | nil => simp [localLines] at same
    | cons slot' b =>
      rw [List.forall_mem_cons] at first second
      simp only [localLines, List.cons.injEq, String.append_right_inj] at same
      rw [Slot.text_injective first.1 second.1 same.1, ih first.2 second.2 same.2]

theorem take_of_mem_localLines {n : Nat} {slots : List Slot} {line : String}
    (member : line ∈ localLines n slots) : line.toList.take 3 == [' ', ' ', '.'] := by
  obtain ⟨k, slot, _, rfl⟩ := mem_localLines member
  simp

theorem take_of_instrLine {code : List Instr} {line : String} (member : line ∈ code.map instrLine) :
    (line.toList.take 3 == [' ', ' ', '.']) = false := by
  obtain ⟨instr, _, rfl⟩ := List.mem_map.mp member
  rcases instrLine_cases instr with ⟨label, rfl⟩ | ⟨_, line⟩
  · simp [instrLine, Instr.text, Label.text, string_text]
  · simp [line]

/-- The lines but the last one. -/
def body (m : Method) : List String := m.headline :: (localLines 0 m.locals ++ m.code.map instrLine)

theorem lines_eq (m : Method) : m.lines = m.body ++ ["\x7d"] := by
  simp [lines, body]

theorem first_of_mem_body {m : Method} {line : String} (member : line ∈ m.body) :
    line.toList[0]? = some 'm' ∨ line.toList[0]? = some ' ' := by
  rcases List.mem_cons.mp member with rfl | member
  · simp [headline]
  · rcases List.mem_append.mp member with member | member
    · obtain ⟨k, slot, _, rfl⟩ := mem_localLines member
      simp
    · obtain ⟨instr, _, rfl⟩ := List.mem_map.mp member
      rcases instrLine_cases instr with ⟨label, rfl⟩ | ⟨_, line⟩
      · simp [instrLine]
      · simp [line]

theorem body_unique {m n : Method} (first : m.Plain) (second : n.Plain) (same : m.body = n.body) :
    m.unlabelled = n.unlabelled := by
  obtain ⟨head, rest⟩ := List.cons.inj same
  obtain ⟨kind, result, name, params⟩ := headline_unique first second head
  obtain ⟨locals, code⟩ := append_unique (p := (·.toList.take 3 == [' ', ' ', '.']))
    (fun _ => take_of_mem_localLines) (fun _ => take_of_mem_localLines) (fun _ => take_of_instrLine)
    (fun _ => take_of_instrLine) rest
  have locals := localLines_unique first.locals second.locals locals
  have code := map_unique instrLine_injective first.code second.code code
  cases m
  cases n
  simp_all [unlabelled]

/-- A method ends with the first line that is only a brace. -/
theorem lines_unique {m n : Method} {indent : String} {s t : List String} (first : m.Plain)
    (second : n.Plain) (same : indented indent m.lines ++ s = indented indent n.lines ++ t) :
    m.unlabelled = n.unlabelled ∧ s = t := by
  have inside (m : Method) : indent ++ "\x7d" ∉ m.body.map (indent ++ ·) := by
    intro member
    obtain ⟨line, member, same⟩ := List.mem_map.mp member
    rw [String.append_right_inj] at same
    rw [same] at member
    simpa using first_of_mem_body member
  obtain ⟨bodies, rest⟩ := split_unique (inside m) (inside n)
    (by simpa [indented, lines_eq] using same)
  refine ⟨body_unique first second (map_unique (S := fun _ => True) ?_ ?_ ?_ bodies), rest⟩ <;> simp

theorem newline_notMem_lines {m : Method} (plain : m.Plain) {line : String} (member : line ∈ m.lines) :
    '\n' ∉ line.toList := by
  have free {text : String} (free : IsFree text) := free '\n' (by simp)
  rw [lines_eq, body] at member
  simp only [List.mem_append, List.mem_cons, List.mem_map, List.not_mem_nil, or_false] at member
  rcases member with (rfl | member | ⟨instr, inside, rfl⟩) | rfl
  · have params : '\n' ∉ [',', ' '].intercalate (m.params.map (String.toList ∘ Slot.text)) := by
      refine notMem_intercalate (by simp) (List.forall_mem_map.mpr fun slot inside => ?_)
      exact free (Slot.text_free (plain.params slot inside))
    have result := free (Ty.text_free plain.result)
    cases kind : m.kind <;> simp [headline, kind, params, result, free plain.name.isFree]
  · obtain ⟨k, slot, inside, rfl⟩ := mem_localLines member
    have numeral := free (isFree_repr k)
    simp_all [free (Slot.text_free (plain.locals slot inside))]
  · rcases instrLine_cases instr with ⟨label, rfl⟩ | ⟨_, line⟩
    · have := Instr.newline_notMem_text (plain.code _ inside)
      simpa [instrLine] using this
    · simp [line, Instr.newline_notMem_text (plain.code _ inside)]
  · simp

theorem first_of_mem_lines {m : Method} {line : String} (member : line ∈ m.lines) :
    line.toList[0]? = some 'm' ∨ line.toList[0]? = some ' ' ∨ line.toList[0]? = some '\x7d' := by
  rw [lines_eq] at member
  rcases List.mem_append.mp member with inside | last
  · exact (first_of_mem_body inside).imp_right .inl
  · exact .inr (.inr (by simp_all))

end Method

namespace Class

theorem lines_unique {c d : Class} {s t : List String} (first : c.Plain) (second : d.Plain)
    (same : c.lines ++ s = d.lines ++ t) : c.unlabelled = d.unlabelled ∧ s = t := by
  have field (c : Class) : ∀ line ∈ c.fields.map (fun field => "    field " ++ field.text),
      line.toList[4]? == some 'f' := by
    simp
  have method (c : Class) : ∀ line ∈ indented "    " c.ctor.lines,
      (line.toList[4]? == some 'f') = false := by
    intro line member
    obtain ⟨line, inside, rfl⟩ := List.mem_map.mp member
    rcases Method.first_of_mem_lines inside with first | first | first <;> simp [first]
  have inside (c : Class) : "  \x7d" ∉ ("  class " ++ c.name ++ " \x7b") ::
      (c.fields.map (fun field => "    field " ++ field.text) ++ indented "    " c.ctor.lines) := by
    simp [indented, ← String.toList_inj]
  obtain ⟨bodies, rest⟩ := split_unique (inside c) (inside d) (by simpa [lines] using same)
  obtain ⟨head, tail⟩ := List.cons.inj bodies
  obtain ⟨fields, ctor⟩ := append_unique (field c) (field d) (method c) (method d) tail
  have name : c.name = d.name := by simpa using head
  have fields : c.fields = d.fields :=
    map_unique (fun left right same => Slot.text_injective left right (by simpa using same))
      first.fields second.fields fields
  have ctor := (Method.lines_unique first.ctor second.ctor (congrArg (· ++ []) ctor)).1
  refine ⟨?_, (List.cons.inj rest).2⟩
  rw [unlabelled, unlabelled, name, fields, ctor]

theorem newline_notMem_lines {c : Class} (plain : c.Plain) {line : String}
    (member : line ∈ c.lines) : '\n' ∉ line.toList := by
  have free {text : String} (free : IsFree text) := free '\n' (by simp)
  simp only [lines, indented, List.mem_append, List.mem_cons, List.mem_map, List.not_mem_nil,
    or_false] at member
  rcases member with ((rfl | ⟨field, inside, rfl⟩) | ⟨line, inside, rfl⟩) | rfl | rfl
  · simp [free plain.name.isFree]
  · simp [free (Slot.text_free (plain.fields field inside))]
  · simp [Method.newline_notMem_lines plain.ctor inside]
  · simp
  · simp

end Class

namespace Module

theorem lines_unique {m n : Module} (first : m.Plain) (second : n.Plain) (same : m.lines = n.lines) :
    m.unlabelled = n.unlabelled := by
  have static (m : Module) : ∀ line ∈ m.statics.map (fun field => "  static field " ++ field.text),
      line.toList[2]? == some 's' := by
    simp
  have method (m : Module) :
      ∀ line ∈ m.methods.flatMap (fun method => "" :: indented "  " method.lines) ++ ["\x7d"],
        (line.toList[2]? == some 's') = false := by
    intro line member
    simp only [indented, List.mem_append, List.mem_flatMap, List.mem_cons, List.mem_map,
      List.not_mem_nil, or_false] at member
    rcases member with ⟨method, _, rfl | ⟨line, inside, rfl⟩⟩ | rfl
    · simp
    · rcases Method.first_of_mem_lines inside with first | first | first <;> simp [first]
    · simp
  have entries : m.entry = n.entry := by
    cases left : m.entry <;> cases right : n.entry <;>
      simp [lines, left, right, ← String.toList_inj] at same ⊢
    exact same.2.2.1
  rw [lines, lines, entries] at same
  simp only [List.append_assoc, List.cons_append, List.nil_append, List.cons.injEq,
    List.append_cancel_left_eq, String.append_right_inj, true_and] at same
  obtain ⟨name, _, _, same⟩ := same
  -- Behind the classes comes a static field, the blank line in front of a method, or the end.
  have behind (m : Module) : (m.statics.map (fun field => "  static field " ++ field.text) ++
      (m.methods.flatMap (fun method => "" :: indented "  " method.lines) ++ ["\x7d"]))[0]?.all
        (·.toList[2]? != some 'c') := by
    rcases m.statics with _ | ⟨field, _⟩
    · rcases m.methods with _ | ⟨method, _⟩ <;> simp
    · simp
  obtain ⟨classes, same⟩ := flatMap_unique (g := Class.unlabelled)
    (E := fun t => t[0]?.all (·.toList[2]? != some 'c')) Class.lines_unique
    (by rintro c s t - other rfl; simp [Class.lines] at other)
    first.classes second.classes (behind m) (behind n) same
  obtain ⟨statics, same⟩ := append_unique (static m) (static n) (method m) (method n) same
  have statics : m.statics = n.statics :=
    map_unique (fun left right same => Slot.text_injective left right (by simpa using same))
      first.statics second.statics statics
  obtain ⟨methods, _⟩ := flatMap_unique (g := Method.unlabelled) (E := (· = ["\x7d"]))
    (fun left right same => Method.lines_unique left right (List.cons.inj same).2)
    (by rintro method s t - rfl; simp [← String.toList_inj]) first.methods second.methods rfl rfl same
  rw [unlabelled, unlabelled, name, classes, statics, methods, entries]

theorem newline_notMem_lines {m : Module} (plain : m.Plain) : ∀ line ∈ m.lines, '\n' ∉ line.toList := by
  intro line member
  have free {text : String} (free : IsFree text) := free '\n' (by simp)
  simp only [lines, indented, List.mem_append, List.mem_cons, List.mem_map, List.mem_flatMap,
    Option.mem_toList, Option.map_eq_some_iff, List.not_mem_nil, or_false] at member
  rcases member with ((((((rfl | rfl) | ⟨name, main, rfl⟩) | rfl | rfl) | ⟨c, inside, shown⟩) |
    ⟨slot, inside, rfl⟩) | ⟨method, inside, rfl | ⟨line, shown, rfl⟩⟩) | rfl
  · simp [free plain.name.isFree]
  · have numeral (n : Nat) := free (isFree_repr n)
    simp_all [string_text]
  · simp [free (plain.entry name main).isFree]
  · simp
  · simp [free plain.name.isFree]
  · exact Class.newline_notMem_lines (plain.classes c inside) shown
  · simp [free (Slot.text_free (plain.statics slot inside))]
  · simp
  · simp [Method.newline_notMem_lines (plain.methods method inside) shown]
  · simp

/-- Two modules have the same listing only if they differ in nothing but the numbers of labels given
out. -/
theorem listing_eq_iff {m n : Module} (first : m.Plain) (second : n.Plain) :
    m.listing = n.listing ↔ m.unlabelled = n.unlabelled := by
  constructor
  · intro same
    have lines := flatMap_unique (f := fun line => line.toList ++ ['\n']) (g := id) (E := (· = []))
      (a := m.lines) (b := n.lines) (s := []) (t := [])
      (fun left right same => by
        obtain ⟨head, tail⟩ := split_unique left right (by simpa using same)
        exact ⟨String.toList_inj.mp head, tail⟩)
      (by rintro x s t - rfl; simp) (newline_notMem_lines first) (newline_notMem_lines second) rfl rfl
      (by simpa [listing, String.toList_join, List.flatMap_map] using congrArg String.toList same)
    exact lines_unique first second (by simpa using lines)
  · intro same
    have shown (m : Module) : m.unlabelled.lines = m.lines := by
      simp only [lines, unlabelled, List.length_map, List.flatMap_map]
      rfl
    rw [listing, listing, ← shown m, ← shown n, same]

def sampleModule (text : String) (labels : Nat) : Module where
  name := "Chain"
  classes := [.plain "Link" [⟨"next", .classType "Link"⟩]]
  statics := [⟨"links", .list (.classType "Link")⟩]
  methods := [{ name := "Main", code := [.ldstr text, .pop, .ret], labelCount := labels }]
  entry := some "Main"

/-- The numbers of labels given out are not shown; a line feed is told from the letters that show it. -/
theorem sampleModule_listing : sampleModule "a\n\x7d" 1 ≠ sampleModule "a\n\x7d" 2 ∧
    (sampleModule "a\n\x7d" 1).listing = (sampleModule "a\n\x7d" 2).listing ∧
    (sampleModule "a\n" 1).listing ≠ (sampleModule "a\\n" 1).listing := by
  have plain (text : String) (labels : Nat) : (sampleModule text labels).Plain := by
    constructor
    · exact isName_of_letters (by simp [sampleModule])
    · rintro _ (_ | ⟨_, ⟨⟩⟩)
      refine ⟨isName_of_letters (by simp [Class.plain]), ?_,
        ⟨isName_of_letters (by simp [Class.plain]), ?_, ?_, ?_, ?_⟩⟩
      · rintro _ (_ | ⟨_, ⟨⟩⟩)
        exact ⟨isName_of_letters (by simp), isName_of_letters (by simp)⟩
      all_goals simp [Class.plain, Ty.Plain, Instr.Plain]
    · rintro _ (_ | ⟨_, ⟨⟩⟩)
      exact ⟨isName_of_letters (by simp), isName_of_letters (by simp)⟩
    · rintro _ (_ | ⟨_, ⟨⟩⟩)
      refine ⟨isName_of_letters (by simp), ?_, ?_, ?_, ?_⟩
      all_goals simp [Ty.Plain, Instr.Plain]
    · rintro _ ⟨⟩
      exact isName_of_letters (by simp)
  exact ⟨by decide, (listing_eq_iff (plain _ 1) (plain _ 2)).mpr rfl,
    (listing_eq_iff (plain _ 1) (plain _ 1)).not.mpr (by decide)⟩

end Module

end StackCode.Code
