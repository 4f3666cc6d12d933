import StackCode.Proofs.Emission.Inventory
import StackCode.Proofs.Emission.StmtCode

namespace StackCode

open Code Emit

theorem mem_labelsFrom {first count : Nat} {label : Label} :
    label ∈ labelsFrom first count ↔ first ≤ label.number ∧ label.number < first + count := by
  obtain ⟨n⟩ := label
  simp [labelsFrom, List.mem_range'_1]

theorem mem_own {first count : Nat} {exits : List Label} (i : Nat) (taken : i < count) :
    ⟨first + i⟩ ∈ labelsFrom first count ++ exits :=
  List.mem_append_left _ (mem_labelsFrom.mpr ⟨Nat.le_add_right _ _, Nat.add_lt_add_left taken _⟩)

theorem labelsFrom_nodup (first count : Nat) : (labelsFrom first count).Nodup :=
  (List.nodup_range' (s := first) (n := count)).map fun _ _ same => congrArg Label.number same

theorem count_labelsFrom (first count n : Nat) :
    (labelsFrom first count).count ⟨n⟩ = if first ≤ n ∧ n < first + count then 1 else 0 := by
  rw [(labelsFrom_nodup first count).count]
  simp only [mem_labelsFrom]

/-- What generating `code` does to a frame: `slots` new slots, and new labels that the code marks once
each. Beside those it marks the labels `own`, and it can go to the labels `exits`, which others
mark. -/
structure Frame.Grows (exits own : List Label) (before : Frame) (code : Piece) (after : Frame)
    (slots : Nat) : Prop where
  locals : before.locals <+: after.locals
  count : after.locals.length = before.locals.length + slots
  labels : before.labelCount ≤ after.labelCount
  breaks : after.breakLabels = before.breakLabels
  marks : ∀ n, code.count (.mark ⟨n⟩) =
    own.count ⟨n⟩ + if before.labelCount ≤ n ∧ n < after.labelCount then 1 else 0
  targets : ∀ instr ∈ code, ∀ target, instr.target? = some target →
    target ∈ exits ∨ (before.labelCount ≤ target.number ∧ target.number < after.labelCount)

def Frame.hides (frame : Frame) (name : String) : Bool :=
  (frame.scopes.findSome? (·.lookup name)).isSome

/-- The same, with no change to the names in sight, where the words and signs of the code are those of
`telling`. Unless it `puts` values into other slots, the code uses slots that are new. -/
structure Frame.Emits (exits own : List Label) (before : Frame) (code : Piece) (after : Frame)
    (slots : Nat) (puts : Bool) (telling : Telling) :
    Prop extends Frame.Grows exits own before code after slots where
  scopes : after.scopes = before.scopes
  stores : puts = false → ∀ slot, .stloc slot ∈ code → before.locals.length ≤ slot
  told : tokens code = telling before.hides

def Code.Instr.isPlain (instr : Instr) : Bool :=
  match instr with
  | .mark _ => false
  | instr => instr.target?.isNone

def Code.Instr.isBare : Instr → Bool
  | .stloc _ | .ldcI4 _ | .neg => false
  | instr => instr.isPlain

def Plain (code : Piece) : Prop := ∀ instr ∈ code, instr.isPlain = true

def Bare (code : Piece) : Prop := ∀ instr ∈ code, instr.isBare = true

@[simp]
theorem plain_nil : Plain [] := by simp [Plain]

@[simp]
theorem bare_nil : Bare [] := by simp [Bare]

@[simp]
theorem bare_cons {instr : Instr} {code : Piece} :
    Bare (instr :: code) ↔ instr.isBare = true ∧ Bare code := by
  simp [Bare]

theorem bare_single {instr : Instr} (bare : instr.isBare = true) : Bare [instr] := by simp [bare]

theorem Bare.plain {code : Piece} (bare : Bare code) : Plain code := by
  intro instr member
  have bare := bare instr member
  cases instr <;> first | exact bare | cases bare

theorem Bare.tokens_eq {code : Piece} (bare : Bare code) : tokens code = [] := by
  refine List.filterMap_eq_nil_iff.mpr fun instr member => ?_
  have bare := bare instr member
  cases instr <;> first | rfl | cases bare

theorem tokens_append (x y : Piece) : tokens (x ++ y) = tokens x ++ tokens y := List.filterMap_append

namespace Frame

variable {exits own own' : List Label} {puts : Bool} {a b c : Frame} {x y : Piece} {m n : Nat}
  {told told' : Telling}

theorem Grows.append (first : Grows exits own a x b m) (second : Grows exits own' b y c n) :
    Grows exits (own ++ own') a (x ++ y) c (m + n) where
  locals := first.locals.trans second.locals
  count := by rw [second.count, first.count, Nat.add_assoc]
  labels := first.labels.trans second.labels
  breaks := second.breaks.trans first.breaks
  marks := by
    intro label
    have low := first.labels
    have high := second.labels
    rw [List.count_append, List.count_append, first.marks, second.marks]
    split_ifs <;> omega
  targets := by
    intro instr member target branches
    have low := first.labels
    have high := second.labels
    rcases List.mem_append.mp member with member | member
    · exact (first.targets instr member target branches).imp_right fun range => by omega
    · exact (second.targets instr member target branches).imp_right fun range => by omega

theorem Emits.hides (emits : Emits exits own a x b m puts told) : b.hides = a.hides :=
  funext fun name => by rw [Frame.hides, emits.scopes, Frame.hides]

theorem Emits.append (first : Emits exits own a x b m puts told)
    (second : Emits exits own' b y c n puts told') :
    Emits exits (own ++ own') a (x ++ y) c (m + n) puts fun hides => told hides ++ told' hides where
  toGrows := first.toGrows.append second.toGrows
  scopes := second.scopes.trans first.scopes
  stores := by
    intro other slot member
    rcases List.mem_append.mp member with member | member
    · exact first.stores other slot member
    · exact first.locals.length_le.trans (second.stores other slot member)
  told := by rw [tokens_append, first.told, second.told, first.hides]

theorem Grows.of_plain (frame : Frame) (plain : Plain x) : Grows exits [] frame x frame 0 where
  locals := List.prefix_refl _
  count := rfl
  labels := le_refl _
  breaks := rfl
  marks := by
    intro label
    have absent : Instr.mark ⟨label⟩ ∉ x := fun member => by simpa [Instr.isPlain] using plain _ member
    rw [List.count_eq_zero_of_not_mem absent, if_neg (by omega), List.count_nil]
  targets := by
    intro instr member target branches
    have plain := plain instr member
    cases instr <;> simp_all [Instr.isPlain, Instr.target?]

theorem Emits.of_plain (frame : Frame) (plain : Plain x) (stays : puts = false → ∀ slot, .stloc slot ∉ x) :
    Emits exits [] frame x frame 0 puts fun _ => tokens x where
  toGrows := .of_plain frame plain
  scopes := rfl
  stores := fun other slot member => absurd member (stays other slot)
  told := rfl

theorem Emits.of_bare (frame : Frame) (bare : Bare x) :
    Emits exits [] frame x frame 0 puts fun _ => [] := by
  have emits : Emits exits [] frame x frame 0 puts fun _ => tokens x :=
    .of_plain frame bare.plain fun _ slot member => by cases bare _ member
  rwa [bare.tokens_eq] at emits

theorem Emits.nil (frame : Frame) : Emits exits [] frame [] frame 0 puts fun _ => [] :=
  .of_bare frame bare_nil

theorem Emits.singleMark (frame : Frame) (label : Label) :
    Emits exits [label] frame [.mark label] frame 0 puts fun _ => [] where
  locals := List.prefix_refl _
  count := rfl
  labels := le_refl _
  breaks := rfl
  scopes := rfl
  stores := by simp
  told := rfl
  marks := by
    intro other
    rw [if_neg (by omega)]
    simp [List.count_singleton]
  targets := by simp [Instr.target?]

theorem Emits.singleJump (frame : Frame) {instr : Instr} {target : Label}
    (branches : instr.target? = some target) (known : target ∈ exits) :
    Emits exits [] frame [instr] frame 0 puts fun _ => [] where
  locals := List.prefix_refl _
  count := rfl
  labels := le_refl _
  breaks := rfl
  scopes := rfl
  stores := by cases instr <;> simp_all [Instr.target?]
  told := by cases instr <;> first | rfl | cases branches
  marks := by
    intro label
    rw [if_neg (by omega)]
    cases instr <;> simp_all [Instr.target?]
  targets := by
    intro other member label found
    rw [List.mem_singleton] at member
    subst member
    rw [branches] at found
    exact .inl (Option.some.inj found ▸ known)

theorem Grows.of_eq (grows : Grows exits own a x b m) (same : m = n) : Grows exits own a x b n :=
  same ▸ grows

theorem Emits.of_eq (emits : Emits exits own a x b m puts told) (same : m = n) :
    Emits exits own a x b n puts told :=
  same ▸ emits

theorem Emits.telling (emits : Emits exits own a x b m puts told)
    (same : told a.hides = told' a.hides) : Emits exits own a x b m puts told' :=
  { emits with told := emits.told.trans same }

/-- Behind code comes some that has nothing to do with labels, stores, words and signs. -/
theorem Emits.then (emits : Emits exits own a x b m puts told) (bare : Bare y) :
    Emits exits own a (x ++ y) b m puts told := by
  have whole := (emits.append (.of_bare b bare)).telling (List.append_nil _)
  rwa [List.append_nil] at whole

theorem Emits.after (bare : Bare y) (emits : Emits exits own a x b m puts told) :
    Emits exits own a (y ++ x) b m puts told :=
  ((Emits.of_bare a bare).append emits).of_eq (Nat.zero_add m)

theorem Emits.plain {instr : Instr} (bare : instr.isBare = true)
    (rest : Emits exits own a x b n puts told) : Emits exits own a (instr :: x) b n puts told :=
  rest.after (bare_single bare)

theorem Emits.word {value : Int32} (rest : Emits exits own a x b n puts told) :
    Emits exits own a (.ldcI4 value :: x) b n puts fun hides => .word value.toInt :: told hides := by
  have word : Emits exits [] a [.ldcI4 value] a 0 puts fun _ => tokens [.ldcI4 value] :=
    .of_plain a (by simp [Plain, Instr.isPlain, Instr.target?]) (by simp)
  exact (word.append rest).of_eq (Nat.zero_add n)

theorem Emits.mark {label : Label} (rest : Emits exits own a x b n puts told) :
    Emits exits (label :: own) a (.mark label :: x) b n puts told :=
  ((Emits.singleMark a label).append rest).of_eq (Nat.zero_add n)

theorem Emits.jump {instr : Instr} {target : Label} (branches : instr.target? = some target)
    (known : target ∈ exits) (rest : Emits exits own a x b n puts told) :
    Emits exits own a (instr :: x) b n puts told :=
  ((Emits.singleJump a branches known).append rest).of_eq (Nat.zero_add n)

theorem Emits.put {slot : Nat} (rest : Emits exits own a x b n true told) :
    Emits exits own a (.stloc slot :: x) b n true told := by
  have put : Emits exits [] a [.stloc slot] a 0 true fun _ => tokens [.stloc slot] :=
    .of_plain a (by simp [Plain, Instr.isPlain, Instr.target?]) nofun
  exact (put.append rest).of_eq (Nat.zero_add n)

theorem Emits.withLabels {frame : Frame} {count : Nat}
    (emits : Emits (labelsFrom frame.labelCount count ++ exits) own (frame.withLabels count) x b m puts
      told)
    (marked : own.Perm (labelsFrom frame.labelCount count)) :
    Emits exits [] frame x b m puts told where
  locals := emits.locals
  count := emits.count
  labels := (Nat.le_add_right _ _).trans emits.labels
  breaks := emits.breaks
  scopes := emits.scopes
  stores := emits.stores
  told := emits.told
  marks := by
    intro label
    have low : frame.labelCount + count ≤ b.labelCount := emits.labels
    rw [emits.marks, marked.count_eq, count_labelsFrom]
    grind [Frame.withLabels]
  targets := by
    intro instr member target branches
    have low : frame.labelCount + count ≤ b.labelCount := emits.labels
    rcases emits.targets instr member target branches with known | range
    · rcases List.mem_append.mp known with known | known
      · have range := mem_labelsFrom.mp known
        exact .inr (by omega)
      · exact .inl known
    · simp only [Frame.withLabels] at range
      exact .inr (by omega)

theorem length_withTemp (frame : Frame) (type : Ty) :
    (frame.withTemp type).locals.length = frame.locals.length + 1 := by
  simp [Frame.withTemp]

theorem Grows.withTemp {type : Ty} (grows : Grows exits own (a.withTemp type) x b m) :
    Grows exits own a x b (m + 1) :=
  { grows with
    locals := (List.prefix_append _ _).trans grows.locals
    count := by rw [grows.count, length_withTemp, Nat.add_right_comm, Nat.add_assoc] }

theorem Emits.withTemp {type : Ty} (emits : Emits exits own (a.withTemp type) x b m true told)
    (stores : puts = false → ∀ slot, .stloc slot ∈ x → a.locals.length ≤ slot) :
    Emits exits own a x b (m + 1) puts told :=
  { emits.toGrows.withTemp with scopes := emits.scopes, stores, told := emits.told }

theorem Emits.keep {type : Ty} (rest : Emits exits own (a.withTemp type) x b n puts told) :
    Emits exits own a (.stloc a.locals.length :: x) b (n + 1) puts told where
  toGrows := by
    have put : Grows exits [] (a.withTemp type) [.stloc a.locals.length] (a.withTemp type) 0 :=
      .of_plain _ (by simp [Plain, Instr.isPlain, Instr.target?])
    exact ((put.append rest.toGrows).of_eq (Nat.zero_add n)).withTemp
  scopes := rest.scopes
  stores := by
    intro other slot member
    rcases List.mem_cons.mp member with same | member
    · cases same
      exact le_refl _
    · have bound := rest.stores other slot member
      rw [length_withTemp] at bound
      omega
  told := rest.told

theorem Grows.withLocal {frame : Frame} {name : String} {type : Ty} {tag : Tag}
    (grows : Grows exits own (frame.withLocal name type tag) x b m) :
    Grows exits own frame x b (m + 1) where
  locals := (List.prefix_append _ _).trans grows.locals
  count := by
    rw [grows.count]
    simp only [Frame.withLocal, List.length_append, List.length_singleton]
    omega
  labels := grows.labels
  breaks := grows.breaks
  marks := grows.marks
  targets := grows.targets

theorem Emits.unbroken {frame inner : Frame} {label : Label}
    (emits : Emits exits own (frame.breaking label) x inner n puts told) :
    Emits exits own frame x inner.unbroken n puts told :=
  { emits with breaks := by rw [Frame.unbroken, emits.breaks]; rfl }

theorem Grows.closed {frame inner : Frame} (grows : Grows exits own frame.opened x inner n)
    (scopes : inner.scopes.tail = frame.scopes) (told' : tokens x = told frame.hides) :
    Emits exits own frame x inner.closed n true told :=
  { grows with scopes, stores := nofun, told := told' }

end Frame

end StackCode
