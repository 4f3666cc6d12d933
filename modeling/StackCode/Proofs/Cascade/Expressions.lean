import StackCode.Proofs.Cascade.Reasons

namespace StackCode

open Noting

/-- What a declaration leaves of a name: the types of a variable and of the parameters and the result of a
method have values, are unknown or, for a result, without values; and a class has its own tag, or none. -/
def Symbol.Held (registry : Registry) (symbol : Symbol) : Prop :=
  match symbol.kind with
  | .var _ => registry.Held symbol.type
  | .method result params => (result = .void ∨ registry.Held result) ∧ ∀ param ∈ params, registry.Held param
  | .classType => symbol.type = .unknown ∨ registry.isClass symbol.type = true

def SymbolTable.Held (table : SymbolTable) : Prop :=
  table.Stocked Symbol.Held fun registry symbol => registry.Held symbol.type

namespace SymbolTable.Held

variable {table : SymbolTable} (held : table.Held)

include held

theorem lookup? {name : String} {symbol : Symbol} (found : table.lookup? name = some symbol) :
    symbol.Held table.registry :=
  held.symbols symbol (List.mem_of_find?_eq_some found)

theorem lookupField? {tag : Tag} {name : String} {symbol : Symbol}
    (found : table.lookupField? tag name = some symbol) : table.registry.Held symbol.type := by
  obtain ⟨className, _, found⟩ := Option.bind_eq_some_iff.mp found
  exact held.fields className symbol (List.mem_of_find?_eq_some found)

theorem classTag? {name : String} {tag : Tag} (found : table.classTag? name = some tag) :
    tag = .unknown ∨ table.registry.isClass tag = true := by
  unfold SymbolTable.classTag? at found
  split at found
  · rename_i symbol looked
    have known := held.lookup? looked
    split at found
    · rename_i isClass
      cases found
      have kind : symbol.kind = .classType := by simpa [Symbol.isClass] using isClass
      simpa [Symbol.Held, kind] using known
    · cases found
  · cases found

theorem typeOf (text : String) :
    table.typeOf text = .void ∨ table.registry.Held (table.typeOf text) := by
  have cases : table.typeOf text = .unknown ∨ table.typeOf text = .void ∨
      table.registry.Valued (table.typeOf text) :=
    Tag.ofBracketed_cases fun _ _ => held.classTag?
  rcases cases with h | h | h
  · exact .inr (.inl h)
  · exact .inl h
  · exact .inr (.inr h)

theorem callee {callee : Designator} {result : Tag} {params : List Tag}
    (called : table.callee callee = .method result params) :
    result = .void ∨ table.registry.Held result := by
  rw [← table.sight_callee] at called
  obtain ⟨_, _, type, meant⟩ := Sight.callee_eq_method called
  obtain ⟨symbol, found, meaning⟩ := Option.map_eq_some_iff.mp meant
  have kind : symbol.kind = .method result params := congrArg Meaning.kind meaning
  have known := held.lookup? found
  rw [Symbol.Held, kind] at known
  exact known.1

end SymbolTable.Held

section Parts

variable {table : SymbolTable} {registry : Registry} {start : Nat} {notes : Notes} {type : Tag}

theorem definite_of_unexcused {what : Mismatch} {wrong : Bool}
    (each : ∀ type ∈ what.types, notes.Explains start type)
    (holds : (wrong && !(decide (start < notes.tally) && what.types.any Tag.isUnknown)) = true) :
    .unknown ∉ what.types := by
  rw [Bool.and_eq_true, Bool.not_eq_true'] at holds
  exact Notes.unknown_notMem each holds.2

theorem tells_failure (what : Mismatch) {types : List Tag} (named : what.types = types)
    (since : start ≤ notes.tally) (each : ∀ type ∈ types, notes.Explains start type) (span : Span) :
    (excused start types >>= fun silent => if (!silent) = true then
      mismatch what span >>= fun _ => pure Tag.unknown else pure Tag.unknown).Tells notes
        (Given registry start) := by
  refine tells_excused ?_
  split
  · rename_i silent
    refine tells_complaint since (tells_mismatch ?_ span)
    rw [named]
    exact Notes.unknown_notMem each (by rwa [Bool.not_eq_true'] at silent)
  · rename_i excuse
    rw [Bool.not_eq_true', Bool.not_eq_false, Bool.and_eq_true, decide_eq_true_eq] at excuse
    exact tells_pure (given_unknown excuse.1)

theorem checkBase_tells (held : table.Held) (base : Ident) :
    (checkBase table base).Tells notes (Given table.registry notes.tally) := by
  unfold checkBase
  cases found : table.lookup? base.name with
  | none => exact tells_complaint (le_refl _) (tells_report (by simp [Problem.types]) _)
  | some symbol =>
    have known := held.lookup? found
    obtain ⟨_, _, _, type, _, _, kind⟩ := symbol
    cases kind with
    | var constant =>
      refine (tells_asDeclared type).mono ?_
      rintro _ after _ ⟨rfl, explains⟩
      exact Registry.Held.given known explains
    | method result params | classType =>
      exact tells_complaint (le_refl _) (tells_mismatch (by simp [Mismatch.types]) _)

theorem checkField_tells (held : table.Held) (since : start ≤ notes.tally)
    (given : Given table.registry start type notes) (field : Ident) :
    (checkField table type field).Tells notes (Given table.registry start) := by
  unfold checkField
  cases unknown : type.isUnknown with
  | true => exact tells_pure given
  | false =>
    cases found : table.lookupField? type field.name with
    | none =>
      refine tells_complaint since (tells_report ?_ _)
      rw [Problem.types, List.mem_singleton]
      rintro rfl
      exact absurd unknown (by decide)
    | some symbol =>
      refine (tells_asDeclared symbol.type).mono ?_
      rintro _ after _ ⟨rfl, explains⟩
      exact (held.lookupField? found).given (explains.since since)

theorem Noting.Tells.demand {check : Noting Tag} {problem : Tag → Mismatch}
    (tells : check.Tells notes (Given registry notes.tally))
    (named : ∀ type, (problem type).types = [type]) (fits : Tag → Bool) (span : Span) :
    (check.demand fits problem span).Tells notes fun _ _ => True := by
  refine tells_tally (tells.bind fun type after _ given => tells_excused (tells_unless (fun wrong => ?_)
    fun _ _ => tells_pure trivial))
  rw [← named] at wrong
  refine tells_remark _ (definite_of_unexcused ?_ wrong) _
  rw [named]
  exact List.forall_mem_singleton.mpr given.explains

theorem checkElement_tells (since : start ≤ notes.tally) (given : Given registry start type notes)
    (span : Span) : (checkElement type span).Tells notes (Given registry start) := by
  unfold checkElement
  cases unknown : type.isUnknown with
  | true => exact tells_pure given
  | false =>
    cases isList : type.isList with
    | true =>
      refine tells_pure (.inl ?_)
      rcases given with valued | ⟨none, _⟩
      · exact valued.element isList
      · rcases none with rfl | rfl <;> exact absurd isList (by decide)
    | false =>
      refine tells_complaint since (tells_mismatch ?_ _)
      rw [Mismatch.types, List.mem_singleton]
      rintro rfl
      exact absurd unknown (by decide)

theorem namedType_tells (type : TypeName) :
    (table.namedType type).Tells notes fun tag after => tag = table.typeOf type.name ∧
      after.Explains notes.tally tag := by
  unfold SymbolTable.namedType
  dsimp only
  cases unknown : (table.typeOf type.name).isUnknown with
  | true =>
    refine (tells_report (by simp [Problem.types]) _).bind fun _ after _ later => ?_
    exact tells_pure ⟨rfl, fun _ => later⟩
  | false =>
    refine tells_pure ⟨rfl, fun same => ?_⟩
    rw [same] at unknown
    cases unknown

theorem namedValueType_tells (held : table.Held) (type : TypeName) :
    (table.namedValueType type).Tells notes fun tag after =>
      (tag = .unknown ∨ tag = table.typeOf type.name) ∧ Given table.registry notes.tally tag after := by
  refine (namedType_tells type).bind fun tag mid leads found => ?_
  obtain ⟨same, explains⟩ := found
  by_cases void : tag = .void
  · subst void
    refine (tells_mismatch (by simp [Mismatch.types]) _).bind fun _ after _ later => ?_
    exact tells_pure ⟨.inl rfl, given_unknown (leads.tally.trans_lt later)⟩
  · rw [if_neg (by simpa using void)]
    refine tells_pure ⟨.inr same, ?_⟩
    rw [same] at void explains ⊢
    exact ((held.typeOf type.name).resolve_left void).given explains

theorem checkCast_unknown {target : TypeName} (unknown : table.typeOf target.name = .unknown)
    (later : start ≤ notes.tally) (span : Span) :
    (checkCast table start type span (some target)).Tells notes (Given registry start) := by
  let reported : Notes := { notes with errors := notes.errors.push ⟨.unknownType target.name, target.span⟩ }
  have tally : start < reported.tally := by
    change _ < (notes.errors.push _).size + notes.unknownUses
    rw [Array.size_push]
    unfold Notes.tally at later
    omega
  have named : (table.namedType target).outcome notes = (.unknown, reported) := by
    unfold SymbolTable.namedType
    dsimp only
    rw [unknown]
    rfl
  have run : (checkCast table start type span (some target)).outcome notes =
      (if (!type.isNumeric && !(decide (start < reported.tally) && [type].any Tag.isUnknown)) = true then
        mismatch (.cast type .unknown) (span.orElse target.span) >>= fun _ => pure Tag.unknown
      else pure Tag.unknown : Noting Tag).outcome reported := by
    rw [checkCast, Noting.outcome_bind, named]
    rfl
  rw [Tells, run]
  split
  · rename_i wrong
    have known : type ≠ .unknown := by
      rintro rfl
      simp [tally, Tag.isUnknown] at wrong
    have errors : ∀ d, (reported.errors.push d).toList = notes.errors.toList ++
        [⟨.unknownType target.name, target.span⟩, d] := by simp [reported]
    refine ⟨⟨⟨_, errors _, .cast known .nil⟩, le_refl _⟩, given_unknown ?_⟩
    change start < (reported.errors.push _).size + reported.unknownUses
    rw [Array.size_push]
    unfold Notes.tally at tally
    omega
  · exact ⟨⟨⟨_, Array.toList_push, .single (by simp [Problem.types]) _⟩, le_refl _⟩, given_unknown tally⟩

theorem checkCast_tells (held : table.Held) (since : start ≤ notes.tally)
    (given : Given table.registry start type notes) (span : Span) (cast : Option TypeName) :
    (checkCast table start type span cast).Tells notes (Given table.registry start) := by
  cases cast with
  | none => exact tells_pure given
  | some target =>
    by_cases unknown : table.typeOf target.name = .unknown
    · exact checkCast_unknown unknown since span
    · refine (namedType_tells target).bind fun tag mid leads found => ?_
      obtain ⟨rfl, _⟩ := found
      split
      · have definite : .unknown ∉ (Mismatch.castTarget (table.typeOf target.name)).types :=
          mt List.mem_singleton.mp (Ne.symm unknown)
        refine (tells_mismatch definite target.span).bind fun _ after _ later => tells_pure ?_
        rcases held.typeOf target.name with void | known
        · exact .inr ⟨.inr void, (since.trans leads.tally).trans_lt later⟩
        · exact known.given (Notes.explains_of_ne unknown)
      · rename_i fits
        have numeric : (table.typeOf target.name).isNumeric = true := by
          simpa [Tag.isUnknown, unknown] using fits
        have valued : table.registry.Valued (table.typeOf target.name) :=
          Registry.valued_of_isPrimitive (Tag.isPrimitive_of_isNumeric numeric)
        refine tells_excused (tells_unless (fun holds => ?_) fun _ _ => tells_pure (.inl valued))
        have apart : .unknown ∉ [type] := Notes.unknown_notMem
          (List.forall_mem_singleton.mpr (given.mono leads).explains)
          (Bool.not_eq_true' _ ▸ (Bool.and_eq_true_iff.mp holds).2)
        have definite : .unknown ∉ (Mismatch.cast type (table.typeOf target.name)).types := by
          rw [Mismatch.types, List.mem_cons, List.mem_singleton, not_or]
          exact ⟨fun same => apart (List.mem_singleton.mpr same), Ne.symm unknown⟩
        exact tells_remark _ definite _

theorem checkSign_tells (since : start ≤ notes.tally) (given : Given registry start type notes)
    (neg : Bool) (span : Span) : (checkSign start neg type span).Tells notes (Given registry start) := by
  unfold checkSign
  split
  · exact tells_failure (.negation type) rfl since (List.forall_mem_singleton.mpr given.explains) span
  · exact tells_pure given

theorem Literal.check_tells {literal : Literal} (plain : literal ≠ .null) (span : Span) :
    (literal.check span).Tells notes (Given registry notes.tally) := by
  have valued : registry.Valued literal.tag := by
    cases literal with
    | null => exact absurd rfl plain
    | _ => exact Registry.valued_of_isPrimitive rfl
  unfold Literal.check
  cases literal with
  | int | char =>
    exact tells_unless (fun _ => tells_remark _ (by simp [Mismatch.types]) _) fun _ _ =>
      tells_pure (.inl valued)
  | float x | double x | str s | bool b | null => exact tells_pure (.inl valued)

theorem checkArith_tells {left right : Tag} (since : start ≤ notes.tally)
    (l : Given registry start left notes) (r : Given registry start right notes) (symbol : String)
    (span : Span) : (checkArith start symbol left right span).Tells notes (Given registry start) := by
  unfold checkArith
  cases promoted : Tag.promote left right with
  | some type =>
    have numeric := (Tag.isNumeric_of_promote promoted).2.2
    exact tells_pure (.inl
      (Registry.valued_of_isPrimitive (Tag.isPrimitive_of_isNumeric numeric)))
  | none =>
    refine tells_failure (.operator symbol left right) rfl since ?_ span
    exact List.forall_mem_cons.mpr ⟨l.explains, List.forall_mem_singleton.mpr r.explains⟩

theorem checkNew_tells (className : Ident) :
    (checkNew table className).Tells notes (Given table.registry notes.tally) := by
  unfold checkNew
  dsimp only
  split
  · rename_i isClass
    exact tells_pure (.inl (Registry.valued_of_isClass isClass))
  · exact tells_complaint (le_refl _) (tells_report (by simp [Problem.types]) _)

def Tag.Fits (dims : Nat) (type : Tag) : Prop := type.code + dims * Tag.listStep ≤ Tag.greatest

instance (dims : Nat) (type : Tag) : Decidable (type.Fits dims) :=
  inferInstanceAs (Decidable (_ ≤ _))

theorem Registry.Valued.addDimensions_of_fits (valued : registry.Valued type) {dims : Nat}
    (fits : type.Fits dims) : registry.Valued (type.addDimensions dims) := by
  refine (valued.addDimensions dims).resolve_left fun unknown => ?_
  have positive := valued.1
  unfold Tag.Fits at fits
  rw [Tag.addDimensions, if_neg] at unknown
  · have code := congrArg Tag.code unknown
    simp only [Tag.unknown, Tag.listStep] at code
    omega
  · rw [Bool.or_eq_true, decide_eq_true_eq, decide_eq_true_eq]
    omega

theorem Given.addDimensions (given : Given registry start type notes) {dims : Nat} (fits : type.Fits dims) :
    Given registry start (type.addDimensions dims) notes := by
  rcases given with valued | ⟨rfl | rfl, later⟩
  · exact .inl (valued.addDimensions_of_fits fits)
  · exact given_unknown later
  · exact given_unknown later

theorem checkElements_tells (since : start ≤ notes.tally) (given : Given registry start type notes)
    (fits : type.Fits 1) (span : Span) (rest : List (Tag × Span))
    (each : ∀ found ∈ rest, notes.Explains start found.1) :
    (checkElements start type span rest).Tells notes (Given registry start) := by
  induction rest with
  | nil => exact tells_pure (given.addDimensions fits)
  | cons found rest ih =>
    obtain ⟨other, place⟩ := found
    rw [List.forall_mem_cons] at each
    rw [checkElements]
    refine tells_excused ?_
    split
    · rename_i wrong
      refine tells_complaint since (tells_mismatch (definite_of_unexcused ?_ wrong) _)
      exact List.forall_mem_cons.mpr ⟨given.explains, List.forall_mem_singleton.mpr each.1⟩
    · exact ih each.2

theorem checkValue_tells (since : start ≤ notes.tally)
    (given : type = .void ∨ Given registry start type notes) (callee : Designator) (span : Span) :
    (checkValue callee type span).Tells notes (Given registry start) := by
  unfold checkValue
  by_cases void : type = .void
  · subst void
    exact tells_complaint since (tells_mismatch (by simp [Mismatch.types]) _)
  · rw [if_neg (by simpa using void)]
    exact tells_pure (given.resolve_left void)

end Parts

section Calls

variable {table : SymbolTable} {notes : Notes} {start : Nat}

def Argument.Explained (argument : Argument) : Prop :=
  argument.type = .unknown → argument.excused = true

theorem Argument.Explained.definite {argument : Argument} (explained : argument.Explained)
    (silent : argument.excused = false) : .unknown ≠ argument.type :=
  fun unknown => by simp [explained unknown.symm] at silent

theorem Argument.Explained.notMem {argument : Argument} (explained : argument.Explained)
    (silent : argument.excused = false) : .unknown ∉ [argument.type] :=
  mt List.mem_singleton.mp (explained.definite silent)

theorem Callee.use_tells (held : table.Held) (callee : Designator) :
    (table.callee callee).use.Tells notes fun _ after => ∀ result params,
      table.callee callee = .method result params →
        result = .void ∨ Given table.registry notes.tally result after := by
  cases called : table.callee callee with
  | method result params =>
    refine ((tells_asDeclared result).bind fun found after _ told => tells_pure ?_)
    obtain ⟨rfl, explains⟩ := told
    rintro _ _ ⟨⟩
    exact (held.callee called).imp_right fun known => known.given explains
  | intrinsic op | undeclared | notCallable => exact tells_pure fun _ _ same => by cases same

theorem checkListArgument_tells {op : Intrinsic} {list : Argument} (explained : list.Explained)
    (span : Span) {more : Noting Unit} (rest : more.Tells notes fun _ _ => True) :
    (checkListArgument op list span more).Tells notes fun _ _ => True := by
  unfold checkListArgument
  split
  · exact rest
  · rename_i wrong
    rw [Bool.or_eq_true, not_or, Bool.not_eq_true, Bool.not_eq_true] at wrong
    exact tells_remark (.listArgument op list.type) (explained.notMem wrong.2) _

theorem Intrinsic.checkArguments_tells (span : Span) (op : Intrinsic) {arguments : List Argument}
    (each : ∀ argument ∈ arguments, argument.Explained) :
    (op.checkArguments table span arguments).Tells notes fun _ _ => True := by
  unfold Intrinsic.checkArguments
  split
  · exact checkListArgument_tells (each _ (by simp)) span (tells_pure trivial)
  · rename_i list value rest
    refine checkListArgument_tells (each _ (by simp)) span (tells_guard fun wrong => ?_)
    simp only [Bool.and_eq_true, Bool.not_eq_true'] at wrong
    have definite : .unknown ∉ (Mismatch.addElement value.type list.type).types := by
      rw [Mismatch.types, List.mem_cons, List.mem_singleton, not_or]
      exact ⟨(each value (by simp)).definite wrong.1.2, (each list (by simp)).definite wrong.1.1⟩
    exact tells_remark _ definite _
  · rename_i list index rest
    refine checkListArgument_tells (each _ (by simp)) span (tells_guard fun wrong => ?_)
    rw [Bool.and_eq_true, Bool.not_eq_true'] at wrong
    exact tells_remark (.delIndex index.type) ((each index (by simp)).notMem wrong.2) _
  · rename_i value rest
    refine tells_guard fun wrong => ?_
    rw [Bool.and_eq_true, Bool.not_eq_true'] at wrong
    exact tells_remark (.ordArgument value.type) ((each value (by simp)).notMem wrong.2) _
  · rename_i value rest
    refine tells_guard fun wrong => ?_
    rw [Bool.and_eq_true, Bool.not_eq_true'] at wrong
    exact tells_remark (.chrArgument value.type) ((each value (by simp)).notMem wrong.2) _
  · exact tells_pure trivial

theorem checkParams_tells (name : String) (span : Span) (position : Nat) (params : List Tag)
    {arguments : List Argument} (each : ∀ argument ∈ arguments, argument.Explained) :
    (checkParams table name span position params arguments).Tells notes fun _ _ => True := by
  induction params generalizing position arguments notes with
  | nil => exact tells_pure trivial
  | cons param params ih =>
    cases arguments with
    | nil => exact tells_pure trivial
    | cons argument arguments =>
      rw [List.forall_mem_cons] at each
      rw [checkParams]
      refine tells_unless (fun wrong => ?_) fun after _ => ih (position + 1) each.2
      simp only [Bool.and_eq_true, Bool.not_eq_true'] at wrong
      have definite : .unknown ∉ (Mismatch.argument position name param argument.type).types := by
        rw [Mismatch.types, List.mem_cons, List.mem_singleton, not_or]
        refine ⟨?_, each.1.definite wrong.1.1⟩
        rintro rfl
        exact absurd wrong.1.2 (by decide)
      exact tells_remark _ definite _

theorem Callee.check_tells {registry : Registry} (since : start ≤ notes.tally) (callee : Callee)
    (known : ∀ result params, callee = .method result params →
      result = .void ∨ Given registry start result notes)
    (name : String) (span : Span) {arguments : List Argument}
    (each : ∀ argument ∈ arguments, argument.Explained) :
    (callee.check table name span arguments).Tells notes fun type after =>
      type = .void ∨ Given registry start type after := by
  cases callee with
  | intrinsic op =>
    have result : ∀ after, op.result = .void ∨ Given registry start op.result after := by
      intro after
      cases op <;> first
        | exact .inl rfl
        | exact .inr (.inl (Registry.valued_of_isPrimitive rfl))
    unfold Callee.check
    dsimp only
    split
    · exact (tells_report (by simp [Problem.types]) _).bind fun _ after _ _ => tells_pure (result after)
    · exact (op.checkArguments_tells span each).bind fun _ after _ _ => tells_pure (result after)
  | method result params =>
    have given := known result params rfl
    unfold Callee.check
    dsimp only
    split
    · exact (tells_report (by simp [Problem.types]) _).bind fun _ after leads _ =>
        tells_pure (given.imp_right fun given => given.mono leads)
    · exact (checkParams_tells name span 1 params each).bind fun _ after leads _ =>
        tells_pure (given.imp_right fun given => given.mono leads)
  | undeclared | notCallable =>
    exact (tells_report (by simp [Problem.types]) _).bind fun _ _ _ later =>
      tells_pure (.inr (given_unknown (since.trans_lt later)))

end Calls

def Expr.type (table : SymbolTable) (e : Expr) : Tag := ((e.check table).outcome {}).1

/-- What has been noted before has no say in it, and of the table nothing but what is in sight. -/
theorem type_of_check {table other : SymbolTable} (same : other.sight = table.sight) (e : Expr)
    (notes : Notes) : ((e.check other).outcome notes).1 = e.type table := by
  have agree : (Twin.onto notes).Agree (e.check table) ((e.moved id).check other) Eq :=
    e.check_agree same
  rw [e.moved_same] at agree
  exact (agree {} notes ⟨{}, rfl, rfl⟩).1.symm

def Node.isPlain : Node → Bool
  | .factor ⟨_, .literal .null, _⟩ | .factor ⟨_, .list [], _⟩ => false
  | _ => true

def Node.fits (table : SymbolTable) : Node → Bool
  | .factor ⟨_, .list (first :: _), _⟩ => decide ((first.type table).Fits 1)
  | .factor ⟨_, .newArray elem sizes, _⟩ => decide ((table.typeOf elem.name).Fits sizes.length)
  | _ => true

/-- A node of which the type is given or explained where the table is in sight. -/
def Node.Plain (table : SymbolTable) (node : Node) : Prop :=
  node.isPlain = true ∧ node.fits table = true

theorem Given.foldl_listOf {α : Type} {registry : Registry} {start : Nat} {type : Tag} {notes : Notes}
    (given : Given registry start type notes) (sizes : List α)
    (fits : registry.Valued type → type.Fits sizes.length) :
    Given registry start (sizes.foldl (fun type _ => type.listOf) type) notes := by
  induction sizes generalizing type with
  | nil => exact given
  | cons size sizes ih =>
    rcases given with valued | ⟨rfl | rfl, later⟩
    · have fits := fits valued
      simp only [Tag.Fits, List.length_cons, Tag.listStep] at fits
      have room : type.Fits 1 := by
        simp only [Tag.Fits, Tag.listStep]
        omega
      have longer := valued.addDimensions_of_fits room
      refine ih (.inl longer) fun _ => ?_
      have code : type.listOf.code = type.code + 1000 := by
        have known : type.listOf ≠ .unknown := longer.ne_unknown
        have isList := Registry.isList_listOf known
        have element := congrArg Tag.code (Registry.element_listOf known)
        rw [Tag.element, if_pos isList] at element
        simp only [Tag.listStep] at element
        omega
      simp only [Tag.Fits, code, Tag.listStep]
      omega
    · exact ih (given_unknown later) fun valued => absurd rfl valued.ne_unknown
    · exact ih (given_unknown later) fun valued => absurd rfl valued.ne_unknown

section Walk

variable {table : SymbolTable}

theorem adopts_of_plain {e : Expr} (plain : ∀ node ∈ e.nodes, node.Plain table) (expected : Tag) :
    e.adopts expected = false := by
  rw [Expr.adopts, Bool.and_eq_false_iff]
  by_contra some
  rw [not_or, Bool.not_eq_false, Bool.not_eq_false] at some
  obtain ⟨_, _, id, span, _, _, rfl⟩ := Expr.eq_of_isBareList some.2
  have own := plain (.factor ⟨id, .list [], span⟩) (by simp [Expr.nodes, Term.nodes, Factor.nodes])
  exact absurd own.1 Bool.false_ne_true

mutual

theorem Expr.check_tells (held : table.Held) : ∀ (e : Expr), (∀ node ∈ e.nodes, node.Plain table) →
    ∀ notes, (e.check table).Tells notes (Given table.registry notes.tally)
  | ⟨id, neg, cast, head, tail, span⟩, plain, notes => by
    rw [Expr.nodes, List.forall_mem_cons, List.forall_mem_append] at plain
    have rest : ∀ type after, notes.Leads after → Given table.registry notes.tally type after → (do
        let type ← checkCast table notes.tally type span cast
        let type ← checkSign notes.tally neg type span
        let type ← checkSum table notes.tally span type tail
        record id type
        return type).Tells after (Given table.registry notes.tally) := by
      intro type after leads given
      refine (checkCast_tells held leads.tally given span cast).bind fun type mid more given => ?_
      have leads := leads.trans more
      refine (checkSign_tells leads.tally given neg span).bind fun type mid more given => ?_
      have leads := leads.trans more
      refine (checkSum_tells held tail plain.2.2 leads.tally given span).bind
        fun type mid _ given => ?_
      exact (tells_record id type).bind fun _ _ more _ => tells_pure (given.mono more)
    refine tells_tally ?_
    split
    · refine (tells_record _ _).bind fun _ mid leads _ => (tells_record _ _).bind fun _ after more _ =>
        rest .int after (leads.trans more) (.inl (Registry.valued_of_isPrimitive rfl))
    · exact (Term.check_tells held head plain.2.1 notes).bind fun type after leads given =>
        rest type after leads given

theorem checkSum_tells (held : table.Held) : ∀ (tail : List (AddOp × Term)),
    (∀ node ∈ sumNodes tail, node.Plain table) → ∀ {notes start type}, start ≤ notes.tally →
    Given table.registry start type notes → ∀ span,
    (checkSum table start span type tail).Tells notes (Given table.registry start)
  | [], _, notes, start, type, _, given, span => tells_pure given
  | (op, term) :: rest, plain, notes, start, type, since, given, span => by
    rw [sumNodes, List.forall_mem_append] at plain
    refine (Term.check_tells held term plain.1 notes).bind fun right mid leads other => ?_
    have later := since.trans leads.tally
    refine (checkArith_tells later (given.mono leads) (other.since since) op.symbol _).bind
      fun type after more given => ?_
    exact checkSum_tells held rest plain.2 (later.trans more.tally) given span

theorem Term.check_tells (held : table.Held) : ∀ (term : Term),
    (∀ node ∈ term.nodes, node.Plain table) →
    ∀ notes, (term.check table).Tells notes (Given table.registry notes.tally)
  | ⟨id, head, tail, span⟩, plain, notes => by
    rw [Term.nodes, List.forall_mem_cons, List.forall_mem_append] at plain
    refine tells_tally ((Factor.check_tells held head plain.2.1 notes).bind fun type mid leads given => ?_)
    refine (checkProduct_tells held tail plain.2.2 leads.tally given span).bind fun type after _ given => ?_
    exact (tells_record id type).bind fun _ _ more _ => tells_pure (given.mono more)

theorem checkProduct_tells (held : table.Held) : ∀ (tail : List (MulOp × Factor)),
    (∀ node ∈ productNodes tail, node.Plain table) → ∀ {notes start type}, start ≤ notes.tally →
    Given table.registry start type notes → ∀ span,
    (checkProduct table start span type tail).Tells notes (Given table.registry start)
  | [], _, notes, start, type, _, given, span => tells_pure given
  | (op, factor) :: rest, plain, notes, start, type, since, given, span => by
    rw [productNodes, List.forall_mem_append] at plain
    refine (Factor.check_tells held factor plain.1 notes).bind fun right mid leads other => ?_
    have later := since.trans leads.tally
    refine (checkArith_tells later (given.mono leads) (other.since since) op.symbol _).bind
      fun type after more given => ?_
    exact checkProduct_tells held rest plain.2 (later.trans more.tally) given span

theorem Factor.check_tells (held : table.Held) : ∀ (factor : Factor),
    (∀ node ∈ factor.nodes, node.Plain table) →
    ∀ notes, (factor.check table).Tells notes (Given table.registry notes.tally)
  | ⟨id, kind, span⟩, plain, notes => by
    rw [Factor.nodes, List.forall_mem_cons] at plain
    refine (FactorKind.check_tells held kind id span plain.1 plain.2 notes).bind fun type after _ given => ?_
    exact (tells_record id type).bind fun _ _ more _ => tells_pure (given.mono more)

theorem FactorKind.check_tells (held : table.Held) : ∀ (kind : FactorKind) (id : NodeId) (span : Span),
    Node.Plain table (.factor ⟨id, kind, span⟩) → (∀ node ∈ kind.nodes, node.Plain table) →
    ∀ notes, (kind.check table span).Tells notes (Given table.registry notes.tally)
  | .literal value, _, span, own, _, notes => by
    refine Literal.check_tells ?_ span
    rintro rfl
    exact absurd own.1 Bool.false_ne_true
  | .designator target, _, _, _, plain, notes => by
    rw [FactorKind.nodes] at plain
    exact Designator.check_tells held target plain notes
  | .call callee args, _, span, _, plain, notes => by
    rw [FactorKind.nodes, List.forall_mem_append] at plain
    refine (Callee.use_tells held callee).bind fun _ mid leads known => ?_
    refine (checkArguments_tells held args plain.2 _ mid).bind fun arguments after more each => ?_
    have leads := leads.trans more
    refine (Callee.check_tells leads.tally _ (fun result params called => ?_) _ _ each).bind
      fun type final last given => checkValue_tells (leads.trans last).tally given callee span
    exact (known result params called).imp_right fun given => given.mono more
  | .newObject className, _, _, _, _, notes => checkNew_tells className
  | .newArray elem sizes, _, _, own, plain, notes => by
    rw [FactorKind.nodes] at plain
    rw [FactorKind.check]
    refine (namedValueType_tells held elem).bind fun type mid leads found => ?_
    obtain ⟨named, given⟩ := found
    refine (checkSizes_tells held sizes plain mid).bind fun _ after more _ => tells_pure ?_
    refine (given.mono more).foldl_listOf sizes fun valued => ?_
    rw [named.resolve_left valued.ne_unknown]
    exact of_decide_eq_true own.2
  | .paren inner, _, _, _, plain, notes => by
    rw [FactorKind.nodes] at plain
    exact Expr.check_tells held inner plain notes
  | .list elems, id, span, own, plain, notes => by
    rw [FactorKind.nodes] at plain
    refine tells_tally ((checkExprs_tells held elems plain notes).bind fun types after leads told => ?_)
    obtain ⟨same, each⟩ := told
    cases elems with
    | nil => exact absurd own.1 Bool.false_ne_true
    | cons first others =>
      cases types with
      | nil => cases same
      | cons found rest =>
        obtain ⟨type, place⟩ := found
        obtain ⟨rfl, _⟩ := List.cons.inj same
        obtain ⟨given, others⟩ := List.forall_mem_cons.mp each
        exact checkElements_tells leads.tally given (of_decide_eq_true own.2) span rest fun found member =>
          (others found member).explains

theorem checkExprs_tells (held : table.Held) : ∀ (exprs : List Expr),
    (∀ node ∈ exprsNodes exprs, node.Plain table) → ∀ notes, (checkExprs table exprs).Tells notes
      fun types after => types.map Prod.fst = exprs.map (·.type table) ∧
        ∀ found ∈ types, Given table.registry notes.tally found.1 after
  | [], _, notes => tells_pure ⟨rfl, by simp⟩
  | e :: rest, plain, notes => by
    rw [exprsNodes, List.forall_mem_append] at plain
    refine (Expr.check_tells held e plain.1 notes).result.bind fun type mid leads found => ?_
    obtain ⟨same, given⟩ := found
    rw [type_of_check rfl e notes] at same
    refine (checkExprs_tells held rest plain.2 mid).bind fun types after more told => tells_pure ?_
    obtain ⟨others, each⟩ := told
    refine ⟨by rw [List.map_cons, List.map_cons, others, same], List.forall_mem_cons.mpr ⟨?_, ?_⟩⟩
    · exact given.mono more
    · exact fun found member => (each found member).since leads.tally

theorem checkSizes_tells (held : table.Held) : ∀ (sizes : List Expr),
    (∀ node ∈ exprsNodes sizes, node.Plain table) → ∀ notes, (checkSizes table sizes).Tells notes
      fun _ _ => True
  | [], _, notes => tells_pure trivial
  | size :: rest, plain, notes => by
    rw [exprsNodes, List.forall_mem_append] at plain
    exact ((Expr.check_tells held size plain.1 notes).demand (fun _ => rfl) _ _).bind fun _ mid _ _ =>
      checkSizes_tells held rest plain.2 mid

theorem checkArguments_tells (held : table.Held) : ∀ (args : List Expr),
    (∀ node ∈ exprsNodes args, node.Plain table) → ∀ (expectation : Expectation) (notes : Notes),
    (checkArguments table expectation args).Tells notes fun arguments _ =>
      ∀ argument ∈ arguments, argument.Explained
  | [], _, _, notes => tells_pure (by simp)
  | arg :: rest, plain, expectation, notes => by
    rw [exprsNodes, List.forall_mem_append] at plain
    have own : arg.adopts expectation.head = false := adopts_of_plain plain.1 _
    rw [checkArguments, own]
    refine tells_tally ((Expr.check_tells held arg plain.1 notes).bind fun type mid leads given => ?_)
    refine tells_excused ((checkArguments_tells held rest plain.2 _ mid).bind fun others after _ each =>
      tells_pure (List.forall_mem_cons.mpr ⟨fun unknown => ?_, each⟩))
    have later := given.explains unknown
    simp only at unknown
    simp [later, unknown, Tag.isUnknown]

theorem Designator.check_tells (held : table.Held) : ∀ (target : Designator),
    (∀ node ∈ target.nodes, node.Plain table) →
    ∀ notes, (target.check table).Tells notes (Given table.registry notes.tally)
  | ⟨id, base, selectors, span⟩, plain, notes => by
    rw [Designator.nodes, List.forall_mem_cons] at plain
    refine (checkBase_tells held base).bind fun type mid leads given => ?_
    refine (checkSelectors_tells held selectors plain.2 leads.tally given span).bind
      fun type after _ given => ?_
    exact (tells_record id type).bind fun _ _ more _ => tells_pure (given.mono more)

theorem checkSelectors_tells (held : table.Held) : ∀ (selectors : List Selector),
    (∀ node ∈ selectorsNodes selectors, node.Plain table) → ∀ {notes start type},
    start ≤ notes.tally → Given table.registry start type notes → ∀ span,
    (checkSelectors table span type selectors).Tells notes (Given table.registry start)
  | [], _, notes, start, type, _, given, span => tells_pure given
  | .field name :: rest, plain, notes, start, type, since, given, span => by
    rw [selectorsNodes] at plain
    refine (checkField_tells held since given name).bind fun type after leads given => ?_
    exact checkSelectors_tells held rest plain (since.trans leads.tally) given span
  | .index value :: rest, plain, notes, start, type, since, given, span => by
    rw [selectorsNodes, List.forall_mem_append] at plain
    refine ((Expr.check_tells held value plain.1 notes).demand (fun _ => rfl) _ _).bind
      fun _ after leads _ => ?_
    refine (checkElement_tells (since.trans leads.tally) (given.mono leads) _).bind
      fun type final last given => ?_
    exact checkSelectors_tells held rest plain.2 (since.trans (leads.trans last).tally) given span

end

theorem checkExpected_tells (held : table.Held) {e : Expr}
    (plain : ∀ node ∈ e.nodes, node.Plain table) (expected : Tag) (notes : Notes) :
    (checkExpected table e expected).Tells notes (Given table.registry notes.tally) := by
  rw [checkExpected, adopts_of_plain plain, if_neg Bool.false_ne_true]
  exact e.check_tells held plain notes

theorem Designator.checkCall_tells (held : table.Held) (callee : Designator) {args : List Expr}
    (plain : ∀ node ∈ exprsNodes args, node.Plain table) (span : Span) (notes : Notes) :
    (callee.checkCall table args span).Tells notes fun type after =>
      type = .void ∨ Given table.registry notes.tally type after := by
  unfold Designator.checkCall
  dsimp only
  refine (Callee.use_tells held callee).bind fun _ mid leads known => ?_
  refine (checkArguments_tells held args plain _ mid).bind fun arguments after more each => ?_
  refine Callee.check_tells (leads.trans more).tally _ (fun result params called => ?_) _ _ each
  exact (known result params called).imp_right fun given => given.mono more

theorem Designator.checkWritten_tells (held : table.Held) (target : Designator)
    (plain : ∀ node ∈ target.nodes, node.Plain table) (notes : Notes) :
    (target.checkWritten table).Tells notes (Given table.registry notes.tally) := by
  refine (target.check_tells held plain notes).bind fun type after _ given => ?_
  refine tells_unless (fun _ => ?_) fun final leads => tells_pure (given.mono leads)
  exact (tells_report (by simp [Problem.types]) _).mono fun _ _ _ _ => trivial

theorem CondFact.check_tells (held : table.Held) (fact : CondFact)
    (plain : ∀ node ∈ fact.nodes, node.Plain table) (notes : Notes) :
    (fact.check table).Tells notes (Given table.registry notes.tally) := by
  obtain ⟨id, kind, span⟩ := fact
  rw [CondFact.nodes, List.forall_mem_cons] at plain
  unfold CondFact.check
  cases kind with
  | expr value =>
    refine (value.check_tells held plain.2 notes).bind fun type after _ given => ?_
    exact (tells_record id type).bind fun _ _ more _ => tells_pure (given.mono more)
  | relation left op right =>
    have sides := List.forall_mem_append.mp plain.2
    refine tells_tally ((left.check_tells held sides.1 notes).bind fun l mid leads given => ?_)
    refine (right.check_tells held sides.2 mid).bind fun r after more given' => ?_
    refine tells_excused (tells_unless (fun wrong => ?_) fun final _ => ?_)
    · rw [Bool.and_eq_true, Bool.not_eq_true'] at wrong
      have both : ∀ type ∈ [l, r], after.Explains notes.tally type :=
        List.forall_mem_cons.mpr ⟨(given.mono more).explains,
          List.forall_mem_singleton.mpr (given'.since leads.tally).explains⟩
      exact tells_remark (.comparison l op r) (Notes.unknown_notMem both wrong.1) _
    · exact (tells_record _ _).bind fun _ _ _ _ =>
        tells_pure (.inl (Registry.valued_of_isPrimitive rfl))

theorem checkFacts_tells (held : table.Held) (span : Span) (facts : List CondFact)
    (plain : ∀ fact ∈ facts, ∀ node ∈ fact.nodes, node.Plain table) (notes : Notes) :
    (checkFacts table span facts).Tells notes fun _ _ => True := by
  induction facts generalizing notes with
  | nil => exact tells_pure trivial
  | cons fact facts ih =>
    rw [List.forall_mem_cons] at plain
    rw [checkFacts]
    exact ((fact.check_tells held plain.1 notes).demand (fun _ => rfl) _ _).bind fun _ mid _ _ =>
      ih plain.2 mid

theorem checkCondTerms_tells (held : table.Held) (span : Span) (terms : List CondTerm)
    (plain : ∀ term ∈ terms, ∀ node ∈ term.nodes, node.Plain table) (notes : Notes) :
    (checkCondTerms table span terms).Tells notes fun _ _ => True := by
  induction terms generalizing notes with
  | nil => exact tells_pure trivial
  | cons term terms ih =>
    rw [List.forall_mem_cons] at plain
    rw [checkCondTerms]
    have facts := (List.forall_mem_cons.mp plain.1).2
    refine (checkFacts_tells held span term.facts (fun fact member node inside => ?_) notes).bind
      fun _ mid _ _ => (tells_record _ _).bind fun _ after _ _ => ih plain.2 after
    exact facts node (List.mem_flatMap.mpr ⟨fact, member, inside⟩)

theorem Condition.check_tells (held : table.Held) (cond : Condition)
    (plain : ∀ node ∈ cond.nodes, node.Plain table) (notes : Notes) :
    (cond.check table).Tells notes fun _ _ => True := by
  have terms := (List.forall_mem_cons.mp plain).2
  refine (checkCondTerms_tells held cond.span cond.terms (fun term member node inside => ?_) notes).bind
    fun _ mid _ _ => (tells_record _ _).mono fun _ _ _ _ => trivial
  exact terms node (List.mem_flatMap.mpr ⟨term, member, inside⟩)

end Walk

end StackCode
