import StackCode.Proofs.Emission.Labels

namespace StackCode

open Code Emit

variable {code : Piece} {tag : Tag}

section Parts

variable {instr : Instr} {literal : Literal}

theorem literalInstr_plain (loaded : literalInstr literal = .ok instr) : instr.isPlain = true := by
  cases literal with
  | int n =>
    simp only [literalInstr] at loaded
    split at loaded
    · cases loaded; rfl
    · cases loaded
  | float x | double x | char c | str s | bool b | null => cases loaded; rfl

theorem toInt_ofInt_of_fits {n : Int} (fits : fitsInt32 n = true) : (Int32.ofInt n).toInt = n := by
  simp only [fitsInt32, Bool.and_eq_true, decide_eq_true_eq] at fits
  exact Int32.toInt_ofInt_of_le (by omega) (by omega)

theorem literalInstr_tokens (loaded : literalInstr literal = .ok instr) :
    tokens [instr] = literal.tokens := by
  cases literal with
  | int n =>
    simp only [literalInstr] at loaded
    split at loaded
    · rename_i fits
      cases loaded
      exact congrArg (fun value => [Token.word value]) (toInt_ofInt_of_fits fits)
    · cases loaded
  | char c =>
    cases loaded
    have bound : c.toNat < 0x110000 := by
      have valid := c.valid
      simp only [UInt32.isValidChar, Nat.isValidChar, Char.toNat_val] at valid
      omega
    exact congrArg (fun value => [Token.word value])
      (Int32.toInt_ofNat_of_lt (by omega) : (Int32.ofNat c.toNat).toInt = c.toNat)
  | bool b => cases b <;> cases loaded <;> rfl
  | float x | double x | str s | null => cases loaded; rfl

variable {env : Env} {exits : List Label} {puts : Bool}

theorem literal_emits (frame : Frame) (loaded : literalInstr literal = .ok instr) :
    Frame.Emits exits [] frame [instr] frame 0 puts fun _ => literal.tokens := by
  rw [← literalInstr_tokens loaded]
  refine .of_plain frame (by simpa [Plain] using literalInstr_plain loaded) fun _ slot member => ?_
  rw [List.mem_singleton] at member
  subst member
  cases literal with
  | int n =>
    simp only [literalInstr] at loaded
    split at loaded <;> cases loaded
  | float x | double x | char c | str s | bool b | null => cases loaded

theorem conversion_bare {source target : Tag} (converts : conversion source target = .ok code) :
    Bare code := by
  unfold conversion at converts
  split_ifs at converts <;> cases converts <;> first | exact bare_nil | exact bare_single rfl

theorem Env.castCode_bare {type target : Tag} {cast : Option TypeName}
    (casts : env.castCode type cast = .ok (code, target)) : Bare code := by
  cases cast with
  | none => cases casts; exact bare_nil
  | some name =>
    obtain ⟨_, _, rest⟩ := bind_eq_ok.mp casts
    obtain ⟨_, converts, rest⟩ := bind_eq_ok.mp rest
    cases rest
    exact conversion_bare converts

theorem Env.home_emits {name : String} {home : Home} {frame : Frame}
    (found : env.home frame name = .ok home) (loaded : home.load = .ok (code, tag)) :
    Frame.Emits exits [] frame code frame 0 puts (baseTokens env.constants name) := by
  unfold Env.home at found
  split at found
  · rename_i bound
    cases found
    cases loaded
    exact (Frame.Emits.plain rfl (.nil frame)).telling (by simp [baseTokens, Frame.hides, bound])
  · rename_i free
    split at found
    · rename_i constant
      cases found
      obtain ⟨_, instr, rest⟩ := bind_eq_ok.mp loaded
      cases rest
      exact (literal_emits frame instr).telling (by simp [baseTokens, Frame.hides, free, constant])
    · rename_i other
      have none : baseTokens env.constants name frame.hides = [] := by simp [baseTokens, other]
      split at found
      · split at found
        · cases found
          cases loaded
          exact (Frame.Emits.plain rfl (.nil frame)).telling none.symm
        · cases found
      · cases found

theorem Home.put_emits {home : Home} (frame : Frame) (stored : home.put = some instr) :
    Frame.Emits exits [] frame [instr] frame 0 true fun _ => [] := by
  cases home with
  | slot i tag => cases stored; exact .put (.nil frame)
  | static field tag => cases stored; exact .plain rfl (.nil frame)
  | constant value => cases stored

theorem compareCode_emits (frame : Frame) (strings : Bool) (op : RelOp) :
    Frame.Emits exits [] frame (compareCode strings op) frame 0 puts fun _ => op.tokens := by
  cases op with
  | eq => cases strings <;> exact .plain rfl (.nil frame)
  | ne => cases strings <;> exact .plain rfl (.word (.plain rfl (.nil frame)))
  | lt | gt => exact .plain rfl (.nil frame)
  | le | ge => exact .plain rfl (.word (.plain rfl (.nil frame)))

theorem sign_emits (frame : Frame) (neg : Bool) :
    Frame.Emits exits [] frame (if neg then [.neg] else []) frame 0 puts
      fun _ => if neg then [.minus] else [] := by
  cases neg with
  | false => exact .nil frame
  | true => exact .of_plain frame (by simp [Plain, Instr.isPlain, Instr.target?]) (by simp)

end Parts

variable {env : Env} {exits : List Label} {puts : Bool}

variable {before after : Frame}

theorem emitBase_emits {name : String} (emitted : (emitBase env name).Yields before (code, tag) after) :
    Frame.Emits exits [] before code after 0 puts (baseTokens env.constants name) := by
  obtain ⟨_, found, loaded, rfl⟩ := emitBase_yields.mp emitted
  exact Env.home_emits found loaded

theorem emitGrid_emits {base : Tag} {counts : List Nat}
    (emitted : (emitGrid env base counts).Yields before code after) :
    Frame.Emits exits [] before code after (counts.length - 1) puts
      fun _ => gridTokens counts.length := by
  induction counts generalizing before code exits puts with
  | nil =>
    rw [emitGrid] at emitted
    exact absurd emitted not_yields_throw
  | cons count inner ih =>
    cases inner with
    | nil =>
      obtain ⟨_, _, rfl, rfl⟩ := emitGrid_one_yields.mp emitted
      exact .plain rfl (.plain rfl (.nil _))
    | cons second inner =>
      obtain ⟨elem, int, row, _, _, _, inner, rfl⟩ := emitGrid_cons_yields.mp emitted
      have rows : Frame.Emits exits [] _ row after _ false _ := ih inner
      refine Frame.Emits.of_eq ((Frame.Emits.withTemp (Frame.Emits.withLabels (.word <| .put <|
        .plain rfl <| .jump rfl (mem_own 1 (by omega)) <| .mark <| .plain rfl <|
        (ih inner).append <| .plain rfl <| .plain rfl <| .word <| .plain rfl <| .put <|
        .mark <| .plain rfl <| .plain rfl <| .plain rfl <| .jump rfl (mem_own 0 (by omega)) <|
        .nil after) (.refl _)) ?_).telling ?_) ?_
      · -- Besides the row, only the position is put into its slot.
        intro _ slot member
        simp only [List.mem_append, List.mem_cons, List.not_mem_nil, reduceCtorEq, Instr.stloc.injEq,
          false_or, or_false] at member
        rcases member with position | member | position
        · exact position.ge
        · have bound := rows.stores rfl slot member
          simp only [Frame.withLabels, Frame.length_withTemp] at bound
          omega
        · exact position.ge
      · simp [gridTokens]
      · simp only [List.length_cons]
        omega

theorem Intrinsic.emit_emits {op : Intrinsic} {list : Option NodeId}
    (emitted : (op.emit env list).Yields before code after) :
    Frame.Emits exits [] before code after 0 puts fun _ => [] := by
  obtain ⟨rfl, ⟨_, _, _, _, _, _, _, _, rfl⟩ | ⟨_, converts, rfl⟩⟩ := Intrinsic.emit_yields.mp emitted
  · exact .plain rfl (.nil _)
  · cases op <;> cases converts <;> exact .plain rfl (.nil _)

theorem Target.emit_emits {target : Target} {args : List Expr} {before after : Frame} {code : Piece}
    (emitted : (target.emit env args).Yields before code after) :
    Frame.Emits exits [] before code after 0 puts fun _ => [] := by
  cases target with
  | intrinsic op => exact Intrinsic.emit_emits (Target.emit_yields.mp emitted)
  | method name result =>
    obtain ⟨rfl, rfl⟩ := Target.emit_yields.mp emitted
    exact .plain rfl (.nil _)

theorem emitSizes_length {sizes : List Expr} {counts : List Nat}
    (emitted : (emitSizes env sizes).Yields before (code, counts) after) :
    counts.length = sizes.length := by
  induction sizes generalizing before code counts with
  | nil =>
    obtain ⟨_, rfl, _⟩ := emitSizes_nil_yields.mp emitted
    rfl
  | cons size rest ih =>
    obtain ⟨_, _, _, _, slots, _, _, _, more, _, rfl⟩ := emitSizes_cons_yields.mp emitted
    simp [ih more]

theorem slots_of_isLeastInt {neg : Bool} {cast : Option TypeName} {head : Term}
    (least : isLeastInt neg cast head = true) : head.slots = 0 := by
  obtain ⟨_, _, _, _, _, rfl⟩ := eq_of_isLeastInt least
  rfl

mutual

theorem Expr.emit_emits : ∀ (e : Expr) {before after : Frame} {code : Piece},
    (e.emit env).Yields before code after →
    Frame.Emits exits [] before code after e.slots puts (e.tokens env.constants)
  | ⟨_, neg, _, head, tail, _⟩, _, _, _, emitted => by
    rw [Expr.slots]
    obtain ⟨_, _, ⟨least, _, sum, rfl⟩ | ⟨other, _, _, _, _, _, headed, casts, sum, rfl⟩⟩ :=
      Expr.emit_yields.mp emitted
    · rw [slots_of_isLeastInt least, Nat.zero_add]
      exact (Frame.Emits.word (emitSum_emits tail sum)).telling (by rw [Expr.tokens, if_pos least]; rfl)
    · refine ((((Term.emit_emits head headed).then (Env.castCode_bare casts)).append
        (sign_emits _ neg)).append (emitSum_emits tail sum)).telling ?_
      rw [Expr.tokens, other, if_neg Bool.false_ne_true]

theorem emitSum_emits : ∀ (tail : List (AddOp × Term)) {type : Tag} {before after : Frame}
    {code : Piece}, (emitSum env type tail).Yields before code after →
    Frame.Emits exits [] before code after (sumSlots tail) puts (sumTokens env.constants tail)
  | [], _, _, _, _, emitted => by
    obtain ⟨rfl, rfl⟩ := emitSum_nil_yields.mp emitted
    exact .nil _
  | (op, term) :: rest, _, _, _, _, emitted => by
    obtain ⟨_, _, _, _, _, _, _, _, joins, valued, more, rfl⟩ := emitSum_cons_yields.mp emitted
    have step : Bare [op.instr] := by cases op <;> exact bare_single rfl
    exact (((Frame.Emits.after (conversion_bare joins.left) (Term.emit_emits term valued)).then
      (conversion_bare joins.right)).then step).append (emitSum_emits rest more)

theorem Term.emit_emits : ∀ (term : Term) {before after : Frame} {code : Piece},
    (term.emit env).Yields before code after →
    Frame.Emits exits [] before code after term.slots puts (term.tokens env.constants)
  | ⟨_, head, tail, _⟩, _, _, _, emitted => by
    obtain ⟨_, _, _, _, headed, _, product, rfl⟩ := Term.emit_yields.mp emitted
    exact (Factor.emit_emits head headed).append (emitProduct_emits tail product)

theorem emitProduct_emits : ∀ (tail : List (MulOp × Factor)) {type : Tag} {before after : Frame}
    {code : Piece}, (emitProduct env type tail).Yields before code after →
    Frame.Emits exits [] before code after (productSlots tail) puts (productTokens env.constants tail)
  | [], _, _, _, _, emitted => by
    obtain ⟨rfl, rfl⟩ := emitProduct_nil_yields.mp emitted
    exact .nil _
  | (op, factor) :: rest, _, _, _, _, emitted => by
    obtain ⟨_, _, _, _, _, _, _, _, joins, valued, more, rfl⟩ := emitProduct_cons_yields.mp emitted
    have step : Bare [op.instr] := by cases op <;> exact bare_single rfl
    exact (((Frame.Emits.after (conversion_bare joins.left) (Factor.emit_emits factor valued)).then
      (conversion_bare joins.right)).then step).append (emitProduct_emits rest more)

theorem Factor.emit_emits : ∀ (factor : Factor) {before after : Frame} {code : Piece},
    (factor.emit env).Yields before code after →
    Frame.Emits exits [] before code after factor.slots puts (factor.tokens env.constants)
  | ⟨_, kind, _⟩, _, _, _, emitted => FactorKind.emit_emits kind (Factor.emit_yields.mp emitted)

theorem FactorKind.emit_emits : ∀ (kind : FactorKind) {id : NodeId} {before after : Frame}
    {code : Piece}, (kind.emit env id).Yields before code after →
    Frame.Emits exits [] before code after kind.slots puts (kind.tokens env.constants)
  | .literal _, _, _, _, _, emitted => by
    obtain ⟨_, loaded, rfl, rfl⟩ := FactorKind.emit_literal_yields.mp emitted
    exact literal_emits _ loaded
  | .designator target, _, _, _, _, emitted =>
    Designator.emitLoad_emits target (FactorKind.emit_designator_yields.mp emitted)
  | .call _ args, _, _, _, _, emitted => by
    obtain ⟨_, _, _, _, _, valued, called, rfl⟩ := FactorKind.emit_call_yields.mp emitted
    exact ((emitExprs_emits args valued).append (Target.emit_emits called)).telling (List.append_nil _)
  | .newObject _, _, _, _, _, emitted => by
    obtain ⟨rfl, rfl⟩ := FactorKind.emit_newObject_yields.mp emitted
    exact .plain rfl (.nil _)
  | .newArray _ [], _, _, _, _, emitted => by
    obtain ⟨_, _, _, _, _, _, sized, gridded, rfl⟩ :=
      (FactorKind.emit_newArray_yields (by simp)).mp emitted
    obtain ⟨rfl, rfl, rfl⟩ := emitSizes_nil_yields.mp sized
    exact emitGrid_emits gridded
  | .newArray _ [size], _, _, _, _, emitted => by
    obtain ⟨_, _, _, _, counted, _, rfl⟩ := FactorKind.emit_newArray_one_yields.mp emitted
    exact ((Expr.emit_emits size counted).append (.plain rfl (.nil _))).telling
      (by simp [FactorKind.tokens, exprsTokens, gridTokens])
  | .newArray _ (size :: second :: sizes), _, _, _, _, emitted => by
    obtain ⟨_, _, counts, _, _, _, sized, gridded, rfl⟩ :=
      (FactorKind.emit_newArray_yields (by simp)).mp emitted
    have length := emitSizes_length sized
    have code := (emitSizes_emits (size :: second :: sizes) sized).append (emitGrid_emits gridded)
    rw [length] at code
    rw [FactorKind.slots]
    · exact code
    · simp
  | .paren inner, _, _, _, _, emitted =>
    Expr.emit_emits inner (FactorKind.emit_paren_yields.mp emitted)
  | .list elems, _, _, _, _, emitted => by
    obtain ⟨_, _, _, _, _, added, rfl⟩ := FactorKind.emit_list_yields.mp emitted
    exact .plain rfl (emitElems_emits elems added)

theorem emitExprs_emits : ∀ (exprs : List Expr) {before after : Frame} {code : Piece},
    (emitExprs env exprs).Yields before code after →
    Frame.Emits exits [] before code after (exprsSlots exprs) puts (exprsTokens env.constants exprs)
  | [], _, _, _, emitted => by
    obtain ⟨rfl, rfl⟩ := emitExprs_nil_yields.mp emitted
    exact .nil _
  | e :: rest, _, _, _, emitted => by
    obtain ⟨_, _, _, valued, more, rfl⟩ := emitExprs_cons_yields.mp emitted
    exact (Expr.emit_emits e valued).append (emitExprs_emits rest more)

theorem emitSizes_emits : ∀ (sizes : List Expr) {before after : Frame} {code : Piece}
    {counts : List Nat}, (emitSizes env sizes).Yields before (code, counts) after →
    Frame.Emits exits [] before code after (exprsSlots sizes + sizes.length) puts
      (exprsTokens env.constants sizes)
  | [], _, _, _, _, emitted => by
    obtain ⟨rfl, _, rfl⟩ := emitSizes_nil_yields.mp emitted
    exact .nil _
  | size :: rest, _, _, _, _, emitted => by
    obtain ⟨_, _, _, _, _, valued, _, _, more, rfl, _⟩ := emitSizes_cons_yields.mp emitted
    rw [List.append_assoc]
    refine Frame.Emits.of_eq ((Expr.emit_emits size valued).append
      (.keep (emitSizes_emits rest more))) ?_
    simp only [exprsSlots, List.length_cons]
    omega

theorem emitElems_emits : ∀ (elems : List Expr) {elem : Ty} {before after : Frame} {code : Piece},
    (emitElems env elem elems).Yields before code after →
    Frame.Emits exits [] before code after (exprsSlots elems) puts (exprsTokens env.constants elems)
  | [], _, _, _, _, emitted => by
    obtain ⟨rfl, rfl⟩ := emitElems_nil_yields.mp emitted
    exact .nil _
  | e :: rest, _, _, _, _, emitted => by
    obtain ⟨_, _, _, valued, more, rfl⟩ := emitElems_cons_yields.mp emitted
    simp only [List.append_assoc, List.cons_append, List.nil_append]
    exact .plain rfl ((Expr.emit_emits e valued).append (.plain rfl (emitElems_emits rest more)))

theorem Designator.emitLoad_emits : ∀ (target : Designator) {before after : Frame} {code : Piece},
    (target.emitLoad env).Yields before code after →
    Frame.Emits exits [] before code after target.slots puts (target.tokens env.constants)
  | ⟨_, _, selectors, _⟩, _, _, _, emitted => by
    obtain ⟨_, _, _, _, loaded, selected, rfl⟩ := Designator.emitLoad_yields.mp emitted
    exact ((emitBase_emits loaded).append (emitSelectors_emits selectors selected)).of_eq
      (Nat.zero_add _)

theorem emitSelectors_emits : ∀ (selectors : List Selector) {tag last : Tag}
    {before after : Frame} {code : Piece},
    (emitSelectors env tag selectors).Yields before (code, last) after →
    Frame.Emits exits [] before code after (selectorsSlots selectors) puts
      (selectorsTokens env.constants selectors)
  | [], _, _, _, _, _, emitted => by
    obtain ⟨rfl, _, rfl⟩ := emitSelectors_nil_yields.mp emitted
    exact .nil _
  | .field _ :: rest, _, _, _, _, _, emitted => by
    obtain ⟨_, _, _, _, _, more, rfl⟩ := emitSelectors_field_yields.mp emitted
    exact .plain rfl (emitSelectors_emits rest more)
  | .index value :: rest, _, _, _, _, _, emitted => by
    obtain ⟨_, _, _, _, indexed, _, more, rfl⟩ := emitSelectors_index_yields.mp emitted
    rw [List.append_assoc]
    exact (Expr.emit_emits value indexed).append (.plain rfl (emitSelectors_emits rest more))

end

theorem selectorsSlots_append (xs ys : List Selector) :
    selectorsSlots (xs ++ ys) = selectorsSlots xs + selectorsSlots ys := by
  induction xs with
  | nil => simp [selectorsSlots]
  | cons selector xs ih =>
    cases selector <;> simp only [List.cons_append, selectorsSlots, ih, Nat.add_assoc]

variable {target : Designator}

theorem Designator.slots_of_getLast? {selector : Selector}
    (last : target.selectors.getLast? = some selector) :
    target.slots = selectorsSlots target.selectors.dropLast + selectorsSlots [selector] := by
  obtain ⟨_, _, selectors, _⟩ := target
  rw [Designator.slots, ← selectorsSlots_append, List.dropLast_append_getLast? _ last]

theorem selectorsTokens_append (constants : List (String × Literal)) (xs ys : List Selector)
    (hides : String → Bool) : selectorsTokens constants (xs ++ ys) hides =
      selectorsTokens constants xs hides ++ selectorsTokens constants ys hides := by
  induction xs with
  | nil => rfl
  | cons selector xs ih =>
    cases selector <;> simp only [List.cons_append, selectorsTokens, ih, List.append_assoc]

theorem Designator.tokens_of_getLast? {constants : List (String × Literal)} {selector : Selector}
    (last : target.selectors.getLast? = some selector) (hides : String → Bool) :
    target.tokens constants hides = baseTokens constants target.base.name hides ++
      selectorsTokens constants target.selectors.dropLast hides ++
      selectorsTokens constants [selector] hides := by
  obtain ⟨_, _, selectors, _⟩ := target
  rw [Designator.tokens, List.append_assoc, ← selectorsTokens_append,
    List.dropLast_append_getLast? _ last]

theorem CondFact.emit_emits {fact : CondFact} {before after : Frame} {code : Piece}
    (emitted : (fact.emit env).Yields before code after) :
    Frame.Emits exits [] before code after fact.slots puts (fact.tokens env.constants) := by
  have emitted := CondFact.emit_yields.mp emitted
  unfold CondFact.slots CondFact.tokens
  cases kind : fact.kind with
  | expr value =>
    rw [kind] at emitted
    exact Expr.emit_emits value emitted
  | relation left op right =>
    rw [kind] at emitted
    obtain ⟨strings, _, _, _, _, first, second, rfl⟩ := emitted
    exact ((Expr.emit_emits left first).append (Expr.emit_emits right second)).append
      (compareCode_emits _ strings op)

theorem emitFacts_emits {join : Piece} {facts : List CondFact} (bare : Bare join)
    (emitted : (emitFacts env join facts).Yields before code after) :
    Frame.Emits exits [] before code after (facts.map CondFact.slots).sum puts
      fun hides => facts.flatMap (·.tokens env.constants hides) := by
  induction facts generalizing join before code with
  | nil =>
    obtain ⟨rfl, rfl⟩ := emitFacts_nil_yields.mp emitted
    exact .nil _
  | cons fact rest ih =>
    obtain ⟨_, _, _, valued, more, rfl⟩ := emitFacts_cons_yields.mp emitted
    exact ((CondFact.emit_emits valued).then bare).append (ih (bare_single rfl) more)

theorem Condition.emit_emits {cond : Condition} (emitted : (cond.emit env).Yields before code after) :
    Frame.Emits exits [] before code after cond.slots puts (cond.tokens env.constants) := by
  have joined : ∀ (terms : List CondTerm) {join : Piece} {before : Frame} {code : Piece},
      Bare join → (emitCondTerms env join terms).Yields before code after →
      Frame.Emits exits [] before code after
        (terms.map fun term => (term.facts.map CondFact.slots).sum).sum puts
        fun hides => terms.flatMap (·.tokens env.constants hides) := by
    intro terms
    induction terms with
    | nil =>
      intro join before code _ emitted
      obtain ⟨rfl, rfl⟩ := emitCondTerms_nil_yields.mp emitted
      exact .nil _
    | cons term rest ih =>
      intro join before code bare emitted
      obtain ⟨_, _, _, valued, more, rfl⟩ := emitCondTerms_cons_yields.mp emitted
      exact ((emitFacts_emits bare_nil valued).then bare).append (ih (bare_single rfl) more)
  exact joined cond.terms bare_nil emitted

theorem Designator.emitContainer_emits
    (emitted : (target.emitContainer env).Yields before (code, tag) after) :
    Frame.Emits exits [] before code after (selectorsSlots target.selectors.dropLast) puts
      fun hides => baseTokens env.constants target.base.name hides ++
        selectorsTokens env.constants target.selectors.dropLast hides := by
  obtain ⟨_, _, _, loaded, selected, rfl⟩ := Designator.emitContainer_yields.mp emitted
  exact ((emitBase_emits loaded).append (emitSelectors_emits _ selected)).of_eq (Nat.zero_add _)

theorem Designator.emitStore_emits {value : Emit Piece} {slots : Nat} {told : Telling}
    (stores : ∀ {before after : Frame} {code : Piece}, value.Yields before code after →
      Frame.Emits exits [] before code after slots true told)
    (emitted : (target.emitStore env value).Yields before code after) :
    Frame.Emits exits [] before code after (target.slots + slots) true
      fun hides => target.placeTokens env.constants hides ++ told hides := by
  unfold Designator.placeTokens
  cases last : target.selectors.getLast? with
  | none =>
    obtain ⟨_, _, _, stored, _, put, rfl⟩ := (Designator.emitStore_name_yields last).mp emitted
    obtain ⟨_, _, selectors, _⟩ := target
    rw [List.getLast?_eq_none_iff] at last
    cases last
    exact (((stores stored).append (Home.put_emits _ put)).telling (List.append_nil _)).of_eq
      (Nat.zero_add slots).symm
  | some selector =>
    have split := Designator.slots_of_getLast? last
    have some : target.selectors.isEmpty = false := by cases h : target.selectors <;> simp_all
    cases selector with
    | field field =>
      obtain ⟨_, _, _, _, _, contained, _, stored, rfl⟩ :=
        (Designator.emitStore_field_yields last).mp emitted
      refine Frame.Emits.of_eq ((((Designator.emitContainer_emits contained).append
        (stores stored)).then (bare_single rfl)).telling ?_) ?_
      · simp [some, Designator.tokens_of_getLast? last, selectorsTokens]
      · simp only [selectorsSlots] at split
        omega
    | index index =>
      obtain ⟨_, _, _, _, _, _, _, contained, indexed, stored, _, rfl⟩ :=
        (Designator.emitStore_index_yields last).mp emitted
      refine Frame.Emits.of_eq (((((Designator.emitContainer_emits contained).append
        (Expr.emit_emits index indexed)).append (stores stored)).then (bare_single rfl)).telling ?_) ?_
      · simp [some, Designator.tokens_of_getLast? last, selectorsTokens]
      · simp only [selectorsSlots] at split
        omega

theorem readCode_emits (reads : (pure readCode : Emit Piece).Yields before code after) :
    Frame.Emits exits [] before code after 0 puts fun _ => [] := by
  obtain ⟨rfl, rfl⟩ := yields_pure.mp reads
  exact .plain rfl (.plain rfl (.nil _))

theorem StepOp.instr_bare (op : StepOp) : op.instr.isBare = true := by cases op <;> rfl

theorem Designator.emitStep_emits {op : StepOp}
    (emitted : (target.emitStep env op).Yields before code after) :
    Frame.Emits exits [] before code after target.stepSlots true
      fun hides => target.tokens env.constants hides ++ [.word 1] := by
  rw [Designator.stepSlots]
  cases last : target.selectors.getLast? with
  | none =>
    obtain ⟨_, _, _, _, found, loaded, put, rfl, rfl⟩ :=
      (Designator.emitStep_name_yields last).mp emitted
    obtain ⟨_, _, selectors, _⟩ := target
    rw [List.getLast?_eq_none_iff] at last
    cases last
    exact ((Env.home_emits found loaded).append (.word <| .plain op.instr_bare <|
      Home.put_emits _ put)).telling (by simp [Designator.tokens, selectorsTokens])
  | some selector =>
    have split := Designator.slots_of_getLast? last
    cases selector with
    | field field =>
      obtain ⟨_, _, _, contained, _, rfl⟩ := (Designator.emitStep_field_yields last).mp emitted
      refine Frame.Emits.of_eq (((Designator.emitContainer_emits contained).append
        (.plain rfl <| .plain rfl <| .word <| .plain op.instr_bare <| .plain rfl <| .nil _)).telling ?_) ?_
      · simp [Designator.tokens_of_getLast? last, selectorsTokens]
      · simp only [selectorsSlots] at split
        exact split.symm
    | index index =>
      obtain ⟨_, _, mid, _, _, _, mid', _, contained, _, _, _, indexed, _, _, rfl, rfl⟩ :=
        (Designator.emitStep_index_yields last).mp emitted
      simp only [List.append_assoc, List.cons_append, List.nil_append]
      refine Frame.Emits.of_eq (((Designator.emitContainer_emits contained).append
        (.keep <| (Expr.emit_emits index indexed).append <| .keep <| .plain rfl <| .plain rfl <|
          .plain rfl <| .plain rfl <| .plain rfl <| .word <| .plain op.instr_bare <| .plain rfl <|
          .nil _)).telling ?_) ?_
      · simp [Designator.tokens_of_getLast? last, selectorsTokens]
      · simp only [selectorsSlots] at split
        omega

theorem emitWrite_emits {value : Expr} {width : Option Int64}
    (emitted : (emitWrite env value width).Yields before code after) :
    Frame.Emits exits [] before code after value.slots puts fun hides =>
      value.tokens env.constants hides ++ width.toList.map fun width => .word width.toInt := by
  obtain ⟨_, _, _, written, _, _, rest⟩ := emitWrite_yields.mp emitted
  cases width with
  | none =>
    rw [rest]
    exact (Expr.emit_emits value written).append (.plain rfl (.nil _))
  | some width =>
    obtain ⟨fits, rfl⟩ := rest
    exact ((Expr.emit_emits value written).append (.word (.plain rfl (.nil _)))).telling
      (by rw [toInt_ofInt_of_fits fits]; rfl)

theorem emitAgain_emits {start : Label} {cond : Option Condition} (known : start ∈ exits)
    (emitted : (emitAgain env start cond).Yields before code after) :
    Frame.Emits exits [] before code after ((cond.map Condition.slots).getD 0) puts fun hides =>
      (cond.map fun cond => cond.tokens env.constants hides).getD [] := by
  cases cond with
  | some cond =>
    obtain ⟨_, tested, rfl⟩ := emitAgain_some_yields.mp emitted
    exact ((Condition.emit_emits tested).append (.jump rfl known (.nil _))).telling (List.append_nil _)
  | none =>
    obtain ⟨rfl, rfl⟩ := emitAgain_none_yields.mp emitted
    exact .jump rfl known (.nil _)

theorem emitDispatch_emits {slot : Nat} {pairs : List (SwitchCase × Label)}
    (known : ∀ pair ∈ pairs, pair.2 ∈ exits)
    (emitted : (emitDispatch slot pairs).Yields before code after) :
    Frame.Emits exits [] before code after 0 puts
      fun _ => (pairs.map Prod.fst).flatMap (·.label.tokens) := by
  induction pairs generalizing code with
  | nil =>
    obtain ⟨rfl, rfl⟩ := emitDispatch_nil_yields.mp emitted
    exact .nil _
  | cons pair rest ih =>
    obtain ⟨_, _, loaded, more, rfl⟩ := emitDispatch_cons_yields.mp emitted
    rw [List.forall_mem_cons] at known
    exact .plain rfl ((literal_emits _ loaded).append (.jump rfl known.1 (ih known.2 more)))

theorem Frame.hides_withLocal (frame : Frame) (name : String) (type : Ty) (tag : Tag) (other : String) :
    (frame.withLocal name type tag).hides other = (name == other || frame.hides other) := by
  have flipped : (other == name) = (name == other) := Bool.beq_comm
  unfold hides withLocal Frame.bind
  cases frame.scopes <;> cases same : name == other <;>
    simp [List.findSome?_cons, List.lookup_cons, flipped, same]

theorem emitLocals_grows {names : List Ident}
    (emitted : (emitLocals env tag names).Yields before () after) :
    Frame.Grows exits [] before [] after names.length ∧
      after.scopes.tail = before.scopes.tail ∧
      after.hides = fun name => before.hides name || names.any (·.name == name) := by
  induction names generalizing before with
  | nil =>
    cases emitLocals_nil_yields.mp emitted
    exact ⟨.of_plain _ plain_nil, rfl, by simp⟩
  | cons name names ih =>
    obtain ⟨_, _, _, more⟩ := emitLocals_cons_yields.mp emitted
    obtain ⟨grows, scopes, hides⟩ := ih more
    refine ⟨grows.withLocal, scopes, hides.trans (funext fun other => ?_)⟩
    rw [Frame.hides_withLocal, List.any_cons, Bool.or_left_comm, ← Bool.or_assoc]

theorem switchLabels_perm (first : Nat) (cases : List SwitchCase) (default : Option DefaultCase) :
    (labelsFrom (first + 1) cases.length ++
      ((if default.isSome then [switchFallback first cases.length default] else []) ++
        [Label.mk first])).Perm (labelsFrom first (switchLabelCount cases default)) := by
  rw [List.perm_iff_count]
  rintro ⟨n⟩
  rw [List.count_append, List.count_append, count_labelsFrom, count_labelsFrom, switchFallback,
    switchLabelCount]
  cases default with
  | none => simp only [Option.isSome_none, List.count_singleton]; grind
  | some block => simp only [Option.isSome_some, if_true, List.count_singleton]; grind

theorem switchFallback_mem (first : Nat) (cases : List SwitchCase) (default : Option DefaultCase) :
    switchFallback first cases.length default ∈
      labelsFrom first (switchLabelCount cases default) := by
  rw [mem_labelsFrom, switchFallback, switchLabelCount]
  cases default with
  | none => simp
  | some block => simp only [Option.isSome_some, if_true]; omega

mutual

theorem Stmt.emit_emits : ∀ (stmt : Stmt) {exits : List Label} {before after : Frame} {code : Piece},
    before.breakLabels ⊆ exits → (stmt.emit env).Yields before code after →
    Frame.Emits exits [] before code after stmt.slots true (stmt.tokens env.constants)
  | .assign target value _, _, _, _, _, _, emitted =>
    Designator.emitStore_emits (Expr.emit_emits value) (Stmt.emit_assign_yields.mp emitted)
  | .call _ args _, _, _, _, _, _, emitted => by
    obtain ⟨_, result, called, rfl⟩ := Stmt.emit_call_yields.mp emitted
    obtain ⟨_, _, _, _, _, valued, call, rfl, _⟩ := Designator.emitCall_yields.mp called
    have dropped : Bare (if result = .void then [] else [.pop]) := by
      split
      · exact bare_nil
      · exact bare_single rfl
    exact (((emitExprs_emits args valued).append (Target.emit_emits call)).then dropped).telling
      (List.append_nil _)
  | .increment _ _, _, _, _, _, _, emitted =>
    Designator.emitStep_emits (Stmt.emit_increment_yields.mp emitted)
  | .decrement _ _, _, _, _, _, _, emitted =>
    Designator.emitStep_emits (Stmt.emit_decrement_yields.mp emitted)
  | .branch cond onTrue (some onFalse) _, exits, before, _, _, within, emitted => by
    obtain ⟨_, _, _, _, _, tested, yes, no, rfl⟩ := Stmt.emit_branch_yields.mp emitted
    have known := List.subset_append_of_subset_right (labelsFrom before.labelCount 2) within
    have test : Frame.Emits (labelsFrom before.labelCount 2 ++ exits) [] _ _ _ _ true _ :=
      Condition.emit_emits tested
    have onTrue := Stmt.emit_emits onTrue (test.breaks ▸ known) yes
    have onFalse := Stmt.emit_emits onFalse (onTrue.breaks ▸ test.breaks ▸ known) no
    simp only [List.append_assoc, List.cons_append, List.nil_append]
    refine Frame.Emits.of_eq ((Frame.Emits.withLabels (test.append <| .jump rfl
      (mem_own 1 (by omega)) <| onTrue.append <| .jump rfl (mem_own 0 (by omega)) <| .mark <|
      onFalse.append <| .mark <| .nil _) ?_).telling ?_) ?_
    · exact List.Perm.swap _ _ _
    · simp [Stmt.tokens, optionTokens]
    · simp only [Stmt.slots, optionSlots]
      omega
  | .branch cond onTrue none _, exits, before, _, _, within, emitted => by
    obtain ⟨_, _, _, tested, yes, rfl⟩ := Stmt.emit_when_yields.mp emitted
    have known := List.subset_append_of_subset_right (labelsFrom before.labelCount 1) within
    have test : Frame.Emits (labelsFrom before.labelCount 1 ++ exits) [] _ _ _ _ true _ :=
      Condition.emit_emits tested
    have onTrue := Stmt.emit_emits onTrue (test.breaks ▸ known) yes
    simp only [List.append_assoc, List.cons_append, List.nil_append]
    exact Frame.Emits.withLabels (test.append <| .jump rfl (mem_own 0 (by omega)) <|
      onTrue.append <| .mark <| .nil _) (.refl _)
  | .whileLoop cond body _, exits, before, _, _, within, emitted => by
    obtain ⟨_, _, _, _, tested, looped, rfl, rfl⟩ := Stmt.emit_while_yields.mp emitted
    have known := List.subset_append_of_subset_right (labelsFrom before.labelCount 2) within
    have test : Frame.Emits (labelsFrom before.labelCount 2 ++ exits) [] _ _ _ _ true _ :=
      Condition.emit_emits tested
    have loop := (Stmt.emit_emits body
      (List.cons_subset.mpr ⟨mem_own 1 (by omega), test.breaks ▸ known⟩) looped).unbroken
    simp only [List.append_assoc, List.cons_append, List.nil_append]
    exact (Frame.Emits.withLabels (.mark <| test.append <| .jump rfl
      (mem_own 1 (by omega)) <| loop.append <| .jump rfl (mem_own 0 (by omega)) <| .mark <|
      .nil _) (.refl _)).telling (by simp [Stmt.tokens])
  | .forLoop init cond update body _, exits, before, _, _, within, emitted => by
    obtain ⟨_, _, _, _, _, _, _, started, looped, updated, again, rfl⟩ :=
      Stmt.emit_for_yields.mp emitted
    have known := List.subset_append_of_subset_right (labelsFrom before.labelCount 3) within
    have first := emitOptional_emits init (by exact known) started
    have loop := (Stmt.emit_emits body
      (List.cons_subset.mpr ⟨mem_own 2 (by omega), first.breaks ▸ known⟩) looped).unbroken
    have next := emitOptional_emits update (loop.breaks ▸ first.breaks ▸ known) updated
    simp only [List.append_assoc, List.cons_append, List.nil_append]
    refine Frame.Emits.of_eq ((Frame.Emits.withLabels (first.append <| .jump rfl
      (mem_own 1 (by omega)) <| .mark <| loop.append <| next.append <| .mark <|
      (emitAgain_emits (mem_own 0 (by omega)) again).append <| .mark <| .nil _) (.refl _)).telling ?_) ?_
    · simp [Stmt.tokens]
    · simp only [Stmt.slots]
      omega
  | .breakStmt _, _, _, _, _, within, emitted => by
    obtain ⟨_, found, rfl, rfl⟩ := Stmt.emit_break_yields.mp emitted
    exact .jump rfl (within (List.mem_of_mem_head? found)) (.nil _)
  | .returnStmt (some value) _, _, _, _, _, _, emitted => by
    obtain ⟨_, valued, rfl⟩ := Stmt.emit_return_some_yields.mp emitted
    exact (Expr.emit_emits value valued).then (bare_single rfl)
  | .returnStmt none _, _, _, _, _, _, emitted => by
    obtain ⟨rfl, rfl⟩ := Stmt.emit_return_none_yields.mp emitted
    exact .plain rfl (.nil _)
  | .read target _, _, _, _, _, _, emitted =>
    (Designator.emitStore_emits readCode_emits (Stmt.emit_read_yields.mp emitted)).telling
      (List.append_nil _)
  | .write _ _ _, _, _, _, _, _, emitted => emitWrite_emits (Stmt.emit_write_yields.mp emitted)
  | .switch selector cases default _, exits, before, _, _, within, emitted => by
    obtain ⟨_, _, mid, type, _, inside, _, behind, _, _, selected, _, _, dispatched, cased, defaulted,
      rfl, rfl⟩ := Stmt.emit_switch_yields.mp emitted
    have value : Frame.Emits exits [] _ _ _ _ true _ := Expr.emit_emits selector selected
    let labels := labelsFrom mid.labelCount (switchLabelCount cases default)
    have known : (⟨mid.labelCount⟩ :: mid.breakLabels) ⊆ labels ++ exits :=
      List.cons_subset.mpr ⟨mem_own 0 (by rw [switchLabelCount]; omega),
        List.subset_append_of_subset_right labels (value.breaks ▸ within)⟩
    have choice : Frame.Emits (labels ++ exits) [] _ _ _ _ true _ :=
      emitDispatch_emits (fun pair member => List.mem_append_left _ (by
        have range := mem_labelsFrom.mp (List.of_mem_zip member).2
        rw [mem_labelsFrom, switchLabelCount]
        omega)) dispatched
    rw [List.map_fst_zip (by simp [labelsFrom])] at choice
    have bodies := emitCases_emits cases (by simp [labelsFrom]) (by exact known) cased
    have last := emitDefault_emits default (by rw [bodies.breaks]; exact known) defaulted
    have code := (bodies.append last).unbroken
    generalize inside ++ behind = inside at code
    simp only [List.append_assoc, List.cons_append, List.nil_append]
    refine Frame.Emits.of_eq ((value.append <| .keep <| Frame.Emits.withLabels
      (choice.append <| .jump rfl (List.mem_append_left _ (switchFallback_mem _ _ _)) <|
        code.append <| .mark <| .nil _) ?_).telling ?_) ?_
    · rw [List.nil_append, List.append_assoc]
      exact switchLabels_perm mid.labelCount cases default
    · simp [Stmt.tokens]
    · simp only [Stmt.slots]
      omega
  | .block ⟨items, _⟩, _, _, _, _, within, emitted => by
    obtain ⟨_, inner, rfl⟩ := Stmt.emit_block_yields.mp emitted
    obtain ⟨grows, scopes, told⟩ := emitItems_grows items (by exact within) inner
    exact grows.closed scopes told
  | .empty _, _, _, _, _, _, emitted => by
    obtain ⟨rfl, rfl⟩ := Stmt.emit_empty_yields.mp emitted
    exact .nil _

theorem emitOptional_emits : ∀ (stmt : Option Stmt) {exits : List Label} {before after : Frame}
    {code : Piece}, before.breakLabels ⊆ exits → (emitOptional env stmt).Yields before code after →
    Frame.Emits exits [] before code after (optionSlots stmt) true (optionTokens env.constants stmt)
  | none, _, _, _, _, _, emitted => by
    obtain ⟨rfl, rfl⟩ := emitOptional_none_yields.mp emitted
    exact .nil _
  | some stmt, _, _, _, _, within, emitted =>
    Stmt.emit_emits stmt within (emitOptional_some_yields.mp emitted)

theorem emitStmts_emits : ∀ (stmts : List Stmt) {exits : List Label} {before after : Frame}
    {code : Piece}, before.breakLabels ⊆ exits → (emitStmts env stmts).Yields before code after →
    Frame.Emits exits [] before code after (stmtsSlots stmts) true (stmtsTokens env.constants stmts)
  | [], _, _, _, _, _, emitted => by
    obtain ⟨rfl, rfl⟩ := emitStmts_nil_yields.mp emitted
    exact .nil _
  | stmt :: rest, _, _, _, _, within, emitted => by
    obtain ⟨_, _, _, first, more, rfl⟩ := emitStmts_cons_yields.mp emitted
    have first := Stmt.emit_emits stmt within first
    exact first.append (emitStmts_emits rest (first.breaks ▸ within) more)

theorem emitCases_emits : ∀ (cases : List SwitchCase) {labels exits : List Label}
    {before after : Frame} {code : Piece}, labels.length = cases.length →
    before.breakLabels ⊆ exits → (emitCases env labels cases).Yields before code after →
    Frame.Emits exits labels before code after (casesSlots cases) true (casesTokens env.constants cases)
  | [], labels, _, _, _, _, length, _, emitted => by
    obtain ⟨rfl, rfl⟩ := emitCases_nil_yields.mp emitted
    cases List.eq_nil_of_length_eq_zero length
    exact .nil _
  | ⟨_, body, _⟩ :: rest, [], _, _, _, _, length, _, _ => by simp at length
  | ⟨_, body, _⟩ :: rest, label :: labels, _, _, _, _, length, within, emitted => by
    obtain ⟨_, _, _, first, more, rfl⟩ := emitCases_cons_yields.mp emitted
    have first := emitStmts_emits body within first
    have more := emitCases_emits rest (Nat.succ.inj length) (first.breaks ▸ within) more
    exact .mark (first.append more)

theorem emitDefault_emits : ∀ (default : Option DefaultCase) {label : Label} {exits : List Label}
    {before after : Frame} {code : Piece}, before.breakLabels ⊆ exits →
    (emitDefault env label default).Yields before code after →
    Frame.Emits exits (if default.isSome then [label] else []) before code after
      (defaultSlots default) true (defaultTokens env.constants default)
  | none, _, _, _, _, _, _, emitted => by
    obtain ⟨rfl, rfl⟩ := emitDefault_none_yields.mp emitted
    exact .nil _
  | some ⟨body, _⟩, _, _, _, _, _, within, emitted => by
    obtain ⟨_, rest, rfl⟩ := emitDefault_some_yields.mp emitted
    exact .mark (emitStmts_emits body within rest)

theorem emitItems_grows : ∀ (items : List BlockItem) {exits : List Label} {before after : Frame}
    {code : Piece}, before.breakLabels ⊆ exits → (emitItems env items).Yields before code after →
    Frame.Grows exits [] before code after (itemsSlots items) ∧
      after.scopes.tail = before.scopes.tail ∧
      tokens code = itemsTokens env.constants items before.hides
  | [], _, _, _, _, _, emitted => by
    obtain ⟨rfl, rfl⟩ := emitItems_nil_yields.mp emitted
    exact ⟨.of_plain _ plain_nil, rfl, rfl⟩
  | .var decl :: rest, _, _, _, _, within, emitted => by
    obtain ⟨_, _, _, declared, more⟩ := emitItems_var_yields.mp emitted
    obtain ⟨names, scopes, hides⟩ := emitLocals_grows declared
    obtain ⟨grows, scopes', told⟩ := emitItems_grows rest (names.breaks ▸ within) more
    exact ⟨names.append grows, scopes'.trans scopes, told.trans (by rw [hides, itemsTokens])⟩
  | .stmt stmt :: rest, _, _, _, _, within, emitted => by
    obtain ⟨_, _, _, first, more, rfl⟩ := emitItems_stmt_yields.mp emitted
    have first := Stmt.emit_emits stmt within first
    obtain ⟨grows, scopes, told⟩ := emitItems_grows rest (first.breaks ▸ within) more
    refine ⟨first.toGrows.append grows, by rw [scopes, first.scopes], ?_⟩
    rw [tokens_append, first.told, told, first.hides, itemsTokens]

end

theorem emitParams_grows {params : List (String × Tag)} {i : Nat}
    (emitted : (emitParams env i params).Yields before code after) :
    Frame.Grows exits [] before code after params.length ∧
      after.scopes.tail = before.scopes.tail ∧ tokens code = [] ∧
      after.hides = fun name => before.hides name || params.any (·.1 == name) := by
  induction params generalizing i before code with
  | nil =>
    obtain ⟨rfl, rfl⟩ := emitParams_nil_yields.mp emitted
    exact ⟨.of_plain _ plain_nil, rfl, rfl, by simp⟩
  | cons param params ih =>
    obtain ⟨_, _, _, _, more, rfl⟩ := emitParams_cons_yields.mp emitted
    obtain ⟨grows, scopes, told, hides⟩ := ih more
    have moved : Plain [.ldarg i, .stloc before.locals.length] := by
      simp [Plain, Instr.isPlain, Instr.target?]
    refine ⟨Frame.Grows.withLocal (((Frame.Grows.of_plain _ moved).append grows).of_eq
      (Nat.zero_add _)), scopes, told, hides.trans (funext fun other => ?_)⟩
    rw [Frame.hides_withLocal, List.any_cons, Bool.or_left_comm, ← Bool.or_assoc]

theorem epilogue_plain (result : Ty) (code : Piece) : Plain (epilogue result code) := by
  unfold epilogue
  split
  · exact plain_nil
  · cases result <;> simp [Plain, Ty.defaultCode, Instr.isPlain, Instr.target?]

theorem emitBody_grows {params : List (String × Tag)} {result : Ty} {items : List BlockItem}
    (outside : before.breakLabels = [])
    (emitted : (emitBody env params result items).Yields before code after) :
    Frame.Grows [] [] before code after (params.length + itemsSlots items) := by
  obtain ⟨_, _, _, moved, body, rfl⟩ := emitBody_yields.mp emitted
  have entry : Frame.Grows [] [] _ _ _ _ := (emitParams_grows moved).1
  have items : Frame.Grows [] [] _ _ _ _ :=
    (emitItems_grows items (by rw [entry.breaks, outside]; exact List.Subset.refl _) body).1
  exact (entry.append items).append (.of_plain _ (epilogue_plain result _))

theorem isResolved_of_grows {method : Method} {slots : Nat}
    (grows : Frame.Grows [] [] before method.code after slots) (fresh : before.labelCount = 0)
    (labels : method.labelCount = after.labelCount) : method.isResolved = true := by
  have marks := grows.marks
  simp only [fresh, List.count_nil, Nat.zero_add, Nat.zero_le, true_and] at marks
  rw [Method.isResolved, List.all_eq_true]
  intro instr member
  -- A mark counts as one of the method's labels; any other instruction goes to one, if anywhere.
  have targets := grows.targets instr member
  split
  · rename_i label
    have marked := List.count_pos_iff.mpr member
    rw [marks label.number] at marked
    rw [labels, decide_eq_true_eq]
    by_contra beyond
    rw [if_neg beyond] at marked
    exact absurd marked (lt_irrefl 0)
  · rw [Option.all_eq_true]
    intro target branches
    rcases targets target branches with absent | range
    · simp at absent
    · rw [marks target.number, if_pos range.2]
      rfl

end StackCode
