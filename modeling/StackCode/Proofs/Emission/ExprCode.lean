import StackCode.Proofs.Emission.Yields

namespace StackCode

open Code Emit

theorem bind_eq_ok {ε α β : Type} {x : Except ε α} {f : α → Except ε β} {b : β} :
    x >>= f = .ok b ↔ ∃ a, x = .ok a ∧ f a = .ok b := by
  cases x <;> simp [bind, Except.bind]

theorem pure_eq_ok {ε α : Type} {a b : α} : (pure a : Except ε α) = .ok b ↔ b = a := by
  simp [pure, Except.pure, eq_comm]

def Home.load : Home → Except Unsupported (Piece × Tag)
  | .slot i tag => .ok ([.ldloc i], tag)
  | .static field tag => .ok ([.ldsfld field], tag)
  | .constant value => do return ([← literalInstr value], value.tag)

def Home.put : Home → Option Instr
  | .slot i _ => some (.stloc i)
  | .static field _ => some (.stsfld field)
  | .constant _ => none

/-- Two types have a common type, and `l` and `r` convert to it. -/
structure Joins (left right result : Tag) (l r : Piece) : Prop where
  common : commonType left right = .ok result
  left : conversion left result = .ok l
  right : conversion right result = .ok r

theorem joins_iff {left right result : Tag} {l r : Piece} : Joins left right result l r ↔
    commonType left right = .ok result ∧ conversion left result = .ok l ∧
      conversion right result = .ok r :=
  ⟨fun joins => ⟨joins.common, joins.left, joins.right⟩, fun ⟨common, l, r⟩ => ⟨common, l, r⟩⟩

def Intrinsic.listMethod : Intrinsic → Option ListMethod
  | .len => some .count
  | .add => some .add
  | .del => some .removeAt
  | .ord | .chr => none

def Intrinsic.conversionCode : Intrinsic → Option Instr
  | .ord => some .convI4
  | .chr => some .convU2
  | .len | .add | .del => none

variable {id : NodeId} {tag : Tag}

section Lookups

variable {env : Env}

theorem Env.nodeType_eq_ok : env.nodeType id = .ok tag ↔ env.annotations.type? id = some tag := by
  unfold Env.nodeType
  cases env.annotations.type? id with
  | none => simp
  | some found => simp

theorem Env.typeOf_of_written {type : TypeName} (written : env.writtenType type = .ok tag) :
    env.table.typeOf type.name = tag := by
  rw [Env.writtenType] at written
  split at written
  · cases written
  · exact Except.ok.inj written

theorem Env.classNamed_eq_ok {className : String} :
    env.classNamed tag = .ok className ↔ env.table.registry.name? tag = some className := by
  unfold Env.classNamed
  cases env.table.registry.name? tag with
  | none => simp
  | some found => simp

theorem Env.memberType_eq_ok {container : Tag} {field : String} :
    env.memberType container field = .ok tag ↔
      ∃ symbol, env.table.lookupField? container field = some symbol ∧ symbol.type = tag := by
  unfold Env.memberType
  cases env.table.lookupField? container field with
  | none => simp
  | some found => simp

theorem commonType_eq_ok {left right common : Tag} :
    commonType left right = .ok common ↔ Tag.promote left right = some common := by
  unfold commonType
  cases Tag.promote left right with
  | none => simp
  | some found => simp

end Lookups

variable {env : Env} {before after : Frame} {code : Piece}

/-! Opening an emitter and its binds leaves the pieces as they follow one another. -/

attribute [local simp] yields_bind yields_pure yields_map yields_lift yields_temp yields_newLabel
  yields_get yields_newLocal yields_discard not_yields_throw

attribute [local simp] Expr.emit emitSum Term.emit emitProduct Factor.emit FactorKind.emit emitExprs
  emitSizes emitElems Designator.emitLoad emitSelectors

theorem emitBase_yields {name : String} :
    (emitBase env name).Yields before (code, tag) after ↔
      ∃ home, env.home before name = .ok home ∧ home.load = .ok (code, tag) ∧ after = before := by
  simp only [emitBase, yields_bind, yields_get, yields_lift, and_assoc, exists_and_left, exists_eq_left]
  refine exists_congr fun home => and_congr_right fun _ => ?_
  cases home <;> simp only [Home.load, bind_eq_ok, pure_eq_ok, yields_bind, yields_lift, yields_pure] <;>
    grind

theorem emitPut_yields {name : String} {constant : Unsupported} {put : Instr} :
    (emitPut env name constant).Yields before put after ↔
      ∃ home, env.home before name = .ok home ∧ home.put = some put ∧ after = before := by
  simp only [emitPut, yields_bind, yields_get, yields_lift, and_assoc, exists_and_left, exists_eq_left]
  refine exists_congr fun home => and_congr_right fun _ => ?_
  cases home <;> simp [Home.put, eq_comm]

theorem emitField_yields {container : Tag} {field : String} :
    (emitField env container field).Yields before (code, tag) after ↔
      ∃ className, env.classNamed container = .ok className ∧
        env.memberType container field = .ok tag ∧ code = [.ldfld className field] ∧
        after = before := by
  simp [emitField, and_assoc, and_left_comm, and_comm]

theorem emitGrid_one_yields {base : Tag} {count : Nat} :
    (emitGrid env base [count]).Yields before code after ↔
      ∃ type, env.type base = .ok type ∧ code = [.ldloc count, .newlist type true] ∧
        after = before := by
  simp [emitGrid, and_assoc, and_left_comm, and_comm]

def Frame.withLabels (frame : Frame) (count : Nat) : Frame :=
  { frame with labelCount := frame.labelCount + count }

theorem emitGrid_cons_yields {base : Tag} {count second : Nat} {inner : List Nat} :
    (emitGrid env base (count :: second :: inner)).Yields before code after ↔
      ∃ elem int row, env.type ((second :: inner).foldl (fun tag _ => tag.listOf) base) = .ok elem ∧
        env.type .int = .ok int ∧ before.locals.length < slotLimit ∧
        (emitGrid env base (second :: inner)).Yields ((before.withTemp int).withLabels 2) row after ∧
        code = ([.ldcI4 0, .stloc before.locals.length, .newlist elem false,
            .br ⟨before.labelCount + 1⟩, .mark ⟨before.labelCount⟩, .dup] : Piece) ++ row ++
          ([.callvirt .add elem, .ldloc before.locals.length, .ldcI4 1, .add,
            .stloc before.locals.length, .mark ⟨before.labelCount + 1⟩,
            .ldloc before.locals.length, .ldloc count, .clt, .brtrue ⟨before.labelCount⟩] : Piece) := by
  simp [emitGrid, Frame.withTemp, Frame.withLabels, and_assoc]

theorem Intrinsic.emit_yields {op : Intrinsic} {list : Option NodeId} :
    (op.emit env list).Yields before code after ↔ after = before ∧
      ((∃ method id tag elem, op.listMethod = some method ∧ list = some id ∧
          env.nodeType id = .ok tag ∧ env.type tag.element = .ok elem ∧
          code = [.callvirt method elem]) ∨
        ∃ instr, op.conversionCode = some instr ∧ code = [instr]) := by
  cases op <;> cases list <;>
    simp [Intrinsic.emit, Intrinsic.listMethod, Intrinsic.conversionCode, yields_bind, yields_map,
      yields_lift, yields_pure, not_yields_throw] <;> grind

variable {span : Span}

theorem Expr.emit_yields {neg : Bool} {cast : Option TypeName} {head : Term} {tail : List (AddOp × Term)} :
    (Expr.emit env ⟨id, neg, cast, head, tail, span⟩).Yields before code after ↔
      ∃ type, env.nodeType head.id = .ok type ∧
        ((isLeastInt neg cast head = true ∧ ∃ rest, (emitSum env type tail).Yields before rest after ∧
            code = ([.ldcI4 Int32.minValue] : Piece) ++ rest) ∨
          (isLeastInt neg cast head = false ∧ ∃ first mid convert target rest,
            (head.emit env).Yields before first mid ∧
            env.castCode type cast = .ok (convert, target) ∧
            (emitSum env target tail).Yields mid rest after ∧
            code = first ++ convert ++ (if neg then [.neg] else []) ++ rest)) := by
  cases least : isLeastInt neg cast head with
  | true => simp [Expr.emit, least]
  | false => simp [Expr.emit, least]

variable {type : Tag}

theorem emitSum_nil_yields :
    (emitSum env type []).Yields before code after ↔ code = [] ∧ after = before := by
  rw [emitSum, yields_pure]

theorem emitSum_cons_yields {op : AddOp} {term : Term} {rest : List (AddOp × Term)} :
    (emitSum env type ((op, term) :: rest)).Yields before code after ↔
      ∃ right result l r value mid others, env.nodeType term.id = .ok right ∧
        Joins type right result l r ∧ (term.emit env).Yields before value mid ∧
        (emitSum env result rest).Yields mid others after ∧
        code = l ++ value ++ r ++ [op.instr] ++ others := by
  simp only [emitSum, yields_bind, yields_lift, yields_pure, joins_iff]
  grind

theorem Term.emit_yields {head : Factor} {tail : List (MulOp × Factor)} :
    (Term.emit env ⟨id, head, tail, span⟩).Yields before code after ↔
      ∃ first mid type rest, (head.emit env).Yields before first mid ∧
        env.nodeType head.id = .ok type ∧ (emitProduct env type tail).Yields mid rest after ∧
        code = first ++ rest := by
  simp [Term.emit]

theorem emitProduct_nil_yields :
    (emitProduct env type []).Yields before code after ↔ code = [] ∧ after = before := by
  rw [emitProduct, yields_pure]

theorem emitProduct_cons_yields {op : MulOp} {factor : Factor} {rest : List (MulOp × Factor)} :
    (emitProduct env type ((op, factor) :: rest)).Yields before code after ↔
      ∃ right result l r value mid others, env.nodeType factor.id = .ok right ∧
        Joins type right result l r ∧ (factor.emit env).Yields before value mid ∧
        (emitProduct env result rest).Yields mid others after ∧
        code = l ++ value ++ r ++ [op.instr] ++ others := by
  simp only [emitProduct, yields_bind, yields_lift, yields_pure, joins_iff]
  grind

theorem Factor.emit_yields {kind : FactorKind} :
    (Factor.emit env ⟨id, kind, span⟩).Yields before code after ↔
      (kind.emit env id).Yields before code after := by
  simp

theorem FactorKind.emit_literal_yields {value : Literal} :
    (FactorKind.emit env id (.literal value)).Yields before code after ↔
      ∃ instr, literalInstr value = .ok instr ∧ code = [instr] ∧ after = before := by
  simp [FactorKind.emit, and_assoc, and_left_comm, and_comm]

theorem FactorKind.emit_designator_yields {target : Designator} :
    (FactorKind.emit env id (.designator target)).Yields before code after ↔
      (target.emitLoad env).Yields before code after := by
  simp

variable {args : List Expr}

theorem FactorKind.emit_call_yields {callee : Designator} :
    (FactorKind.emit env id (.call callee args)).Yields before code after ↔
      ∃ target values mid call, env.target callee.base.name args.length = .ok target ∧
        (emitExprs env args).Yields before values mid ∧
        (target.emit env args).Yields mid call after ∧ code = values ++ call := by
  simp [FactorKind.emit]

theorem FactorKind.emit_newObject_yields {className : Ident} :
    (FactorKind.emit env id (.newObject className)).Yields before code after ↔
      code = [.newobj className.name] ∧ after = before := by
  rw [FactorKind.emit, yields_pure]

theorem FactorKind.emit_newArray_one_yields {elem : TypeName} {size : Expr} :
    (FactorKind.emit env id (.newArray elem [size])).Yields before code after ↔
      ∃ base count type, env.writtenType elem = .ok base ∧ (size.emit env).Yields before count after ∧
        env.type base = .ok type ∧ code = count ++ ([.newlist type true] : Piece) := by
  simp [FactorKind.emit]

theorem FactorKind.emit_newArray_yields {elem : TypeName} {sizes : List Expr} (several : sizes.length ≠ 1) :
    (FactorKind.emit env id (.newArray elem sizes)).Yields before code after ↔
      ∃ base values counts mid grid, env.writtenType elem = .ok base ∧
        (emitSizes env sizes).Yields before (values, counts) mid ∧
        (emitGrid env base counts).Yields mid grid after ∧ code = values ++ grid := by
  rw [FactorKind.emit]
  · simp
  · rintro size rfl
    exact several rfl

theorem FactorKind.emit_paren_yields {inner : Expr} :
    (FactorKind.emit env id (.paren inner)).Yields before code after ↔
      (inner.emit env).Yields before code after := by
  simp

theorem FactorKind.emit_list_yields {elems : List Expr} :
    (FactorKind.emit env id (.list elems)).Yields before code after ↔
      ∃ tag elem rest, env.nodeType id = .ok tag ∧ env.type tag.element = .ok elem ∧
        (emitElems env elem elems).Yields before rest after ∧
        code = ([.newlist elem false] : Piece) ++ rest := by
  simp [FactorKind.emit]

theorem emitExprs_nil_yields :
    (emitExprs env []).Yields before code after ↔ code = [] ∧ after = before := by
  rw [emitExprs, yields_pure]

variable {rest : List Expr}

theorem emitExprs_cons_yields {e : Expr} :
    (emitExprs env (e :: rest)).Yields before code after ↔
      ∃ value mid others, (e.emit env).Yields before value mid ∧
        (emitExprs env rest).Yields mid others after ∧ code = value ++ others := by
  simp [emitExprs]

theorem emitSizes_nil_yields {counts : List Nat} :
    (emitSizes env []).Yields before (code, counts) after ↔
      code = [] ∧ counts = [] ∧ after = before := by
  rw [emitSizes, yields_pure, Prod.mk.injEq, and_assoc]

theorem emitSizes_cons_yields {size : Expr} {counts : List Nat} :
    (emitSizes env (size :: rest)).Yields before (code, counts) after ↔
      ∃ value mid int values slots, (size.emit env).Yields before value mid ∧
        env.type .int = .ok int ∧ mid.locals.length < slotLimit ∧
        (emitSizes env rest).Yields (mid.withTemp int) (values, slots) after ∧
        code = value ++ ([.stloc mid.locals.length] : Piece) ++ values ∧
        counts = mid.locals.length :: slots := by
  simp [emitSizes, and_assoc]

theorem emitElems_nil_yields {elem : Ty} :
    (emitElems env elem []).Yields before code after ↔ code = [] ∧ after = before := by
  rw [emitElems, yields_pure]

theorem emitElems_cons_yields {elem : Ty} {e : Expr} :
    (emitElems env elem (e :: rest)).Yields before code after ↔
      ∃ value mid others, (e.emit env).Yields before value mid ∧
        (emitElems env elem rest).Yields mid others after ∧
        code = ([.dup] : Piece) ++ value ++ ([.callvirt .add elem] : Piece) ++ others := by
  simp [emitElems]

theorem Designator.emitLoad_yields {base : Ident} {selectors : List Selector} :
    (Designator.emitLoad env ⟨id, base, selectors, span⟩).Yields before code after ↔
      ∃ value tag selected last, (emitBase env base.name).Yields before (value, tag) before ∧
        (emitSelectors env tag selectors).Yields before (selected, last) after ∧
        code = value ++ selected := by
  simp only [Designator.emitLoad, yields_bind, yields_pure, Prod.exists, emitBase_yields]
  grind

theorem emitSelectors_nil_yields {last : Tag} :
    (emitSelectors env tag []).Yields before (code, last) after ↔
      code = [] ∧ last = tag ∧ after = before := by
  rw [emitSelectors, yields_pure, Prod.mk.injEq, and_assoc]

theorem emitSelectors_field_yields {last : Tag} {name : Ident} {rest : List Selector} :
    (emitSelectors env tag (.field name :: rest)).Yields before (code, last) after ↔
      ∃ className member values, env.classNamed tag = .ok className ∧
        env.memberType tag name.name = .ok member ∧
        (emitSelectors env member rest).Yields before (values, last) after ∧
        code = ([.ldfld className name.name] : Piece) ++ values := by
  simp only [emitSelectors, yields_bind, yields_pure, Prod.exists, emitField_yields]
  grind

theorem emitSelectors_index_yields {last : Tag} {value : Expr} {rest : List Selector} :
    (emitSelectors env tag (.index value :: rest)).Yields before (code, last) after ↔
      ∃ index mid elem values, (value.emit env).Yields before index mid ∧
        env.type tag.element = .ok elem ∧
        (emitSelectors env tag.element rest).Yields mid (values, last) after ∧
        code = index ++ ([.callvirt .getItem elem] : Piece) ++ values := by
  simp [emitSelectors]

theorem Target.emit_yields {target : Target} :
    (target.emit env args).Yields before code after ↔ match target with
      | .intrinsic op => (op.emit env (args.head?.map (·.id))).Yields before code after
      | .method name _ => code = [.call name args.length] ∧ after = before := by
  cases target <;> simp only [Target.emit, yields_pure]

theorem Designator.emitCall_yields {callee : Designator} {result : Tag} :
    (callee.emitCall env args).Yields before (code, result) after ↔
      ∃ target values mid call, env.target callee.base.name args.length = .ok target ∧
        (emitExprs env args).Yields before values mid ∧
        (target.emit env args).Yields mid call after ∧ code = values ++ call ∧
        result = target.result := by
  simp [Designator.emitCall]

end StackCode
