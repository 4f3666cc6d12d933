import StackCode.Proofs.Format.Codec

namespace StackCode

open Schema

section Atoms

theorem optionOf?_optionDatum {α : Type} {ofDatum? : Datum → Option α} {toDatum : α → Datum}
    (again : ∀ a, ofDatum? (toDatum a) = some a) (present : ∀ a, toDatum a ≠ .absent)
    (content : Option α) : optionOf? ofDatum? (optionDatum toDatum content) = some content := by
  cases content with
  | none => rfl
  | some a =>
    rw [optionDatum, optionOf?, again]
    · rfl
    · exact present a

theorem mapM_ofDatum? {α : Type} {ofDatum? : Datum → Option α} {toDatum : α → Datum}
    (again : ∀ a, ofDatum? (toDatum a) = some a) (list : List α) :
    (list.map toDatum).mapM ofDatum? = some list := by
  induction list with
  | nil => rfl
  | cons a list ih =>
    rw [List.map_cons, List.mapM_cons, again, ih]
    rfl

@[simp]
theorem word32?_toNat (n : UInt32) : word32? (.int n.toNat) = some n := by
  have bound := n.toNat_lt
  rw [word32?, if_pos (by omega)]
  simp

@[simp]
theorem int64?_toInt (n : Int64) : int64? (.int n.toInt) = some n := by
  have low := n.le_toInt
  have high := n.toInt_lt
  rw [int64?, if_pos (by omega)]
  simp

@[simp]
theorem Span.ofDatum?_toDatum (span : Span) : Span.ofDatum? span.toDatum = some span := by
  simp [Span.toDatum, Span.ofDatum?]

@[simp]
theorem Ident.ofDatum?_toDatum (ident : Ident) : Ident.ofDatum? ident.toDatum = some ident := by
  simp [Ident.toDatum, Ident.ofDatum?]

@[simp]
theorem TypeName.ofDatum?_toDatum (type : TypeName) :
    TypeName.ofDatum? type.toDatum = some type := by
  simp [TypeName.toDatum, TypeName.ofDatum?]

@[simp]
theorem Literal.ofDatum?_toDatum (value : Literal) : Literal.ofDatum? value.toDatum = some value := by
  cases value with
  | int n => simp [Literal.toDatum, Literal.ofDatum?]
  | _ => rfl

@[simp]
theorem AddOp.ofDatum?_toDatum (op : AddOp) : AddOp.ofDatum? op.toDatum = some op := by
  cases op <;> rfl

@[simp]
theorem MulOp.ofDatum?_toDatum (op : MulOp) : MulOp.ofDatum? op.toDatum = some op := by
  cases op <;> rfl

@[simp]
theorem RelOp.ofDatum?_toDatum (op : RelOp) : RelOp.ofDatum? op.toDatum = some op := by
  cases op <;> rfl

end Atoms

mutual

theorem Expr.ofDatum?_toDatum : ∀ e : Expr, Expr.ofDatum? e.toDatum = some e
  | ⟨id, neg, cast, head, tail, span⟩ => by
    have written := optionOf?_optionDatum TypeName.ofDatum?_toDatum (fun _ => nofun) cast
    simp [Expr.toDatum, Expr.ofDatum?, NodeId.toDatum, written, head.ofDatum?_toDatum, termsOf?_termData tail]

theorem termsOf?_termData : ∀ tail : List (AddOp × Term), termsOf? (termData tail) = some tail
  | [] => rfl
  | (op, term) :: rest => by
    simp [termData, termsOf?, term.ofDatum?_toDatum, termsOf?_termData rest]

theorem Term.ofDatum?_toDatum : ∀ term : Term, Term.ofDatum? term.toDatum = some term
  | ⟨id, head, tail, span⟩ => by
    simp [Term.toDatum, Term.ofDatum?, NodeId.toDatum, head.ofDatum?_toDatum, factorsOf?_factorData tail]

theorem factorsOf?_factorData :
    ∀ tail : List (MulOp × Factor), factorsOf? (factorData tail) = some tail
  | [] => rfl
  | (op, factor) :: rest => by
    simp [factorData, factorsOf?, factor.ofDatum?_toDatum, factorsOf?_factorData rest]

theorem Factor.ofDatum?_toDatum : ∀ factor : Factor, Factor.ofDatum? factor.toDatum = some factor
  | ⟨id, kind, span⟩ => by
    simp [Factor.toDatum, Factor.ofDatum?, NodeId.toDatum, kind.ofDatum?_toDatum]

theorem FactorKind.ofDatum?_toDatum :
    ∀ kind : FactorKind, FactorKind.ofDatum? kind.toDatum = some kind
  | .literal value => by simp [FactorKind.toDatum, FactorKind.ofDatum?]
  | .designator target => by
    simp [FactorKind.toDatum, FactorKind.ofDatum?, target.ofDatum?_toDatum]
  | .call callee args => by
    simp [FactorKind.toDatum, FactorKind.ofDatum?, callee.ofDatum?_toDatum, exprsOf?_exprData args]
  | .newObject className => by simp [FactorKind.toDatum, FactorKind.ofDatum?]
  | .newArray elem sizes => by
    simp [FactorKind.toDatum, FactorKind.ofDatum?, exprsOf?_exprData sizes]
  | .paren inner => by simp [FactorKind.toDatum, FactorKind.ofDatum?, inner.ofDatum?_toDatum]
  | .list elems => by simp [FactorKind.toDatum, FactorKind.ofDatum?, exprsOf?_exprData elems]

theorem exprsOf?_exprData : ∀ exprs : List Expr, exprsOf? (exprData exprs) = some exprs
  | [] => rfl
  | e :: rest => by simp [exprData, exprsOf?, e.ofDatum?_toDatum, exprsOf?_exprData rest]

theorem Designator.ofDatum?_toDatum :
    ∀ target : Designator, Designator.ofDatum? target.toDatum = some target
  | ⟨id, base, selectors, span⟩ => by
    simp [Designator.toDatum, Designator.ofDatum?, NodeId.toDatum, selectorsOf?_selectorData selectors]

theorem selectorsOf?_selectorData :
    ∀ selectors : List Selector, selectorsOf? (selectorData selectors) = some selectors
  | [] => rfl
  | .field name :: rest => by
    simp [selectorData, selectorsOf?, selectorsOf?_selectorData rest]
  | .index value :: rest => by
    simp [selectorData, selectorsOf?, value.ofDatum?_toDatum, selectorsOf?_selectorData rest]

end

attribute [simp] Expr.ofDatum?_toDatum exprsOf?_exprData Designator.ofDatum?_toDatum

theorem FactKind.ofDatum?_toDatum (kind : FactKind) :
    FactKind.ofDatum? kind.toDatum = some kind := by
  cases kind <;> simp [FactKind.toDatum, FactKind.ofDatum?]

theorem CondFact.ofDatum?_toDatum (fact : CondFact) :
    CondFact.ofDatum? fact.toDatum = some fact := by
  simp [CondFact.toDatum, CondFact.ofDatum?, NodeId.toDatum, fact.kind.ofDatum?_toDatum]

theorem CondTerm.ofDatum?_toDatum (term : CondTerm) :
    CondTerm.ofDatum? term.toDatum = some term := by
  simp [CondTerm.toDatum, CondTerm.ofDatum?, NodeId.toDatum, mapM_ofDatum? CondFact.ofDatum?_toDatum]

@[simp]
theorem Condition.ofDatum?_toDatum (cond : Condition) :
    Condition.ofDatum? cond.toDatum = some cond := by
  simp [Condition.toDatum, Condition.ofDatum?, NodeId.toDatum,
    mapM_ofDatum? CondTerm.ofDatum?_toDatum]

@[simp]
theorem VarDecl.ofDatum?_toDatum (decl : VarDecl) : VarDecl.ofDatum? decl.toDatum = some decl := by
  simp [VarDecl.toDatum, VarDecl.ofDatum?, mapM_ofDatum? Ident.ofDatum?_toDatum]

theorem Expr.toDatum_ne_absent (e : Expr) : e.toDatum ≠ .absent := by
  obtain ⟨id, neg, cast, head, tail, span⟩ := e
  rw [Expr.toDatum]
  exact Datum.noConfusion

@[simp]
theorem isAbsent_absent : isAbsent .absent = true := rfl

@[simp]
theorem Stmt.isAbsent_toDatum (stmt : Stmt) : isAbsent stmt.toDatum = false := by
  cases stmt <;> rfl

mutual

theorem Stmt.ofDatum?_toDatum : ∀ stmt : Stmt, Stmt.ofDatum? stmt.toDatum = some stmt
  | .assign target value span => by simp [Stmt.toDatum, Stmt.ofDatum?]
  | .call callee args span => by simp [Stmt.toDatum, Stmt.ofDatum?]
  | .increment target span => by simp [Stmt.toDatum, Stmt.ofDatum?]
  | .decrement target span => by simp [Stmt.toDatum, Stmt.ofDatum?]
  | .branch cond onTrue onFalse span => by
    cases onFalse with
    | none => simp [Stmt.toDatum, Stmt.ofDatum?, stmtDatum, onTrue.ofDatum?_toDatum]
    | some stmt =>
      simp [Stmt.toDatum, Stmt.ofDatum?, stmtDatum, onTrue.ofDatum?_toDatum,
        stmt.ofDatum?_toDatum]
  | .whileLoop cond body span => by simp [Stmt.toDatum, Stmt.ofDatum?, body.ofDatum?_toDatum]
  | .forLoop init cond update body span => by
    have tested := optionOf?_optionDatum Condition.ofDatum?_toDatum (fun _ => nofun) cond
    cases init with
    | none =>
      cases update with
      | none => simp [Stmt.toDatum, Stmt.ofDatum?, stmtDatum, tested, body.ofDatum?_toDatum]
      | some update =>
        simp [Stmt.toDatum, Stmt.ofDatum?, stmtDatum, tested, body.ofDatum?_toDatum,
          update.ofDatum?_toDatum]
    | some init =>
      cases update with
      | none =>
        simp [Stmt.toDatum, Stmt.ofDatum?, stmtDatum, tested, body.ofDatum?_toDatum,
          init.ofDatum?_toDatum]
      | some update =>
        simp [Stmt.toDatum, Stmt.ofDatum?, stmtDatum, tested, body.ofDatum?_toDatum,
          init.ofDatum?_toDatum, update.ofDatum?_toDatum]
  | .breakStmt span => by simp [Stmt.toDatum, Stmt.ofDatum?]
  | .returnStmt value span => by
    have returned := optionOf?_optionDatum Expr.ofDatum?_toDatum Expr.toDatum_ne_absent value
    simp [Stmt.toDatum, Stmt.ofDatum?, returned]
  | .read target span => by simp [Stmt.toDatum, Stmt.ofDatum?]
  | .write value width span => by
    have padded := optionOf?_optionDatum int64?_toInt (fun _ => nofun) width
    simp [Stmt.toDatum, Stmt.ofDatum?, padded]
  | .switch selector cases default span => by
    simp [Stmt.toDatum, Stmt.ofDatum?, casesOf?_caseData cases, defaultOf?_defaultDatum default]
  | .block ⟨items, span⟩ => by
    simp [Stmt.toDatum, Block.toDatum, Stmt.ofDatum?, itemsOf?_itemData items]
  | .empty span => by simp [Stmt.toDatum, Stmt.ofDatum?]

theorem stmtsOf?_stmtData : ∀ stmts : List Stmt, stmtsOf? (stmtData stmts) = some stmts
  | [] => rfl
  | stmt :: rest => by
    simp [stmtData, stmtsOf?, stmt.ofDatum?_toDatum, stmtsOf?_stmtData rest]

theorem casesOf?_caseData : ∀ cases : List SwitchCase, casesOf? (caseData cases) = some cases
  | [] => rfl
  | ⟨label, body, span⟩ :: rest => by
    simp [caseData, casesOf?, stmtsOf?_stmtData body, casesOf?_caseData rest]

theorem defaultOf?_defaultDatum :
    ∀ default : Option DefaultCase, defaultOf? (defaultDatum default) = some default
  | none => rfl
  | some ⟨body, span⟩ => by simp [defaultDatum, defaultOf?, stmtsOf?_stmtData body]

theorem itemsOf?_itemData : ∀ items : List BlockItem, itemsOf? (itemData items) = some items
  | [] => rfl
  | .var decl :: rest => by simp [itemData, itemsOf?, itemsOf?_itemData rest]
  | .stmt stmt :: rest => by
    simp [itemData, itemsOf?, stmt.ofDatum?_toDatum, itemsOf?_itemData rest]

end

theorem ConstDecl.ofDatum?_toDatum (decl : ConstDecl) :
    ConstDecl.ofDatum? decl.toDatum = some decl := by
  simp [ConstDecl.toDatum, ConstDecl.ofDatum?]

theorem ClassDecl.ofDatum?_toDatum (decl : ClassDecl) :
    ClassDecl.ofDatum? decl.toDatum = some decl := by
  simp [ClassDecl.toDatum, ClassDecl.ofDatum?, mapM_ofDatum? VarDecl.ofDatum?_toDatum]

theorem Param.ofDatum?_toDatum (param : Param) : Param.ofDatum? param.toDatum = some param := by
  simp [Param.toDatum, Param.ofDatum?]

theorem Block.ofDatum?_toDatum (block : Block) : Block.ofDatum? block.toDatum = some block := by
  obtain ⟨items, span⟩ := block
  simp [Block.toDatum, Block.ofDatum?, itemsOf?_itemData]

theorem MethodDecl.ofDatum?_toDatum (decl : MethodDecl) :
    MethodDecl.ofDatum? decl.toDatum = some decl := by
  have result := optionOf?_optionDatum TypeName.ofDatum?_toDatum (fun _ => nofun) decl.result
  simp [MethodDecl.toDatum, MethodDecl.ofDatum?, result, decl.body.ofDatum?_toDatum,
    mapM_ofDatum? Param.ofDatum?_toDatum]

theorem Item.ofDatum?_toDatum (item : Item) : Item.ofDatum? item.toDatum = some item := by
  cases item with
  | vars decl => simp [Item.toDatum, Item.ofDatum?]
  | const decl | classDecl decl | method decl =>
    simp [Item.toDatum, Item.ofDatum?, decl.ofDatum?_toDatum]

theorem Program.ofDatum?_toDatum (program : Program) :
    Program.ofDatum? program.toDatum = some program := by
  simp [Program.toDatum, Program.ofDatum?, mapM_ofDatum? Item.ofDatum?_toDatum]

section Encoding

open Program (Kind schema)
open Codec

variable {codec : Codec schema}

def Program.Kind.Encodes (codec : Codec schema) (kind : Kind) (datum : Datum) : Prop :=
  codec.Encodes (Shape.view schema (.named kind)) datum

theorem encodes_word (n : UInt32) : codec.Encodes (.leaf .word32) (.int n.toNat) := by
  have bound := n.toNat_lt
  exact encodes_leaf ⟨by omega, by omega⟩

theorem encodes_int64 (n : Int64) : codec.Encodes (.leaf .int64) (.int n.toInt) := by
  have low := n.le_toInt
  have high := n.toInt_lt
  exact encodes_leaf ⟨by omega, by omega⟩

theorem encodes_text (text : String) : codec.Encodes (.leaf .text) (.text text) :=
  encodes_leaf trivial

theorem encodes_bool (b : Bool) : codec.Encodes (.leaf .bool) (.bool b) := encodes_leaf trivial

theorem encodes_unit : codec.Encodes (.leaf .unit) .unit := encodes_leaf trivial

theorem Span.encodes (span : Span) : Kind.Encodes codec .span span.toDatum :=
  encodes_record (.value (encodes_word _) (.value (encodes_word _) .nil))

theorem Ident.encodes (ident : Ident) : Kind.Encodes codec .ident ident.toDatum :=
  encodes_record (.value (encodes_text _) (.value ident.span.encodes .nil))

theorem TypeName.encodes (type : TypeName) : Kind.Encodes codec .typeName type.toDatum :=
  encodes_record (.value (encodes_text _) (.value type.span.encodes .nil))

theorem Literal.encodes (value : Literal) : Kind.Encodes codec .literal value.toDatum := by
  cases value with
  | int n => exact encodes_variant rfl (encodes_int64 n)
  | null => exact encodes_variant rfl encodes_unit
  | _ => exact encodes_variant rfl (encodes_leaf trivial)

theorem AddOp.encodes (op : AddOp) : Kind.Encodes codec .addOp op.toDatum := by
  cases op <;> exact encodes_variant rfl encodes_unit

theorem MulOp.encodes (op : MulOp) : Kind.Encodes codec .mulOp op.toDatum := by
  cases op <;> exact encodes_variant rfl encodes_unit

theorem RelOp.encodes (op : RelOp) : Kind.Encodes codec .relOp op.toDatum := by
  cases op <;> exact encodes_variant rfl encodes_unit

mutual

theorem Expr.encodes : ∀ e : Expr, Kind.Encodes codec .expr e.toDatum
  | ⟨id, neg, cast, head, tail, span⟩ =>
    encodes_record <| .value (encodes_word id) <| .value (encodes_bool neg) <|
      .option rfl nofun (fun type _ => type.encodes) <| .value (Term.encodes head) <|
      .value (encodes_list (termData_encodes tail)) <| .value span.encodes .nil

theorem termData_encodes : ∀ tail : List (AddOp × Term), ∀ datum ∈ termData tail,
    codec.Encodes (.pair (.named .addOp) (.named .term)) datum
  | [] => List.forall_mem_nil _
  | (op, term) :: rest =>
    List.forall_mem_cons.mpr ⟨encodes_pair op.encodes (Term.encodes term), termData_encodes rest⟩

theorem Term.encodes : ∀ term : Term, Kind.Encodes codec .term term.toDatum
  | ⟨id, head, tail, span⟩ =>
    encodes_record <| .value (encodes_word id) <| .value (Factor.encodes head) <|
      .value (encodes_list (factorData_encodes tail)) <| .value span.encodes .nil

theorem factorData_encodes : ∀ tail : List (MulOp × Factor), ∀ datum ∈ factorData tail,
    codec.Encodes (.pair (.named .mulOp) (.named .factor)) datum
  | [] => List.forall_mem_nil _
  | (op, factor) :: rest =>
    List.forall_mem_cons.mpr
      ⟨encodes_pair op.encodes (Factor.encodes factor), factorData_encodes rest⟩

theorem Factor.encodes : ∀ factor : Factor, Kind.Encodes codec .factor factor.toDatum
  | ⟨id, kind, span⟩ =>
    encodes_record <| .value (encodes_word id) <| .value (FactorKind.encodes kind) <|
      .value span.encodes .nil

theorem FactorKind.encodes : ∀ kind : FactorKind, Kind.Encodes codec .factorKind kind.toDatum
  | .literal value => encodes_variant rfl value.encodes
  | .designator target => encodes_variant rfl (Designator.encodes target)
  | .call callee args =>
    encodes_variant rfl <| encodes_record <| .value (Designator.encodes callee) <|
      .value (encodes_list (exprData_encodes args)) .nil
  | .newObject className => encodes_variant rfl <| encodes_record <| .value className.encodes .nil
  | .newArray elem sizes =>
    encodes_variant rfl <| encodes_record <| .value elem.encodes <|
      .value (encodes_list (exprData_encodes sizes)) .nil
  | .paren inner => encodes_variant rfl (Expr.encodes inner)
  | .list elems => encodes_variant rfl (encodes_list (exprData_encodes elems))

theorem exprData_encodes : ∀ exprs : List Expr, ∀ datum ∈ exprData exprs, Kind.Encodes codec .expr datum
  | [] => List.forall_mem_nil _
  | e :: rest => List.forall_mem_cons.mpr ⟨Expr.encodes e, exprData_encodes rest⟩

theorem Designator.encodes : ∀ target : Designator, Kind.Encodes codec .designator target.toDatum
  | ⟨id, base, selectors, span⟩ =>
    encodes_record <| .value (encodes_word id) <| .value base.encodes <|
      .value (encodes_list (selectorData_encodes selectors)) <| .value span.encodes .nil

theorem selectorData_encodes :
    ∀ selectors : List Selector, ∀ datum ∈ selectorData selectors, Kind.Encodes codec .selector datum
  | [] => List.forall_mem_nil _
  | .field name :: rest =>
    List.forall_mem_cons.mpr ⟨encodes_variant rfl name.encodes, selectorData_encodes rest⟩
  | .index value :: rest =>
    List.forall_mem_cons.mpr
      ⟨encodes_variant rfl (Expr.encodes value), selectorData_encodes rest⟩

end

theorem FactKind.encodes (kind : FactKind) : Kind.Encodes codec .factKind kind.toDatum := by
  cases kind with
  | relation left op right =>
    exact encodes_variant rfl <| encodes_record <| .value left.encodes <| .value op.encodes <|
      .value right.encodes .nil
  | expr value => exact encodes_variant rfl value.encodes

theorem CondFact.encodes (fact : CondFact) : Kind.Encodes codec .condFact fact.toDatum :=
  encodes_record <| .value (encodes_word fact.id) <| .value fact.kind.encodes <|
    .value fact.span.encodes .nil

theorem CondTerm.encodes (term : CondTerm) : Kind.Encodes codec .condTerm term.toDatum :=
  encodes_record <| .value (encodes_word term.id) <|
    .value (encodes_list (List.forall_mem_map.mpr fun fact _ => fact.encodes)) <|
    .value term.span.encodes .nil

theorem Condition.encodes (cond : Condition) : Kind.Encodes codec .condition cond.toDatum :=
  encodes_record <| .value (encodes_word cond.id) <|
    .value (encodes_list (List.forall_mem_map.mpr fun term _ => term.encodes)) <|
    .value cond.span.encodes .nil

theorem VarDecl.encodes (decl : VarDecl) : Kind.Encodes codec .varDecl decl.toDatum :=
  encodes_record <| .value decl.type.encodes <|
    .value (encodes_list (List.forall_mem_map.mpr fun name _ => name.encodes)) <|
    .value decl.span.encodes .nil

theorem stmtDatum_eq (content : Option Stmt) : stmtDatum content = optionDatum Stmt.toDatum content := by
  cases content <;> rfl

mutual

theorem Stmt.encodes : ∀ stmt : Stmt, Kind.Encodes codec .stmt stmt.toDatum
  | .assign target value span => by
    rw [Stmt.toDatum]
    exact encodes_variant rfl <| encodes_record <| .value target.encodes <| .value value.encodes <|
      .value span.encodes .nil
  | .call callee args span => by
    rw [Stmt.toDatum]
    exact encodes_variant rfl <| encodes_record <| .value callee.encodes <|
      .value (encodes_list (exprData_encodes args)) <| .value span.encodes .nil
  | .increment target span | .decrement target span | .read target span => by
    rw [Stmt.toDatum]
    exact encodes_variant rfl <| encodes_record <| .value target.encodes <| .value span.encodes .nil
  | .branch cond onTrue onFalse span => by
    rw [Stmt.toDatum, stmtDatum_eq]
    exact encodes_variant rfl <| encodes_record <| .value cond.encodes <|
      .value (Stmt.encodes onTrue) <| .option rfl nofun (option_encodes onFalse) <|
      .value span.encodes .nil
  | .whileLoop cond body span => by
    rw [Stmt.toDatum]
    exact encodes_variant rfl <| encodes_record <| .value cond.encodes <|
      .value (Stmt.encodes body) <| .value span.encodes .nil
  | .forLoop init cond update body span => by
    rw [Stmt.toDatum, stmtDatum_eq, stmtDatum_eq]
    exact encodes_variant rfl <| encodes_record <| .option rfl nofun (option_encodes init) <|
      .option rfl nofun (fun cond _ => cond.encodes) <| .option rfl nofun (option_encodes update) <|
      .value (Stmt.encodes body) <| .value span.encodes .nil
  | .breakStmt span | .empty span => by
    rw [Stmt.toDatum]
    exact encodes_variant rfl <| encodes_record <| .value span.encodes .nil
  | .returnStmt value span => by
    rw [Stmt.toDatum]
    exact encodes_variant rfl <| encodes_record <|
      .option rfl nofun (fun value _ => value.encodes) <| .value span.encodes .nil
  | .write value width span => by
    rw [Stmt.toDatum]
    exact encodes_variant rfl <| encodes_record <| .value value.encodes <|
      .option rfl nofun (fun width _ => encodes_int64 width) <| .value span.encodes .nil
  | .switch selector cases none span => by
    rw [Stmt.toDatum, defaultDatum]
    exact encodes_variant rfl <| encodes_record <| .value selector.encodes <|
      .value (encodes_list (caseData_encodes cases)) <| .absent rfl <| .value span.encodes .nil
  | .switch selector cases (some ⟨body, last⟩) span => by
    have default : Kind.Encodes codec .defaultCase (.record [.list (stmtData body), last.toDatum]) :=
      encodes_record <| .value (encodes_list (stmtData_encodes body)) <| .value last.encodes .nil
    rw [Stmt.toDatum, defaultDatum]
    exact encodes_variant rfl <| encodes_record <| .value selector.encodes <|
      .value (encodes_list (caseData_encodes cases)) <|
      .value default (.value span.encodes .nil) (fun _ => nofun)
  | .block ⟨items, span⟩ => by
    rw [Stmt.toDatum, Block.toDatum]
    exact encodes_variant rfl <| encodes_record <| .value (encodes_list (itemData_encodes items)) <|
      .value span.encodes .nil

theorem option_encodes :
    ∀ content : Option Stmt, ∀ stmt, content = some stmt → Kind.Encodes codec .stmt stmt.toDatum
  | some stmt, _, rfl => Stmt.encodes stmt

theorem stmtData_encodes : ∀ stmts : List Stmt, ∀ datum ∈ stmtData stmts, Kind.Encodes codec .stmt datum
  | [] => List.forall_mem_nil _
  | stmt :: rest => by
    rw [stmtData]
    exact List.forall_mem_cons.mpr ⟨Stmt.encodes stmt, stmtData_encodes rest⟩

theorem caseData_encodes :
    ∀ cases : List SwitchCase, ∀ datum ∈ caseData cases, Kind.Encodes codec .switchCase datum
  | [] => List.forall_mem_nil _
  | ⟨label, body, span⟩ :: rest => by
    rw [caseData]
    exact List.forall_mem_cons.mpr ⟨encodes_record <| .value label.encodes <|
      .value (encodes_list (stmtData_encodes body)) <| .value span.encodes .nil, caseData_encodes rest⟩

theorem itemData_encodes :
    ∀ items : List BlockItem, ∀ datum ∈ itemData items, Kind.Encodes codec .blockItem datum
  | [] => List.forall_mem_nil _
  | .var decl :: rest => by
    rw [itemData]
    exact List.forall_mem_cons.mpr ⟨encodes_variant rfl decl.encodes, itemData_encodes rest⟩
  | .stmt stmt :: rest => by
    rw [itemData]
    exact List.forall_mem_cons.mpr ⟨encodes_variant rfl (Stmt.encodes stmt), itemData_encodes rest⟩

end

theorem Block.encodes (block : Block) : Kind.Encodes codec .block block.toDatum := by
  obtain ⟨items, span⟩ := block
  rw [Block.toDatum]
  exact encodes_record <| .value (encodes_list (itemData_encodes items)) <| .value span.encodes .nil

theorem ConstDecl.encodes (decl : ConstDecl) : Kind.Encodes codec .constDecl decl.toDatum :=
  encodes_record <| .value decl.type.encodes <| .value decl.name.encodes <|
    .value decl.value.encodes <| .value decl.span.encodes .nil

theorem ClassDecl.encodes (decl : ClassDecl) : Kind.Encodes codec .classDecl decl.toDatum :=
  encodes_record <| .value decl.name.encodes <|
    .value (encodes_list (List.forall_mem_map.mpr fun field _ => field.encodes)) <|
    .value decl.span.encodes .nil

theorem Param.encodes (param : Param) : Kind.Encodes codec .param param.toDatum :=
  encodes_record <| .value param.type.encodes <| .value param.name.encodes .nil

theorem MethodDecl.encodes (decl : MethodDecl) : Kind.Encodes codec .methodDecl decl.toDatum :=
  encodes_record <| .value decl.name.encodes <| .option rfl nofun (fun type _ => type.encodes) <|
    .value (encodes_list (List.forall_mem_map.mpr fun param _ => param.encodes)) <|
    .value decl.body.encodes <| .value decl.span.encodes .nil

theorem Item.encodes (item : Item) : Kind.Encodes codec .item item.toDatum := by
  cases item with
  | const decl | vars decl | classDecl decl | method decl => exact encodes_variant rfl decl.encodes

theorem Program.encodes (program : Program) : Kind.Encodes codec .program program.toDatum :=
  encodes_record <| .value program.name.encodes <|
    .value (encodes_list (List.forall_mem_map.mpr fun item _ => item.encodes)) <|
    .value program.span.encodes .nil

end Encoding

end StackCode
