import StackCode.Check.Program
import StackCode.Proofs.Tree.Nodes

namespace StackCode

def idsAfter (last : NodeId) : Nat → List NodeId
  | 0 => []
  | count + 1 => (last + 1) :: idsAfter (last + 1) count

theorem idsAfter_add (last : NodeId) (m n : Nat) :
    idsAfter last (m + n) = idsAfter last m ++ idsAfter (last + UInt32.ofNat m) n := by
  induction m generalizing last with
  | zero => simp [idsAfter]
  | succ m ih =>
    rw [Nat.succ_add, idsAfter, ih, idsAfter, List.cons_append]
    congr 3
    rw [UInt32.ofNat_add, UInt32.add_assoc, UInt32.add_comm (UInt32.ofNat m)]
    rfl

theorem mem_idsAfter {last id : NodeId} {count : Nat} (room : last.toNat + count < 2 ^ 32) :
    id ∈ idsAfter last count ↔ last.toNat < id.toNat ∧ id.toNat ≤ last.toNat + count := by
  induction count generalizing last with
  | zero =>
    simp only [idsAfter, List.not_mem_nil, Nat.add_zero, false_iff]
    omega
  | succ count ih =>
    have next : (last + 1).toNat = last.toNat + 1 := by
      rw [UInt32.toNat_add, Nat.mod_eq_of_lt]
      · rfl
      · change last.toNat + 1 < 2 ^ 32
        omega
    rw [idsAfter, List.mem_cons, ih (by omega), next, ← UInt32.toNat_inj, next]
    omega

theorem idsAfter_nodup {last : NodeId} {count : Nat} (room : last.toNat + count < 2 ^ 32) :
    (idsAfter last count).Nodup := by
  induction count generalizing last with
  | zero => exact List.nodup_nil
  | succ count ih =>
    have next : (last + 1).toNat = last.toNat + 1 := by
      rw [UInt32.toNat_add, Nat.mod_eq_of_lt]
      · rfl
      · change last.toNat + 1 < 2 ^ 32
        omega
    rw [idsAfter, List.nodup_cons, mem_idsAfter (by omega)]
    exact ⟨by omega, ih (by omega)⟩

/-- Numbering has gone from `last` to `next` over the nodes `old`, which it has made into `made`. -/
structure Numbered {β : Type} (id : β → NodeId) (last : NodeId) (made : List β) (next : NodeId)
    (old : List β) : Prop where
  ids : made.map id = idsAfter last old.length
  next : next = last + UInt32.ofNat old.length

namespace Numbered

variable {β : Type} {id : β → NodeId} {a b c : NodeId} {xs ys us vs : List β}

theorem nil (last : NodeId) : Numbered id last [] last [] := ⟨rfl, by simp⟩

theorem append (first : Numbered id a xs b us) (second : Numbered id b ys c vs) :
    Numbered id a (xs ++ ys) c (us ++ vs) where
  ids := by rw [List.map_append, first.ids, second.ids, first.next, List.length_append, idsAfter_add]
  next := by rw [second.next, first.next, List.length_append, UInt32.ofNat_add, UInt32.add_assoc]

theorem cons {x u : β} (rest : Numbered id (a + 1) xs b us) (first : id x = a + 1) :
    Numbered id a (x :: xs) b (u :: us) where
  ids := by rw [List.map_cons, first, rest.ids, List.length_cons, idsAfter]
  next := by
    rw [rest.next, List.length_cons, UInt32.ofNat_add, UInt32.add_assoc, UInt32.add_comm (UInt32.ofNat _)]
    rfl

end Numbered

theorem Numbered.inSight {a b : NodeId} {xs us : List Node} (numbered : Numbered Node.id a xs b us)
    (names : List String) :
    Numbered Occurrence.id a (StackCode.inSight names xs) b (StackCode.inSight names us) where
  ids := by
    rw [length_inSight, ← numbered.ids]
    exact List.map_map
  next := by rw [length_inSight, numbered.next]

/-- Numbering `a` numbers its nodes. -/
def Numbers {α β : Type} (id : β → NodeId) (number : α → Numbering α) (nodes : α → List β)
    (a : α) : Prop :=
  ∀ last, Numbered id last (nodes ((number a).run last).1) ((number a).run last).2 (nodes a)

section Lists

variable {α β : Type} {id : β → NodeId} {number : α → Numbering α} {nodes : α → List β}
  (each : ∀ a, Numbers id number nodes a)

include each

theorem numbers_mapM (xs : List α) :
    Numbers id (·.mapM number) (·.flatMap nodes) xs := by
  induction xs with
  | nil => exact Numbered.nil
  | cons x xs ih =>
    intro last
    beta_reduce
    rw [List.mapM_cons]
    exact (each x last).append (ih _)

theorem numbers_mapM_option (x : Option α) :
    Numbers id (·.mapM number) (fun x => (x.map nodes).getD []) x := by
  cases x with
  | none => exact Numbered.nil
  | some a => exact each a

end Lists

mutual

theorem Expr.number_numbers : ∀ e : Expr, Numbers Node.id Expr.number Expr.nodes e
  | ⟨_, _, _, head, tail, _⟩, _ =>
    ((head.number_numbers _).append (numberTerms_numbers tail _)).cons rfl

theorem numberTerms_numbers : ∀ tail : List (AddOp × Term),
    Numbers Node.id numberTerms sumNodes tail
  | [], last => .nil last
  | (_, term) :: rest, last => (term.number_numbers last).append (numberTerms_numbers rest _)

theorem Term.number_numbers : ∀ term : Term, Numbers Node.id Term.number Term.nodes term
  | ⟨_, head, tail, _⟩, _ =>
    ((head.number_numbers _).append (numberFactors_numbers tail _)).cons rfl

theorem numberFactors_numbers : ∀ tail : List (MulOp × Factor),
    Numbers Node.id numberFactors productNodes tail
  | [], last => .nil last
  | (_, factor) :: rest, last => (factor.number_numbers last).append (numberFactors_numbers rest _)

theorem Factor.number_numbers : ∀ factor : Factor, Numbers Node.id Factor.number Factor.nodes factor
  | ⟨_, kind, _⟩, _ => (kind.number_numbers _).cons rfl

theorem FactorKind.number_numbers : ∀ kind : FactorKind,
    Numbers Node.id FactorKind.number FactorKind.nodes kind
  | .literal _, last => .nil last
  | .designator target, last => target.number_numbers last
  | .call callee args, last => (callee.number_numbers last).append (numberExprs_numbers args _)
  | .newObject _, last => .nil last
  | .newArray _ sizes, last => numberExprs_numbers sizes last
  | .paren inner, last => inner.number_numbers last
  | .list elems, last => numberExprs_numbers elems last

theorem numberExprs_numbers : ∀ exprs : List Expr, Numbers Node.id numberExprs exprsNodes exprs
  | [], last => .nil last
  | e :: rest, last => (e.number_numbers last).append (numberExprs_numbers rest _)

theorem Designator.number_numbers : ∀ target : Designator,
    Numbers Node.id Designator.number Designator.nodes target
  | ⟨_, _, selectors, _⟩, _ => (numberSelectors_numbers selectors _).cons rfl

theorem numberSelectors_numbers : ∀ selectors : List Selector,
    Numbers Node.id numberSelectors selectorsNodes selectors
  | [], last => .nil last
  | .field _ :: rest, last => numberSelectors_numbers rest last
  | .index value :: rest, last => (value.number_numbers last).append (numberSelectors_numbers rest _)

end

theorem FactKind.number_numbers : ∀ kind : FactKind, Numbers Node.id FactKind.number FactKind.nodes kind
  | .expr value, last => value.number_numbers last
  | .relation left _ right, last => (left.number_numbers last).append (right.number_numbers _)

theorem CondFact.number_numbers (fact : CondFact) : Numbers Node.id CondFact.number CondFact.nodes fact :=
  fun _ => (fact.kind.number_numbers _).cons rfl

theorem CondTerm.number_numbers (term : CondTerm) : Numbers Node.id CondTerm.number CondTerm.nodes term :=
  fun _ => (numbers_mapM CondFact.number_numbers term.facts _).cons rfl

theorem Condition.number_numbers (cond : Condition) :
    Numbers Node.id Condition.number Condition.nodes cond :=
  fun _ => (numbers_mapM CondTerm.number_numbers cond.terms _).cons rfl

mutual

theorem Stmt.number_numbers (names : List String) : ∀ stmt : Stmt,
    Numbers Occurrence.id Stmt.number (Stmt.occurrences names) stmt
  | .assign target value _, last =>
    ((target.number_numbers last).append (value.number_numbers _)).inSight names
  | .call callee args _, last =>
    ((callee.number_numbers last).append (numberExprs_numbers args _)).inSight names
  | .increment target _, last | .decrement target _, last | .read target _, last =>
    (target.number_numbers last).inSight names
  | .branch cond onTrue onFalse _, last =>
    ((cond.number_numbers last).inSight names).append
      ((onTrue.number_numbers names _).append (numberOption_numbers names onFalse _))
  | .whileLoop cond body _, last =>
    ((cond.number_numbers last).inSight names).append (body.number_numbers names _)
  | .forLoop init cond update body _, last =>
    (numberOption_numbers names init last).append
      (((numbers_mapM_option Condition.number_numbers cond _).inSight names).append
        ((numberOption_numbers names update _).append (body.number_numbers names _)))
  | .breakStmt _, last => .nil last
  | .returnStmt value _, last => (numbers_mapM_option Expr.number_numbers value last).inSight names
  | .write value _ _, last => (value.number_numbers last).inSight names
  | .switch selector cases default _, last =>
    ((selector.number_numbers last).inSight names).append
      ((numberCases_numbers names cases _).append (numberDefault_numbers names default _))
  | .block ⟨items, _⟩, last => numberItems_numbers names items last
  | .empty _, last => .nil last

theorem numberOption_numbers (names : List String) : ∀ stmt : Option Stmt,
    Numbers Occurrence.id numberOption (optionOccurrences names) stmt
  | none, last => .nil last
  | some stmt, last => stmt.number_numbers names last

theorem numberStmts_numbers (names : List String) : ∀ stmts : List Stmt,
    Numbers Occurrence.id numberStmts (stmtsOccurrences names) stmts
  | [], last => .nil last
  | stmt :: rest, last => (stmt.number_numbers names last).append (numberStmts_numbers names rest _)

theorem numberCases_numbers (names : List String) : ∀ cases : List SwitchCase,
    Numbers Occurrence.id numberCases (casesOccurrences names) cases
  | [], last => .nil last
  | ⟨_, body, _⟩ :: rest, last =>
    (numberStmts_numbers names body last).append (numberCases_numbers names rest _)

theorem numberDefault_numbers (names : List String) : ∀ default : Option DefaultCase,
    Numbers Occurrence.id numberDefault (defaultOccurrences names) default
  | none, last => .nil last
  | some ⟨body, _⟩, last => numberStmts_numbers names body last

theorem numberItems_numbers (names : List String) : ∀ items : List BlockItem,
    Numbers Occurrence.id numberItems (itemsOccurrences names) items
  | [], last => .nil last
  | .var decl :: rest, last => numberItems_numbers (decl.declared ++ names) rest last
  | .stmt stmt :: rest, last =>
    (stmt.number_numbers names last).append (numberItems_numbers names rest _)

end

theorem Item.number_numbers : ∀ item : Item, Numbers Occurrence.id Item.number Item.occurrences item
  | .method ⟨_, _, params, ⟨items, _⟩, _⟩, last =>
    numberItems_numbers (params.map fun param : Param => param.name.name) items last
  | .const _, last | .vars _, last | .classDecl _, last => .nil last

theorem Program.numbered_ids (program : Program) :
    nodeIds program.numbered.nodes = idsAfter 0 program.nodes.length := by
  have items := (numbers_mapM Item.number_numbers program.items 0).ids
  rw [nodeIds, nodes, nodes, List.map_map, List.length_map]
  exact items

/-- A program as numbering leaves it, as long as the numbers last. -/
def Program.IsNumbered (program : Program) : Prop :=
  ∃ source : Program, source.nodes.length < 2 ^ 32 ∧ source.numbered = program

theorem Program.IsNumbered.nodup {program : Program} (numbered : program.IsNumbered) :
    (nodeIds program.nodes).Nodup := by
  obtain ⟨source, few, rfl⟩ := numbered
  rw [Program.numbered_ids]
  exact idsAfter_nodup (by simpa using few)

/-! Programs to try statements on. -/

namespace Sample

def factor (kind : FactorKind) : Factor := ⟨0, kind, {}⟩

def term (head : FactorKind) (tail : List (MulOp × Factor)) : Term := ⟨0, factor head, tail, {}⟩

def sum (head : Term) (tail : List (AddOp × Term)) : Expr := ⟨0, false, none, head, tail, {}⟩

def value (kind : FactorKind) : Expr := sum (term kind []) []

def int (n : Int64) : FactorKind := .literal (.int n)

def place (name : String) (selectors : List Selector) : Designator := ⟨0, ⟨name, {}⟩, selectors, {}⟩

def load (name : String) (selectors : List Selector) : FactorKind := .designator (place name selectors)

def call (name : String) (args : List Expr) : FactorKind := .call (place name []) args

def test (left : Expr) (op : RelOp) (right : Expr) : Condition :=
  ⟨0, [⟨0, [⟨0, .relation left op right, {}⟩], {}⟩], {}⟩

def vars (type : String) (names : List String) : VarDecl := ⟨⟨type, {}⟩, names.map (⟨·, {}⟩), {}⟩

def method (result : Option String) (name : String) (params : List (String × String))
    (items : List BlockItem) : Item :=
  .method ⟨⟨name, {}⟩, result.map (⟨·, {}⟩), params.map fun (type, name) => ⟨⟨type, {}⟩, ⟨name, {}⟩⟩,
    ⟨items, {}⟩, {}⟩

def program (items : List Item) : Program := Program.numbered ⟨⟨"P", {}⟩, items, {}⟩

/-- `int Sum(int[] xs, Cell cell) { int i; for (i = 0; i < len(xs); i++) { total = total + xs[i] * Limit; }
return total - cell.value; }` -/
def sumMethod : Item :=
  method (some "int") "Sum" [("int[]", "xs"), ("Cell", "cell")] [
    .var (vars "int" ["i"]),
    .stmt (.forLoop (some (.assign (place "i" []) (value (int 0)) {}))
      (some (test (value (load "i" [])) .lt (value (call "len" [value (load "xs" [])]))))
      (some (.increment (place "i" []) {}))
      (.block ⟨[.stmt (.assign (place "total" []) (sum (term (load "total" []) [])
        [(.add, term (load "xs" [.index (value (load "i" []))]) [(.mul, factor (load "Limit" []))])])
        {})], {}⟩) {}),
    .stmt (.returnStmt (some (sum (term (load "total" []) [])
      [(.sub, term (load "cell" [.field ⟨"value", {}⟩]) [])])) {})]

/-- `void Main() { int[] xs; Cell cell; xs = [1, 2]; cell = new Cell; cell.value = -2147483648;
while (Sum(xs, cell) > 0) { switch (total) { case 1: break; default: total--; } break; }
write(total); }` -/
def mainMethod : Item :=
  method none "Main" [] [
    .var (vars "int[]" ["xs"]),
    .var (vars "Cell" ["cell"]),
    .stmt (.assign (place "xs" []) (value (.list [value (int 1), value (int 2)])) {}),
    .stmt (.assign (place "cell" []) (value (.newObject ⟨"Cell", {}⟩)) {}),
    .stmt (.assign (place "cell" [.field ⟨"value", {}⟩])
      ⟨0, true, none, term (int 2147483648) [], [], {}⟩ {}),
    .stmt (.whileLoop (test (value (call "Sum" [value (load "xs" []), value (load "cell" [])])) .gt
        (value (int 0)))
      (.block ⟨[
        .stmt (.switch (value (load "total" [])) [⟨.int 1, [.breakStmt {}], {}⟩]
          (some ⟨[.decrement (place "total" []) {}], {}⟩) {}),
        .stmt (.breakStmt {})], {}⟩) {}),
    .stmt (.write (value (load "total" [])) none {})]

def totals : Program :=
  program [
    .classDecl ⟨⟨"Cell", {}⟩, [vars "int" ["value"], vars "Cell" ["next"]], {}⟩,
    .const ⟨⟨"int", {}⟩, ⟨"Limit", {}⟩, .int 3, {}⟩,
    .vars (vars "int" ["total"]), sumMethod, mainMethod]

end Sample

theorem Sample.isNumbered {items : List Item}
    (few : (Program.mk ⟨"P", {}⟩ items {}).nodes.length < 2 ^ 32) : (program items).IsNumbered :=
  ⟨_, few, rfl⟩

theorem Sample.totals_accepted : Sample.totals.IsNumbered ∧
    (Sample.totals.check "Main").errors = #[] ∧ (Sample.totals.check "Main").unknownUses = 0 := by
  have facts : (Sample.totals.check "Main").errors = #[] ∧
      (Sample.totals.check "Main").unknownUses = 0 := by decide +kernel
  exact ⟨Sample.isNumbered (by decide +kernel), facts⟩

end StackCode
