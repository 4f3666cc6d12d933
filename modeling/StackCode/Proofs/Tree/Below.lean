import StackCode.Proofs.Tree.Nodes

namespace StackCode

def Node.below : Node → List Node
  | .expr e => e.nodes
  | .term product => product.nodes
  | .factor value => value.nodes
  | .designator target => target.nodes
  | .fact test => test.nodes
  | .condTerm tests => tests.nodes
  | .condition cond => cond.nodes

def Closed (nodes : List Node) : Prop := ∀ node ∈ nodes, node.below ⊆ nodes

theorem closed_nil : Closed [] := nofun

theorem Closed.append {xs ys : List Node} (first : Closed xs) (second : Closed ys) :
    Closed (xs ++ ys) := by
  intro node member
  rcases List.mem_append.mp member with member | member
  · exact List.Subset.trans (first node member) (List.subset_append_left xs ys)
  · exact List.Subset.trans (second node member) (List.subset_append_right xs ys)

theorem Closed.cons {node : Node} {nodes : List Node} (below : node.below = node :: nodes)
    (closed : Closed nodes) : Closed (node :: nodes) := by
  intro other member
  rcases List.mem_cons.mp member with rfl | member
  · exact below ▸ List.Subset.refl _
  · exact List.Subset.trans (closed other member) (List.subset_cons_self node nodes)

theorem closed_flatMap {α : Type} {f : α → List Node} {xs : List α}
    (closed : ∀ x ∈ xs, Closed (f x)) : Closed (xs.flatMap f) := by
  induction xs with
  | nil => exact closed_nil
  | cons x xs ih =>
    obtain ⟨first, others⟩ := List.forall_mem_cons.mp closed
    exact first.append (ih others)

mutual

theorem Expr.closed : ∀ e : Expr, Closed e.nodes
  | ⟨_, _, _, head, tail, _⟩ => .cons rfl (head.closed.append (sum_closed tail))

theorem sum_closed : ∀ tail : List (AddOp × Term), Closed (sumNodes tail)
  | [] => closed_nil
  | (_, term) :: rest => term.closed.append (sum_closed rest)

theorem Term.closed : ∀ term : Term, Closed term.nodes
  | ⟨_, head, tail, _⟩ => .cons rfl (head.closed.append (product_closed tail))

theorem product_closed : ∀ tail : List (MulOp × Factor), Closed (productNodes tail)
  | [] => closed_nil
  | (_, factor) :: rest => factor.closed.append (product_closed rest)

theorem Factor.closed : ∀ factor : Factor, Closed factor.nodes
  | ⟨_, kind, _⟩ => .cons rfl kind.closed

theorem FactorKind.closed : ∀ kind : FactorKind, Closed kind.nodes
  | .literal _ => closed_nil
  | .designator target => target.closed
  | .call callee args => callee.closed.append (exprs_closed args)
  | .newObject _ => closed_nil
  | .newArray _ sizes => exprs_closed sizes
  | .paren inner => inner.closed
  | .list elems => exprs_closed elems

theorem exprs_closed : ∀ exprs : List Expr, Closed (exprsNodes exprs)
  | [] => closed_nil
  | e :: rest => e.closed.append (exprs_closed rest)

theorem Designator.closed : ∀ target : Designator, Closed target.nodes
  | ⟨_, _, selectors, _⟩ => .cons rfl (selectors_closed selectors)

theorem selectors_closed : ∀ selectors : List Selector, Closed (selectorsNodes selectors)
  | [] => closed_nil
  | .field _ :: rest => selectors_closed rest
  | .index value :: rest => value.closed.append (selectors_closed rest)

end

theorem CondFact.closed (fact : CondFact) : Closed fact.nodes := by
  refine .cons rfl ?_
  cases fact.kind with
  | relation left op right => exact left.closed.append right.closed
  | expr value => exact value.closed

theorem CondTerm.closed (term : CondTerm) : Closed term.nodes :=
  .cons rfl (closed_flatMap fun fact _ => fact.closed)

theorem Condition.closed (cond : Condition) : Closed cond.nodes :=
  .cons rfl (closed_flatMap fun term _ => term.closed)

def ClosedIn (occurrences : List Occurrence) : Prop := Closed (occurrences.map (·.node))

theorem closedIn_nil : ClosedIn [] := closed_nil

theorem ClosedIn.append {xs ys : List Occurrence} (first : ClosedIn xs) (second : ClosedIn ys) :
    ClosedIn (xs ++ ys) := by
  rw [ClosedIn, List.map_append]
  exact Closed.append first second

theorem Closed.inSight {nodes : List Node} (closed : Closed nodes) (names : List String) :
    ClosedIn (inSight names nodes) := by
  rw [ClosedIn, StackCode.inSight, List.map_map, Function.comp_def, List.map_id']
  exact closed

mutual

theorem Stmt.closed (names : List String) : ∀ stmt : Stmt, ClosedIn (stmt.occurrences names)
  | .assign target value _ => (target.closed.append value.closed).inSight names
  | .call callee args _ => (callee.closed.append (exprs_closed args)).inSight names
  | .increment target _ | .decrement target _ | .read target _ => target.closed.inSight names
  | .branch cond onTrue onFalse _ =>
    (cond.closed.inSight names).append ((onTrue.closed names).append (option_closed names onFalse))
  | .whileLoop cond body _ => (cond.closed.inSight names).append (body.closed names)
  | .forLoop init none update body _ =>
    (option_closed names init).append ((closed_nil.inSight names).append
      ((option_closed names update).append (body.closed names)))
  | .forLoop init (some cond) update body _ =>
    (option_closed names init).append ((cond.closed.inSight names).append
      ((option_closed names update).append (body.closed names)))
  | .breakStmt _ | .empty _ => closedIn_nil
  | .returnStmt none _ => closed_nil.inSight names
  | .returnStmt (some value) _ => value.closed.inSight names
  | .write value _ _ => value.closed.inSight names
  | .switch selector cases default _ =>
    (selector.closed.inSight names).append
      ((cases_closed names cases).append (default_closed names default))
  | .block ⟨items, _⟩ => items_closed names items

theorem option_closed (names : List String) : ∀ stmt : Option Stmt,
    ClosedIn (optionOccurrences names stmt)
  | none => closedIn_nil
  | some stmt => stmt.closed names

theorem stmts_closed (names : List String) : ∀ stmts : List Stmt,
    ClosedIn (stmtsOccurrences names stmts)
  | [] => closedIn_nil
  | stmt :: rest => (stmt.closed names).append (stmts_closed names rest)

theorem cases_closed (names : List String) : ∀ cases : List SwitchCase,
    ClosedIn (casesOccurrences names cases)
  | [] => closedIn_nil
  | ⟨_, body, _⟩ :: rest => (stmts_closed names body).append (cases_closed names rest)

theorem default_closed (names : List String) : ∀ default : Option DefaultCase,
    ClosedIn (defaultOccurrences names default)
  | none => closedIn_nil
  | some ⟨body, _⟩ => stmts_closed names body

theorem items_closed (names : List String) : ∀ items : List BlockItem,
    ClosedIn (itemsOccurrences names items)
  | [] => closedIn_nil
  | .var decl :: rest => items_closed (decl.declared ++ names) rest
  | .stmt stmt :: rest => (stmt.closed names).append (items_closed names rest)

end

theorem Program.closed (program : Program) : Closed program.nodes := by
  rw [Program.nodes, Program.occurrences, List.map_flatMap]
  refine closed_flatMap fun item _ => ?_
  cases item with
  | method decl => exact items_closed _ decl.body.items
  | _ => exact closed_nil

end StackCode
