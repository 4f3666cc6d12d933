import StackCode.Proofs.Generation.Contract

namespace StackCode

def Callee.Gives : Callee → Prop
  | .intrinsic op => op.result ≠ .void
  | .method result _ => result ≠ .void
  | .undeclared | .notCallable => False

def Node.Called (globals : Sight) : Node → Prop
  | .factor ⟨_, .call callee _, _⟩ => (globals.callee callee).Gives
  | _ => True

def Called (globals : Sight) (nodes : List Node) : Prop := ∀ node ∈ nodes, node.Called globals

def Sight.CallsOf (sight globals : Sight) : Prop :=
  ∀ name tag result params, sight.meaning? name = some ⟨tag, .method result params⟩ →
    globals.meaning? name = some ⟨tag, .method result params⟩

variable {facts : Facts} {sight globals : Sight}

theorem called_nil : Called globals [] := nofun

theorem called_cons {node : Node} {nodes : List Node} :
    Called globals (node :: nodes) ↔ node.Called globals ∧ Called globals nodes :=
  List.forall_mem_cons

theorem called_append {xs ys : List Node} :
    Called globals (xs ++ ys) ↔ Called globals xs ∧ Called globals ys :=
  List.forall_mem_append

section Within

theorem Sight.CallsOf.declare (within : sight.CallsOf globals) (name : String) (type : Tag)
    (constant : Bool) : (sight.declare name ⟨type, .var constant⟩).CallsOf globals := by
  intro other tag result params meant
  rw [Sight.declare] at meant
  dsimp only at meant
  split at meant
  · cases meant
  · exact within other tag result params meant

theorem Sight.CallsOf.declareAll (within : sight.CallsOf globals) (type : Tag) (names : List String) :
    (sight.declareAll type names).CallsOf globals := by
  induction names generalizing sight with
  | nil => exact within
  | cons name names ih => exact ih (within.declare name type false)

theorem Sight.CallsOf.declareParams (within : sight.CallsOf globals) (params : List Param) :
    (sight.declareParams params).CallsOf globals := by
  induction params generalizing sight with
  | nil => exact within
  | cons param params ih => exact ih (within.declare _ _ _)

theorem Sight.selectors_of_takes {callee : Designator} {types : List Tag} {result : Tag}
    (takes : (sight.callee callee).Takes sight.registry types result) : callee.selectors = [] := by
  unfold Sight.callee at takes
  cases selected : callee.selectors with
  | nil => rfl
  | cons selector rest =>
    rw [selected] at takes
    cases takes

theorem Sight.CallsOf.gives (within : sight.CallsOf globals) {callee : Designator} {types : List Tag}
    {result : Tag} (takes : (sight.callee callee).Takes sight.registry types result)
    (valued : result ≠ .void) : (globals.callee callee).Gives := by
  have bare := Sight.selectors_of_takes takes
  unfold Sight.callee at takes ⊢
  rw [bare] at takes ⊢
  simp only [List.isEmpty_nil, Bool.not_true, Bool.false_eq_true, if_false] at takes ⊢
  cases known : Intrinsic.ofName? callee.base.name with
  | some op =>
    rw [known] at takes
    obtain ⟨_, rfl⟩ := takes
    exact valued
  | none =>
    rw [known] at takes
    dsimp only at takes ⊢
    split at takes
    · cases takes
    · rename_i meant
      obtain ⟨_, _, rfl⟩ := takes
      rw [within _ _ _ _ meant]
      exact valued
    · cases takes

end Within

theorem Expr.called_bare {e : Expr} (bare : e.isBareList = true) : Called globals e.nodes := by
  obtain ⟨id, tid, fid, _, _, _, rfl⟩ := Expr.eq_of_isBareList bare
  simp [Expr.nodes, Term.nodes, Factor.nodes, FactorKind.nodes, exprsNodes, sumNodes, productNodes,
    Called, Node.Called]

theorem called_isLeastInt {neg : Bool} {cast : Option TypeName} {head : Term}
    (least : isLeastInt neg cast head = true) : Called globals head.nodes := by
  obtain ⟨_, _, _, _, _, rfl⟩ := eq_of_isLeastInt least
  simp [Term.nodes, Factor.nodes, FactorKind.nodes, productNodes, Called, Node.Called]

mutual

theorem Expr.Typed.called : ∀ (e : Expr) {type : Tag}, sight.CallsOf globals →
    e.Typed facts sight type → Called globals e.nodes
  | ⟨_, _, _, head, tail, _⟩, _, within, ⟨_, _, first, _, _, sum, _⟩ => by
    refine called_cons.mpr ⟨trivial, called_append.mpr ⟨?_, SumTyped.called tail within sum⟩⟩
    rcases first with ⟨least, _⟩ | ⟨_, typed⟩
    · exact called_isLeastInt least
    · exact Term.Typed.called head within typed

theorem SumTyped.called : ∀ (tail : List (AddOp × Term)) {type result : Tag},
    sight.CallsOf globals → SumTyped facts sight type tail result → Called globals (sumNodes tail)
  | [], _, _, _, _ => called_nil
  | (_, term) :: rest, _, _, within, ⟨_, _, typed, _, others⟩ =>
    called_append.mpr ⟨Term.Typed.called term within typed, SumTyped.called rest within others⟩

theorem Term.Typed.called : ∀ (term : Term) {type : Tag}, sight.CallsOf globals →
    term.Typed facts sight type → Called globals term.nodes
  | ⟨_, head, tail, _⟩, _, within, ⟨_, typed, product, _⟩ =>
    called_cons.mpr ⟨trivial, called_append.mpr ⟨Factor.Typed.called head within typed,
      ProductTyped.called tail within product⟩⟩

theorem ProductTyped.called : ∀ (tail : List (MulOp × Factor)) {type result : Tag},
    sight.CallsOf globals → ProductTyped facts sight type tail result →
    Called globals (productNodes tail)
  | [], _, _, _, _ => called_nil
  | (_, factor) :: rest, _, _, within, ⟨_, _, typed, _, others⟩ =>
    called_append.mpr ⟨Factor.Typed.called factor within typed,
      ProductTyped.called rest within others⟩

theorem Factor.Typed.called : ∀ (factor : Factor) {type : Tag}, sight.CallsOf globals →
    factor.Typed facts sight type → Called globals factor.nodes
  | ⟨_, .literal _, _⟩, _, _, _ => called_cons.mpr ⟨trivial, called_nil⟩
  | ⟨_, .designator target, _⟩, _, within, ⟨typed, _⟩ =>
    called_cons.mpr ⟨trivial, Designator.Typed.called target within typed⟩
  | ⟨_, .call ⟨_, _, selectors, _⟩ args, _⟩, _, within, ⟨⟨⟨_, typed, takes⟩, valued⟩, _⟩ => by
    obtain rfl : selectors = [] := Sight.selectors_of_takes takes
    exact called_cons.mpr ⟨within.gives takes valued,
      called_cons.mpr ⟨trivial, ArgsTyped.called args within typed⟩⟩
  | ⟨_, .newObject _, _⟩, _, _, _ => called_cons.mpr ⟨trivial, called_nil⟩
  | ⟨_, .newArray _ sizes, _⟩, _, within, ⟨⟨_, _, typed, _⟩, _⟩ =>
    called_cons.mpr ⟨trivial, ExprsTyped.called sizes within typed⟩
  | ⟨_, .paren inner, _⟩, _, within, ⟨typed, _⟩ =>
    called_cons.mpr ⟨trivial, Expr.Typed.called inner within typed⟩
  | ⟨_, .list elems, _⟩, _, within, ⟨⟨_, _, typed, _⟩, _⟩ =>
    called_cons.mpr ⟨trivial, ExprsTyped.called elems within typed⟩

theorem ExprsTyped.called : ∀ (exprs : List Expr) {types : List Tag}, sight.CallsOf globals →
    ExprsTyped facts sight exprs types → Called globals (exprsNodes exprs)
  | [], _, _, _ => called_nil
  | e :: rest, _, within, ⟨_, _, _, typed, others⟩ =>
    called_append.mpr ⟨Expr.Typed.called e within typed, ExprsTyped.called rest within others⟩

theorem ArgsTyped.called : ∀ (args : List Expr) {expectation : Expectation} {types : List Tag},
    sight.CallsOf globals → ArgsTyped facts sight expectation args types →
    Called globals (exprsNodes args)
  | [], _, _, _, _ => called_nil
  | arg :: rest, _, _, within, ⟨_, _, _, first, others⟩ => by
    refine called_append.mpr ⟨?_, ArgsTyped.called rest within others⟩
    rcases first with ⟨adopts, _⟩ | ⟨_, typed⟩
    · exact Expr.called_bare (Bool.and_eq_true_iff.mp adopts).2
    · exact Expr.Typed.called arg within typed

theorem Designator.Typed.called : ∀ (target : Designator) {type : Tag}, sight.CallsOf globals →
    target.Typed facts sight type → Called globals target.nodes
  | ⟨_, _, selectors, _⟩, _, within, ⟨_, _, _, typed, _⟩ =>
    called_cons.mpr ⟨trivial, SelectorsTyped.called selectors within typed⟩

theorem SelectorsTyped.called : ∀ (selectors : List Selector) {type result : Tag},
    sight.CallsOf globals → SelectorsTyped facts sight type selectors result →
    Called globals (selectorsNodes selectors)
  | [], _, _, _, _ => called_nil
  | .field _ :: rest, _, _, within, ⟨_, _, others⟩ => SelectorsTyped.called rest within others
  | .index value :: rest, _, _, within, ⟨_, typed, _, others⟩ =>
    called_append.mpr ⟨Expr.Typed.called value within typed,
      SelectorsTyped.called rest within others⟩

end

theorem Expr.Given.called {e : Expr} {expected type : Tag} (within : sight.CallsOf globals)
    (given : e.Given facts sight expected type) : Called globals e.nodes := by
  rcases given with ⟨adopts, _⟩ | ⟨_, typed⟩
  · exact Expr.called_bare (Bool.and_eq_true_iff.mp adopts).2
  · exact typed.called e within

theorem CondFact.Typed.called {fact : CondFact} (within : sight.CallsOf globals)
    (typed : fact.Typed facts sight) : Called globals fact.nodes := by
  obtain ⟨id, kind, span⟩ := fact
  refine called_cons.mpr ⟨trivial, ?_⟩
  cases kind with
  | expr value => exact typed.1.called value within
  | relation left op right =>
    obtain ⟨⟨_, _, first, second, _⟩, _⟩ := typed
    exact called_append.mpr ⟨first.called left within, second.called right within⟩

theorem Condition.Typed.called {cond : Condition} (within : sight.CallsOf globals)
    (typed : cond.Typed facts sight) : Called globals cond.nodes := by
  refine called_cons.mpr ⟨trivial, List.forall_mem_flatMap.mpr fun term inside => ?_⟩
  refine called_cons.mpr ⟨trivial, List.forall_mem_flatMap.mpr fun fact among => ?_⟩
  exact ((typed.1 term inside).1 fact among).called within

def CalledIn (globals : Sight) (occurrences : List Occurrence) : Prop :=
  ∀ occurrence ∈ occurrences, occurrence.node.Called globals

theorem calledIn_append {xs ys : List Occurrence} :
    CalledIn globals (xs ++ ys) ↔ CalledIn globals xs ∧ CalledIn globals ys :=
  List.forall_mem_append

theorem calledIn_inSight {names : List String} {nodes : List Node} :
    CalledIn globals (inSight names nodes) ↔ Called globals nodes :=
  List.forall_mem_map

variable {result : Tag}

mutual

theorem Stmt.Typed.called : ∀ (stmt : Stmt) {sight : Sight} {leavable : Bool} {names : List String},
    sight.CallsOf globals → stmt.Typed facts result sight leavable →
    CalledIn globals (stmt.occurrences names)
  | .assign target value _, _, _, _, within, ⟨_, _, ⟨written, _⟩, given, _⟩ =>
    calledIn_inSight.mpr (called_append.mpr ⟨written.called target within, given.called within⟩)
  | .call ⟨_, _, selectors, _⟩ args _, _, _, _, within, ⟨_, _, typed, takes⟩ => by
    obtain rfl : selectors = [] := Sight.selectors_of_takes takes
    exact calledIn_inSight.mpr (called_cons.mpr ⟨trivial, typed.called args within⟩)
  | .increment target _, _, _, _, within, ⟨typed, _⟩
  | .decrement target _, _, _, _, within, ⟨typed, _⟩ =>
    calledIn_inSight.mpr (typed.called target within)
  | .branch cond onTrue onFalse _, _, _, _, within, ⟨test, first, second⟩ =>
    calledIn_append.mpr ⟨calledIn_inSight.mpr (test.called within), calledIn_append.mpr
      ⟨Stmt.Typed.called onTrue within first, OptionTyped.called onFalse within second⟩⟩
  | .whileLoop cond body _, _, _, _, within, ⟨test, typed⟩ =>
    calledIn_append.mpr ⟨calledIn_inSight.mpr (test.called within),
      Stmt.Typed.called body within typed⟩
  | .forLoop init cond update body _, _, _, _, within, ⟨first, test, step, typed⟩ => by
    refine calledIn_append.mpr ⟨OptionTyped.called init within first, calledIn_append.mpr
      ⟨calledIn_inSight.mpr ?_, calledIn_append.mpr ⟨OptionTyped.called update within step,
        Stmt.Typed.called body within typed⟩⟩⟩
    cases cond with
    | none => exact called_nil
    | some cond => exact (test cond rfl).called within
  | .breakStmt _, _, _, _, _, _ | .empty _, _, _, _, _, _ => nofun
  | .returnStmt none _, _, _, _, _, _ => nofun
  | .returnStmt (some value) _, _, _, _, within, ⟨_, _, given, _⟩ =>
    calledIn_inSight.mpr (given.called within)
  | .read target _, _, _, _, within, ⟨_, ⟨typed, _⟩, _⟩ =>
    calledIn_inSight.mpr (typed.called target within)
  | .write value _ _, _, _, _, within, ⟨_, typed, _⟩ =>
    calledIn_inSight.mpr (typed.called value within)
  | .switch selector cases default _, _, _, _, within, ⟨_, typed, _, labelled, other⟩ =>
    calledIn_append.mpr ⟨calledIn_inSight.mpr (typed.called selector within), calledIn_append.mpr
      ⟨CasesTyped.called cases within labelled, DefaultTyped.called default within other⟩⟩
  | .block ⟨items, _⟩, _, _, _, within, typed => ItemsTyped.called items within typed

theorem OptionTyped.called : ∀ (stmt : Option Stmt) {sight : Sight} {leavable : Bool}
    {names : List String}, sight.CallsOf globals → OptionTyped facts result sight leavable stmt →
    CalledIn globals (optionOccurrences names stmt)
  | none, _, _, _, _, _ => nofun
  | some stmt, _, _, _, within, typed => Stmt.Typed.called stmt within typed

theorem StmtsTyped.called : ∀ (stmts : List Stmt) {sight : Sight} {names : List String},
    sight.CallsOf globals → StmtsTyped facts result sight stmts →
    CalledIn globals (stmtsOccurrences names stmts)
  | [], _, _, _, _ => nofun
  | stmt :: rest, _, _, within, ⟨typed, others⟩ =>
    calledIn_append.mpr ⟨Stmt.Typed.called stmt within typed, StmtsTyped.called rest within others⟩

theorem CasesTyped.called : ∀ (cases : List SwitchCase) {sight : Sight} {selector : Tag}
    {seen : List Literal} {names : List String}, sight.CallsOf globals →
    CasesTyped facts result sight selector seen cases →
    CalledIn globals (casesOccurrences names cases)
  | [], _, _, _, _, _, _ => nofun
  | ⟨_, body, _⟩ :: rest, _, _, _, _, within, ⟨_, typed, others⟩ =>
    calledIn_append.mpr ⟨StmtsTyped.called body within typed, CasesTyped.called rest within others⟩

theorem DefaultTyped.called : ∀ (default : Option DefaultCase) {sight : Sight}
    {names : List String}, sight.CallsOf globals → DefaultTyped facts result sight default →
    CalledIn globals (defaultOccurrences names default)
  | none, _, _, _, _ => nofun
  | some ⟨body, _⟩, _, _, within, typed => StmtsTyped.called body within typed

theorem ItemsTyped.called : ∀ (items : List BlockItem) {sight : Sight} {leavable : Bool}
    {taken names : List String}, sight.CallsOf globals →
    ItemsTyped facts result sight leavable taken items →
    CalledIn globals (itemsOccurrences names items)
  | [], _, _, _, _, _, _ => nofun
  | .var ⟨_, _, _⟩ :: rest, _, _, _, _, within, ⟨_, _, _, others⟩ =>
    ItemsTyped.called rest (within.declareAll _ _) others
  | .stmt stmt :: rest, _, _, _, _, within, ⟨typed, others⟩ =>
    calledIn_append.mpr ⟨Stmt.Typed.called stmt within typed, ItemsTyped.called rest within others⟩

end

theorem Program.Accepted.called {program : Program} {table : SymbolTable}
    (accepted : program.Accepted table facts) : CalledIn table.sight program.occurrences := by
  refine List.forall_mem_flatMap.mpr fun item member => ?_
  cases item with
  | method decl =>
    have within : table.sight.CallsOf table.sight := fun _ _ _ _ meant => meant
    exact (accepted.methods decl member).2.called _ (within.declareParams decl.params)
  | _ => nofun

end StackCode
