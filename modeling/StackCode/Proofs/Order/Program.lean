import StackCode.Proofs.Generation.Methods
import StackCode.Proofs.Order.Methods
import StackCode.Proofs.Parallel.Emission

namespace StackCode

open Checking Code

/-- The same program with its items in another order, in which the classes come in the same order. -/
structure Program.Reordered (p q : Program) : Prop where
  items : p.items.Perm q.items
  classes : p.items.filterMap Item.class? = q.items.filterMap Item.class?
  name : q.name = p.name
  span : q.span = p.span

def Program.Distinct (program : Program) : Prop := (program.items.flatMap Item.names).Nodup

section Names

theorem Item.names_perm (items : List Item) : (items.flatMap Item.names).Perm
    (items.flatMap Item.valueNames ++ (items.filterMap Item.class?).map (·.name.name)) := by
  have split : ∀ item : Item, item.names =
      item.valueNames ++ (item.class?.map (·.name.name)).toList := by
    intro item
    cases item with
    | vars decl => exact (List.append_nil _).symm
    | _ => rfl
  have classes : items.flatMap (fun item => (item.class?.map (·.name.name)).toList) =
      (items.filterMap Item.class?).map (·.name.name) := by
    induction items with
    | nil => rfl
    | cons item items ih =>
      rw [List.flatMap_cons, ih]
      cases item <;> rfl
  rw [← classes, funext split]
  exact (List.flatMap_append_perm _ _ _).symm

theorem Program.Distinct.values {program : Program} (distinct : program.Distinct) :
    (program.items.flatMap Item.valueNames).Nodup ∧
      ∀ name ∈ program.items.flatMap Item.valueNames,
        name ∉ (program.items.filterMap Item.class?).map (·.name.name) := by
  obtain ⟨once, _, apart⟩ := List.nodup_append.mp ((Item.names_perm program.items).nodup_iff.mp distinct)
  refine ⟨once, ?_⟩
  intro name value isClass
  exact apart name value name isClass rfl

theorem Program.Reordered.distinct {p q : Program} (reordered : p.Reordered q)
    (distinct : p.Distinct) : q.Distinct :=
  (reordered.items.flatMap fun _ _ => .refl _).nodup_iff.mp distinct

end Names

section Checks

theorem SymbolTable.Alike.hasEntry_eq {table other : SymbolTable} (alike : table.Alike other)
    (entry : String) : other.hasEntry entry = table.hasEntry entry := by
  have meanings := alike.lookupCurrent? entry
  unfold SymbolTable.hasEntry
  cases found : table.lookupCurrent? entry with
  | none =>
    rw [found, Option.map_none, Option.map_eq_none_iff] at meanings
    rw [meanings]
  | some symbol =>
    rw [found] at meanings
    obtain ⟨symbol', found', meant⟩ := Option.map_eq_some_iff.mp meanings
    have kind : symbol'.kind = symbol.kind := congrArg Meaning.kind meant
    rw [found']
    dsimp only
    rw [kind]

def Program.scoped (program : Program) : CheckState :=
  ((program.items.forM Item.declare).outcome ((outlining program.items).outcome {}).2).2

theorem Program.check_eq (program : Program) (entry : String) : program.check entry =
    ((checkEntry entry program.span).outcome
      ((checkMethods program.items).outcome program.scoped).2).2 := rfl

variable {p q : Program}

theorem Program.Reordered.scoped (reordered : p.Reordered q) (distinct : p.Distinct) :
    p.scoped.Between p.scoped.table ∧ q.scoped.Between p.scoped.table ∧
      p.scoped.errors.toList.Perm q.scoped.errors.toList ∧
      q.scoped.annotations = p.scoped.annotations := by
  have grounded := outlining_grounded p.items
  have start : ((outlining q.items).outcome {}).2 = ((outlining p.items).outcome {}).2 := by
    rw [outlining_eq reordered.classes]
  obtain ⟨⟨registry, fields, scope, holds, inside⟩, loops, switches, expected⟩ := grounded
  have declare : ∀ program : Program, program.Distinct →
      program.items.filterMap Item.class? = p.items.filterMap Item.class? →
      ((outlining program.items).outcome {}).2 = ((outlining p.items).outcome {}).2 →
      CheckState.Declared ((outlining p.items).outcome {}).2.table registry fields scope program.items
        ((outlining p.items).outcome {}).2 program.scoped := by
    intro program distinct classes same
    obtain ⟨once, apart⟩ := distinct.values
    rw [Program.scoped, same]
    have held : ((outlining p.items).outcome {}).2.table.Holds registry fields ([] ++ scope) := holds
    apply declareEach_declared holds held nofun nofun once
    intro name member old listed equal
    apply apart name member
    rw [classes, ← equal]
    exact inside old listed
  have first := declare p distinct rfl rfl
  have second := declare q (reordered.distinct distinct) reordered.classes.symm start
  have heads : ((p.items.flatMap (Item.headsIn ((outlining p.items).outcome {}).2.table)).map
      Head.symbol).reverse.Perm ((q.items.flatMap (Item.headsIn
        ((outlining p.items).outcome {}).2.table)).map Head.symbol).reverse := by
    apply (List.reverse_perm _).trans
    apply List.Perm.trans _ (List.reverse_perm _).symm
    exact (reordered.items.flatMap fun _ _ => .refl _).map _
  have once : (((p.items.flatMap (Item.headsIn ((outlining p.items).outcome {}).2.table)).map
      Head.symbol).reverse.map (·.name)).Nodup := by
    rw [List.map_reverse, List.nodup_reverse, List.map_map, List.map_flatMap]
    have names : ∀ item : Item, (item.headsIn ((outlining p.items).outcome {}).2.table).map
        ((·.name) ∘ Head.symbol) = item.valueNames := fun item => item.heads_names _ _
    rw [funext names]
    exact distinct.values.1
  have alike := first.table.alike second.table (sameMeanings_of_perm heads once)
  refine ⟨⟨first.table.alike first.table (SameMeanings.refl _), ?_, ?_, ?_⟩, ⟨alike, ?_, ?_, ?_⟩, ?_, ?_⟩
  · exact first.steady.loopDepth.trans loops
  · exact first.steady.switchDepth.trans switches
  · exact first.steady.expectedResult.trans expected
  · exact second.steady.loopDepth.trans loops
  · exact second.steady.switchDepth.trans switches
  · exact second.steady.expectedResult.trans expected
  · rw [first.errors, second.errors]
    exact (reordered.items.flatMap fun _ _ => .refl _).append_left _
  · rw [first.annotations, second.annotations]

theorem Program.Reordered.check (reordered : p.Reordered q) (distinct : p.Distinct)
    (nodes : p.annotated.Nodup) (entry : String) :
    (∃ global : SymbolTable, global.Alike (p.check entry).table ∧ global.Alike (q.check entry).table) ∧
      (∀ id, (q.check entry).annotations.type? id = (p.check entry).annotations.type? id) ∧
      (p.check entry).errors.toList.Perm (q.check entry).errors.toList := by
  obtain ⟨between, between', errors, annotations⟩ := reordered.scoped distinct
  have first := checkMethods_added p.items between
  have second := checkMethods_added q.items between'
  rw [Program.check_eq, Program.check_eq, outcome_checkEntry, outcome_checkEntry, reordered.span]
  have entries := first.between.table.hasEntry_eq entry
  have entries' := second.between.table.hasEntry_eq entry
  have types : ∀ id, ((checkMethods q.items).outcome q.scoped).2.annotations.type? id =
      ((checkMethods p.items).outcome p.scoped).2.annotations.type? id := by
    intro id
    rw [first.type?, second.type?, annotations, findSome?_foundIn_of_perm reordered.items nodes]
  have found : ((checkMethods p.items).outcome p.scoped).2.errors.toList.Perm
      ((checkMethods q.items).outcome q.scoped).2.errors.toList := by
    rw [first.errors, second.errors]
    exact errors.append ((reordered.items.filterMap _).flatMap fun _ _ => .refl _)
  rw [entries, entries']
  split
  · exact ⟨⟨_, first.between.table, second.between.table⟩, types, found⟩
  · refine ⟨⟨_, first.between.table, second.between.table⟩, types, ?_⟩
    rw [Array.toList_push, Array.toList_push]
    exact found.append_right _

end Checks

section Pieces

theorem ok_iff_each {ι ε α : Type} {f : List ι → Except ε α} {empty : α} {join : α → α → α}
    (nil : f [] = .ok empty)
    (cons : ∀ a l, f (a :: l) = do return join (← f [a]) (← f l)) (l : List ι) (whole : α) :
    f l = .ok whole ↔ (∀ a ∈ l, ∃ x, f [a] = .ok x) ∧
      whole = l.foldr (fun a rest => join ((f [a]).toOption.getD empty) rest) empty := by
  induction l generalizing whole with
  | nil =>
    rw [nil]
    constructor
    · intro same
      exact ⟨nofun, (Except.ok.inj same).symm⟩
    · rintro ⟨_, rfl⟩
      rfl
  | cons a l ih =>
    rw [cons]
    cases here : f [a] with
    | error cause =>
      constructor
      · nofun
      · rintro ⟨all, _⟩
        obtain ⟨x, found⟩ := all a (by simp)
        rw [here] at found
        cases found
    | ok x =>
      cases later : f l with
      | error cause =>
        constructor
        · nofun
        · rintro ⟨all, _⟩
          have found := (ih _).mpr ⟨fun b member => all b (by simp [member]), rfl⟩
          rw [later] at found
          cases found
      | ok y =>
        obtain ⟨all, value⟩ := (ih y).mp later
        constructor
        · intro same
          refine ⟨?_, ?_⟩
          · intro b member
            rcases List.mem_cons.mp member with rfl | member
            · exact ⟨x, here⟩
            · exact all b member
          · rw [List.foldr_cons, here, ← value]
            exact (Except.ok.inj same).symm
        · rintro ⟨_, rfl⟩
          rw [List.foldr_cons, here, ← value]
          rfl

variable (env : Env)

theorem Env.methods_cons (item : Item) (items : List Item) :
    env.methods (item :: items) = do return (← env.methods [item]) ++ (← env.methods items) := by
  cases item with
  | method decl =>
    rw [Env.methods, Env.methods]
    cases env.method decl with
    | error cause => rfl
    | ok method => cases env.methods items <;> rfl
  | _ =>
    change env.methods items = do return [] ++ (← env.methods items)
    cases env.methods items <;> rfl

def joinData (first second : List Code.Class × List Slot) : List Code.Class × List Slot :=
  (first.1 ++ second.1, first.2 ++ second.2)

theorem Env.data_cons (item : Item) (items : List Item) :
    env.data (item :: items) = do return joinData (← env.data [item]) (← env.data items) := by
  cases item with
  | classDecl decl =>
    rw [Env.data, Env.data]
    cases env.fields (env.table.fieldsOf decl.name.name) with
    | error cause => rfl
    | ok fields => cases env.data items <;> rfl
  | vars decl =>
    rw [Env.data, Env.data]
    cases env.writtenType decl.type with
    | error cause => rfl
    | ok tag =>
      simp only [bind, Except.bind]
      cases env.type tag with
      | error cause => rfl
      | ok type =>
        cases env.data items with
        | error cause => rfl
        | ok rest =>
          simp only [Env.data, pure, Except.pure, joinData, List.append_nil, List.nil_append]
  | _ =>
    change env.data items = do return joinData ([], []) (← env.data items)
    cases env.data items <;> rfl

variable {env}

theorem Env.methods_of_perm {items others : List Item} (perm : items.Perm others)
    {methods : List Method} (made : env.methods items = .ok methods) :
    ∃ methods', env.methods others = .ok methods' ∧ methods.Perm methods' := by
  have each := ok_iff_each (show env.methods [] = .ok [] from rfl) env.methods_cons
  have joined : ∀ items : List Item, items.foldr (fun item rest =>
      ((env.methods [item]).toOption.getD []) ++ rest) [] =
      items.flatMap fun item => (env.methods [item]).toOption.getD [] := by
    intro items
    induction items with
    | nil => rfl
    | cons item items ih => rw [List.foldr_cons, ih, List.flatMap_cons]
  obtain ⟨all, rfl⟩ := (each items methods).mp made
  refine ⟨_, (each others _).mpr ⟨fun item member => all item (perm.mem_iff.mpr member), rfl⟩, ?_⟩
  rw [joined, joined]
  exact perm.flatMap fun _ _ => .refl _

theorem Env.data_of_perm {items others : List Item} (perm : items.Perm others)
    (classes : items.filterMap Item.class? = others.filterMap Item.class?)
    {data : List Code.Class × List Slot} (made : env.data items = .ok data) :
    ∃ data', env.data others = .ok data' ∧ data'.1 = data.1 ∧ data.2.Perm data'.2 := by
  have each := ok_iff_each (show env.data [] = .ok ([], []) from rfl) env.data_cons
  let value : Item → List Code.Class × List Slot := fun item =>
    (env.data [item]).toOption.getD ([], [])
  have joined : ∀ items : List Item, items.foldr (fun item rest => joinData (value item) rest) ([], []) =
      ((items.filterMap Item.class?).flatMap fun decl => (value (.classDecl decl)).1,
        items.flatMap fun item => (value item).2) := by
    intro items
    induction items with
    | nil => rfl
    | cons item items ih =>
      rw [List.foldr_cons, ih, List.flatMap_cons, joinData]
      cases item with
      | classDecl decl => rfl
      | vars decl =>
        have none : (value (.vars decl)).1 = [] := by
          simp only [value, Env.data, bind, Except.bind]
          cases env.writtenType decl.type with
          | error cause => rfl
          | ok tag => cases typed : env.type tag <;> simp only [typed] <;> rfl
        rw [none]
        rfl
      | _ => rfl
  obtain ⟨all, rfl⟩ := (each items data).mp made
  refine ⟨_, (each others _).mpr ⟨fun item member => all item (perm.mem_iff.mpr member), rfl⟩, ?_⟩
  change (others.foldr (fun item rest => joinData (value item) rest) ([], [])).1 =
    (items.foldr (fun item rest => joinData (value item) rest) ([], [])).1 ∧
    (items.foldr (fun item rest => joinData (value item) rest) ([], [])).2.Perm
      (others.foldr (fun item rest => joinData (value item) rest) ([], [])).2
  rw [joined, joined, classes]
  exact ⟨rfl, perm.flatMap fun _ _ => .refl _⟩

end Pieces

section Modules

theorem Item.sublist_names {β : Type} {pick : Item → Option β} {key : β → String}
    (inside : ∀ item b, pick item = some b → item.names = [key b]) (items : List Item) :
    ((items.filterMap pick).map key).Sublist (items.flatMap Item.names) := by
  induction items with
  | nil => exact .slnil
  | cons item items ih =>
    rw [List.flatMap_cons, List.filterMap_cons]
    cases picked : pick item with
    | none => exact ih.trans (List.sublist_append_right _ _)
    | some b =>
      rw [inside item b picked]
      exact ih.cons_cons _

variable {p q : Program}

def Item.constant? : Item → Option (String × Literal)
  | .const decl => some (decl.name.name, decl.value)
  | _ => none

theorem Program.Reordered.constants (reordered : p.Reordered q) (distinct : p.Distinct)
    (name : String) : (constantsOf q.items).lookup name = (constantsOf p.items).lookup name := by
  have once : ((constantsOf p.items).map Prod.fst).Nodup := by
    have named : ∀ item b, Item.constant? item = some b → item.names = [b.1] := by
      intro item b picked
      cases item with
      | const decl =>
        cases picked
        rfl
      | _ => cases picked
    have sublist := Item.sublist_names named p.items
    rw [show constantsOf p.items = (p.items.filterMap Item.constant?).reverse from rfl, List.map_reverse,
      List.nodup_reverse]
    exact distinct.sublist sublist
  have perm : (constantsOf p.items).Perm (constantsOf q.items) :=
    ((List.reverse_perm _).trans (reordered.items.filterMap Item.constant?)).trans (List.reverse_perm _).symm
  rw [List.lookup_eq_findSome?, List.lookup_eq_findSome?]
  apply findSome?_eq_of_perm perm
  intro a here b there answers answers'
  apply List.inj_on_of_nodup_map once here there
  have first : name = a.1 := by
    by_contra differ
    simp [differ] at answers
  have second : name = b.1 := by
    by_contra differ
    simp [differ] at answers'
  rw [← first, ← second]

theorem Program.Distinct.method?_of_perm {program : Program} (distinct : program.Distinct) {env : Env}
    {methods others : List Method} (made : env.methods program.items = .ok methods)
    (perm : methods.Perm others) (name : String) :
    others.find? (·.name == name) = methods.find? (·.name == name) := by
  refine find?_eq_of_perm perm ?_ name
  have names : methods.map (·.name) = (program.items.filterMap Item.method?).map (·.name.name) := by
    rw [← List.forall₂_eq_eq_eq, List.forall₂_map_left_iff, List.forall₂_map_right_iff]
    exact ((Env.methods_made made).imp fun _ _ made => Env.method_name made).flip
  rw [names]
  refine distinct.sublist (Item.sublist_names (fun item decl picked => ?_) program.items)
  cases item <;> cases picked
  rfl

theorem Item.moved_same (item : Item) : item.moved id = item := by
  cases item with
  | const decl => rfl
  | vars decl => rw [Item.moved, VarDecl.moved_same]
  | classDecl decl =>
    rw [Item.moved, ClassDecl.moved, map_moved_same VarDecl.moved_same]
    rfl
  | method decl => rw [Item.moved, MethodDecl.moved_same]

theorem Program.Reordered.generate (reordered : p.Reordered q) (distinct : p.Distinct)
    {table other : SymbolTable} {annotations annotations' : Annotations} (sight : other.sight = table.sight)
    (fields : ∀ className, other.fieldsOf className = table.fieldsOf className)
    (types : ∀ id, annotations'.type? id = annotations.type? id) (entry : String) {built : Module}
    (made : p.generate table annotations entry = .ok built) :
    ∃ built', q.generate other annotations' entry = .ok built' ∧ built'.classes = built.classes ∧
      built.statics.Perm built'.statics ∧ ∀ name, built'.method? name = built.method? name := by
  let env : Env := { table, annotations, constants := constantsOf p.items }
  let env' : Env := { table := other, annotations := annotations', constants := constantsOf q.items }
  have alike : env.Alike env' := ⟨sight, types, reordered.constants distinct⟩
  have data : env'.data (q.items.map (·.moved id)) = env.data q.items :=
    Env.data_moved alike (fun className => by rw [fields]) q.items
  have methods : env'.methodsFrom [] (q.items.map (·.moved id)) = env.methodsFrom [] q.items :=
    Env.methodsFrom_moved alike [] q.items
  rw [map_moved_same Item.moved_same] at data methods
  rw [Program.generate_eq] at made
  simp only [bind_eq_ok, pure_eq_ok, Prod.exists] at made
  obtain ⟨classes, statics, kept, bodies, coded, rfl⟩ := made
  obtain ⟨⟨classes', statics'⟩, kept', sameClasses, sameStatics⟩ :=
    Env.data_of_perm reordered.items reordered.classes kept
  obtain ⟨bodies', coded', sameBodies⟩ := Env.methods_of_perm reordered.items coded
  refine ⟨{ name := q.name.name, classes := classes', statics := statics', methods := bodies'
            entry := if bodies'.any (·.name == entry) then some entry else none },
    ?_, sameClasses, sameStatics, distinct.method?_of_perm coded sameBodies⟩
  have kept' : env'.data q.items = .ok (classes', statics') := data.trans kept'
  have coded' : env'.methodsFrom [] q.items = .ok bodies' :=
    methods.trans ((Env.methodsFrom_nil _).trans coded')
  exact bind_eq_ok.mpr ⟨_, kept', bind_eq_ok.mpr ⟨_, coded', rfl⟩⟩

theorem Program.Reordered.symm (reordered : p.Reordered q) : q.Reordered p :=
  ⟨reordered.items.symm, reordered.classes.symm, reordered.name.symm, reordered.span.symm⟩

theorem Program.Reordered.build (reordered : p.Reordered q) (distinct : p.Distinct)
    (nodes : p.annotated.Nodup) (entry : String) {built : Module}
    (made : p.build (p.check entry) entry = .ok built) :
    ∃ built', q.build (q.check entry) entry = .ok built' ∧ built'.classes = built.classes ∧
      built.statics.Perm built'.statics ∧ ∀ name, built'.method? name = built.method? name := by
  obtain ⟨⟨global, alike, alike'⟩, types, errors⟩ := reordered.check distinct nodes entry
  unfold Program.build at made ⊢
  have quiet : (q.check entry).errors.isEmpty = (p.check entry).errors.isEmpty := by
    have size := errors.length_eq
    rw [Array.length_toList, Array.length_toList] at size
    rw [Array.isEmpty, Array.isEmpty, size]
  rw [quiet]
  split at made
  · rename_i empty
    rw [if_pos empty]
    cases generated : p.generate (p.check entry).table (p.check entry).annotations entry with
    | error cause =>
      rw [generated] at made
      cases made
    | ok whole =>
      rw [generated] at made
      cases made
      obtain ⟨built', generated', same⟩ := reordered.generate distinct
        (alike'.sight.trans alike.sight.symm)
        (fun className => (alike'.fieldsOf className).trans (alike.fieldsOf className).symm)
        types entry generated
      rw [generated']
      exact ⟨built', rfl, same⟩
  · cases made

theorem Program.Reordered.annotated {p q : Program} (reordered : p.Reordered q)
    (nodes : p.annotated.Nodup) : q.annotated.Nodup :=
  (reordered.items.flatMap fun _ _ => .refl _).nodup_iff.mp nodes

/-- The order of the items has no say in compilation. -/
theorem Program.compiled_alike_of_reordered (p q : Program) (numbered : p.IsNumbered)
    (distinct : p.Distinct) (reordered : p.Reordered q) (entry : String) :
    (∀ id, (q.check entry).annotations.type? id = (p.check entry).annotations.type? id) ∧
      (p.check entry).errors.toList.Perm (q.check entry).errors.toList ∧
      ((∃ built, p.build (p.check entry) entry = .ok built) ↔
        ∃ built, q.build (q.check entry) entry = .ok built) ∧
      ∀ built built', p.build (p.check entry) entry = .ok built →
        q.build (q.check entry) entry = .ok built' →
        built'.classes = built.classes ∧ built.statics.Perm built'.statics ∧
          ∀ name, built'.method? name = built.method? name := by
  have nodes := Program.annotated_nodup numbered.nodup
  obtain ⟨_, types, errors⟩ := reordered.check distinct nodes entry
  refine ⟨types, errors, ⟨?_, ?_⟩, ?_⟩
  · rintro ⟨built, made⟩
    obtain ⟨built', made', _⟩ := reordered.build distinct nodes entry made
    exact ⟨built', made'⟩
  · rintro ⟨built, made⟩
    obtain ⟨built', made', _⟩ := reordered.symm.build (reordered.distinct distinct)
      (reordered.annotated nodes) entry made
    exact ⟨built', made'⟩
  · intro built built' made made'
    obtain ⟨found, again, same⟩ := reordered.build distinct nodes entry made
    rw [again] at made'
    cases made'
    exact same

def Sample.backward : Program := { Sample.totals with items := Sample.totals.items.reverse }

theorem backward_compiled_alike : Sample.totals.IsNumbered ∧ Sample.totals.Distinct ∧
    Sample.totals.Reordered Sample.backward ∧
    (∀ id, (Sample.backward.check "Main").annotations.type? id =
      (Sample.totals.check "Main").annotations.type? id) ∧
    ∃ built, Sample.backward.build (Sample.backward.check "Main") "Main" = .ok built := by
  obtain ⟨numbered, accepted, _⟩ := Sample.totals_accepted
  obtain ⟨_, built, generated⟩ := Sample.totals_generated
  have distinct : Sample.totals.Distinct := by
    unfold Program.Distinct
    decide
  have reordered : Sample.totals.Reordered Sample.backward :=
    ⟨(List.reverse_perm _).symm, rfl, rfl, rfl⟩
  have built : Sample.totals.build (Sample.totals.check "Main") "Main" = .ok built := by
    rw [Program.build, accepted, generated]
    rfl
  have alike := Program.compiled_alike_of_reordered _ _ numbered distinct reordered "Main"
  exact ⟨numbered, distinct, reordered, alike.1, alike.2.2.1.mp ⟨_, built⟩⟩

end Modules

end StackCode
