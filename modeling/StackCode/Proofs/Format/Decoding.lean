import StackCode.Proofs.Format.Codec

namespace StackCode.Schema

open Json (Document Items Members Numeral ReadAs)

variable {κ : Type} {schema : Schema κ}

section Leaves

variable {document : Document}

theorem decodeInt_of_quantity {leaf : Leaf} {least most n : Int} {numeral : Numeral}
    (value : numeral.quantity = some (.int n)) (low : least ≤ n) (high : n ≤ most) :
    decodeInt leaf least most numeral = .ok (.int n) := by
  rw [decodeInt, value]
  exact if_pos ⟨low, high⟩

theorem decodeChar_singleton (c : Char) : decodeChar (String.singleton c) = .ok (.char c) := by
  rw [decodeChar, String.toList_singleton]

theorem decodeLeaf_scalar {leaf : Leaf} {datum : Datum} (admits : leaf.Admits datum)
    (read : datum.scalar.ReadAs document) : decodeLeaf leaf document = .ok datum := by
  cases leaf <;> cases datum <;> try exact admits.elim
  all_goals cases read
  case int64.int value | word32.int value => exact decodeInt_of_quantity value admits.1 admits.2
  case float.float value => rw [decodeLeaf, value]
  case bool.bool | text.str | unit.null => rfl
  case char.str => exact decodeChar_singleton _

theorem decode_leaf (depth : Nat) (leaf : Leaf) (document : Document) :
    decode schema depth (.leaf leaf) document = decodeLeaf leaf document := by
  cases document <;> cases depth <;> rfl

theorem decode_name {depth : Nat} {choice name : String} {variants : List (Variant κ)}
    {variant : Variant κ} (found : variants.find? (·.name == name) = some variant)
    (bare : variant.payload = .unit) :
    decode schema depth (.choice choice variants) (.string (.ok name)) = .ok (.variant name .unit) := by
  obtain ⟨own, kind⟩ := variant
  subst bare
  change decodeName variants name = _
  rw [decodeName, found]

theorem decode_broken (depth : Nat) (view : View κ) (what : Json.Break) (datum : Datum) :
    decode schema depth view (.broken what) ≠ .ok datum := by
  cases view with
  | leaf kind =>
    rw [decode_leaf]
    cases kind <;> exact nofun
  | _ => exact nofun

end Leaves

section Records

variable {document : Document} {fields : List (Field κ)} {field : Field κ}

def decodeField (schema : Schema κ) (depth : Nat) (field : Field κ) (document : Document) :
    Except Fault Datum :=
  match field.nullable, decodeNull document with
  | true, some result => result
  | _, _ => decode schema depth (field.shape.view schema) document

theorem decodeField_iff {depth : Nat} {value : Datum} :
    decodeField schema depth field document = .ok value ↔
      FieldReads schema (decode schema depth) field document value := by
  cases nullable : field.nullable with
  | false => simp [decodeField, FieldReads, nullable]
  | true =>
    rw [decodeField, nullable, FieldReads, nullable]
    cases document with
    | null => simp [decodeNull, eq_comm]
    | broken what =>
      have fails := @decode_broken κ schema depth (field.shape.view schema) what value
      cases what <;> simp [decodeNull, fails]
    | _ => simp [decodeNull]

theorem decodeFields_item (depth : Nat) (want : Want) (size position : Nat) (field : Field κ)
    (fields : List (Field κ)) (document : Document) (rest : Items) :
    decodeFields schema depth want size position (field :: fields) (.item document rest) = (do
      let first ← decodeField schema depth field document
      return first :: (← decodeFields schema depth want size (position + 1) fields rest)) := by
  rw [decodeFields, decodeField]
  cases field.nullable <;> cases decodeNull document <;> rfl

variable {found : List (String × Datum)}

theorem decodeMembers_member {depth : Nat} {key : String} {rest : Members}
    (known : fields.find? (·.name == key) = some field) (fresh : found.any (·.1 == key) = false) :
    decodeMembers schema depth fields found (.member (.ok key) document rest) = (do
      let first ← decodeField schema depth field document
      decodeMembers schema depth fields ((key, first) :: found) rest) := by
  rw [decodeMembers, known, decodeField]
  simp only [fresh]
  cases field.nullable <;> cases decodeNull document <;> rfl

theorem find?_name_eq (distinct : (fields.map (·.name)).Nodup) (member : field ∈ fields) :
    fields.find? (·.name == field.name) = some field := by
  induction fields with
  | nil => cases member
  | cons first fields ih =>
    rw [List.map_cons, List.nodup_cons] at distinct
    rcases List.mem_cons.mp member with rfl | member
    · exact List.find?_cons_of_pos (beq_self_eq_true _)
    · rw [List.find?_cons_of_neg]
      · exact ih distinct.2 member
      · intro same
        exact distinct.1 (beq_iff_eq.mp same ▸ List.mem_map_of_mem member)

/-- With all fields in their order, the members of an object are read as the items of an array are. -/
theorem decodeMembers_ofList (depth : Nat) (want : Want) (size : Nat) {all : List (Field κ)} :
    ∀ {fields : List (Field κ)} {documents : List Document} {found : List (String × Datum)}
      (position : Nat), fields.length = documents.length →
      (∀ field ∈ fields, all.find? (·.name == field.name) = some field) →
      (fields.map (·.name)).Nodup → (∀ field ∈ fields, found.any (·.1 == field.name) = false) →
      decodeMembers schema depth all found (.ofList ((fields.map (·.name)).zip documents)) = (do
        let values ← decodeFields schema depth want size position fields (.ofList documents)
        return ((fields.map (·.name)).zip values).reverse ++ found)
  | [], [], _, _, _, _, _, _ => rfl
  | field :: fields, document :: documents, found, position, count, known, distinct, fresh => by
    rw [List.map_cons, List.nodup_cons] at distinct
    rw [List.map_cons, List.zip_cons_cons, Members.ofList, Items.ofList, decodeFields_item,
      decodeMembers_member (known field List.mem_cons_self) (fresh field List.mem_cons_self)]
    cases decodeField schema depth field document with
    | error fault => rfl
    | ok first =>
      have apart : ∀ other ∈ fields, ((field.name, first) :: found).any (·.1 == other.name) = false := by
        intro other member
        rw [List.any_cons, fresh other (List.mem_cons_of_mem _ member), Bool.or_false]
        have apart : field.name ≠ other.name := fun same =>
          distinct.1 (same ▸ List.mem_map_of_mem member)
        exact beq_false_of_ne apart
      have rest := decodeMembers_ofList depth want size (position + 1) (Nat.succ.inj count)
        (fun other member => known other (List.mem_cons_of_mem _ member)) distinct.2 apart
      refine rest.trans ?_
      cases decodeFields schema depth want size (position + 1) fields (.ofList documents) with
      | error fault => rfl
      | ok values => simp [bind, Except.bind, pure, Except.pure]

theorem decodeFields_iff (depth : Nat) (want : Want) (size : Nat) :
    ∀ (position : Nat) {fields : List (Field κ)} {documents : List Document} {values : List Datum},
      fields.length = documents.length →
      (decodeFields schema depth want size position fields (.ofList documents) = .ok values ↔
        FieldsRead schema (decode schema depth) fields documents values)
  | _, [], [], values, _ => by
    cases values <;> simp [Items.ofList, decodeFields, decodeAbsent, FieldsRead]
  | _, field :: fields, document :: documents, [], count => by
    rw [Items.ofList, decodeFields_item]
    cases decodeField schema depth field document <;>
      cases decodeFields schema depth want size _ fields (.ofList documents) <;>
      simp [FieldsRead, bind, Except.bind, pure, Except.pure]
  | position, field :: fields, document :: documents, value :: values, count => by
    rw [Items.ofList, decodeFields_item, FieldsRead, ← decodeField_iff,
      ← decodeFields_iff depth want size (position + 1) (Nat.succ.inj count)]
    cases decodeField schema depth field document <;>
      cases decodeFields schema depth want size (position + 1) fields (.ofList documents) <;>
      simp [bind, Except.bind, pure, Except.pure]

theorem FieldsRead.length_eq {reads : View κ → Document → Except Fault Datum} :
    ∀ {fields : List (Field κ)} {documents : List Document} {values : List Datum},
      FieldsRead schema reads fields documents values → fields.length = values.length
  | [], [], [], _ => rfl
  | _ :: _, _ :: _, _ :: _, read => congrArg Nat.succ read.2.length_eq

theorem lookup_of_mem {found : List (String × Datum)} (distinct : (found.map Prod.fst).Nodup)
    {name : String} {value : Datum} (member : (name, value) ∈ found) : found.lookup name = some value := by
  induction found with
  | nil => cases member
  | cons first found ih =>
    rw [List.map_cons, List.nodup_cons] at distinct
    rcases List.mem_cons.mp member with rfl | member
    · exact List.lookup_cons_self
    · have apart : name ≠ first.1 := fun same =>
        distinct.1 (same ▸ List.mem_map.mpr ⟨_, member, rfl⟩)
      rw [List.lookup_cons, beq_false_of_ne apart]
      exact ih distinct.2 member

theorem assemble_of_lookup {values : List Datum}
    (each : List.Forall₂ (fun field value => found.lookup field.name = some value) fields values) :
    assemble found fields = .ok values := by
  induction each with
  | nil => rfl
  | cons head _ ih =>
    rw [assemble, head, ih]
    rfl

theorem assemble_zip {values : List Datum} (distinct : (fields.map (·.name)).Nodup)
    (count : fields.length = values.length) :
    assemble (((fields.map (·.name)).zip values).reverse ++ []) fields = .ok values := by
  refine assemble_of_lookup (List.forall₂_iff_zip.mpr ⟨count, fun {field value} member => ?_⟩)
  rw [List.append_nil]
  refine lookup_of_mem ?_ (List.mem_reverse.mpr ?_)
  · rw [List.map_reverse, List.map_fst_zip (by simp [count])]
    exact List.nodup_reverse.mpr distinct
  · rw [List.zip_map_left]
    exact List.mem_map.mpr ⟨_, member, rfl⟩

end Records

theorem decodeItems_iff {depth : Nat} {view : View κ} {documents : List Document} {items : List Datum} :
    decodeItems schema depth view (.ofList documents) = .ok items ↔
      List.Forall₂ (fun document datum => decode schema depth view document = .ok datum)
        documents items := by
  induction documents generalizing items with
  | nil => cases items <;> simp [Items.ofList, decodeItems]
  | cons document documents ih =>
    rw [Items.ofList, decodeItems, List.forall₂_cons_left_iff]
    simp only [← ih]
    cases decode schema depth view document <;>
      cases decodeItems schema depth view (.ofList documents) <;>
      simp [bind, Except.bind, pure, Except.pure, eq_comm]

theorem encodeItems_eq_map (view : View κ) (items : List Datum) :
    encodeItems schema view items = items.map (encode schema view) := by
  induction items with
  | nil => rw [encodeItems, List.map_nil]
  | cons item items ih => rw [encodeItems, ih, List.map_cons]

theorem encodeFields_eq_zipWith : ∀ (fields : List (Field κ)) (values : List Datum),
    encodeFields schema fields values = List.zipWith (fun field value =>
      (field.name, encode schema (field.shape.view schema) value)) fields values
  | [], _ => by simp [encodeFields]
  | _ :: _, [] => by simp [encodeFields]
  | field :: fields, value :: values => by
    rw [encodeFields, encodeFields_eq_zipWith fields values, List.zipWith_cons_cons]

/-- The running code reads and writes every format as it is taken to. -/
def codec (schema : Schema κ) : Codec schema where
  encode := encode schema
  decode := decode schema
  limit := depthLimit
  encode_leaf {leaf datum} admits := by
    cases leaf <;> cases datum <;> first | exact admits.elim | rfl
  encode_absent _ := rfl
  encode_list item items := by rw [encode, encodeItems_eq_map]
  encode_pair _ _ _ _ := by rw [encode]
  encode_record want {fields values} _ := by rw [encode, encodeFields_eq_zipWith]
  encode_name choice {variants name variant} payload found bare := by
    obtain ⟨own, kind⟩ := variant
    subst bare
    rw [encode, found]
  encode_payload choice {variants name variant} payload found full := by
    obtain ⟨own, kind⟩ := variant
    rw [encode, found]
    cases kind with
    | unit => exact absurd rfl full
    | value shape => rfl
    | fields list => rfl
  decode_leaf depth {leaf datum document} admits read := by
    rw [decode_leaf, decodeLeaf_scalar admits read]
  decode_name depth choice {variants name variant} found bare := decode_name found bare
  shut_array view items datum := by
    cases view with
    | leaf kind =>
      rw [decode_leaf]
      cases kind <;> exact nofun
    | _ => exact nofun
  shut_object view members datum := by
    cases view with
    | leaf kind =>
      rw [decode_leaf]
      cases kind <;> exact nofun
    | _ => exact nofun
  decode_list depth item documents datum := by
    simp only [← decodeItems_iff, decode]
    cases decodeItems schema depth (item.view schema) (.ofList documents) <;>
      simp [bind, Except.bind, pure, Except.pure, eq_comm]
  decode_pair depth first second x y datum := by
    rw [decode, Items.ofList, Items.ofList, decodeFields_item, decodeFields_item]
    simp only [decodeField]
    cases decode schema depth (first.view schema) x <;> cases decode schema depth (second.view schema) y <;>
      simp [bind, Except.bind, pure, Except.pure, Items.ofList, decodeFields, decodeAbsent, eq_comm]
  decode_array depth want {fields documents} datum count := by
    simp only [← decodeFields_iff depth want fields.length 0 count, decode]
    cases decodeFields schema depth want fields.length 0 fields (.ofList documents) <;>
      simp [bind, Except.bind, pure, Except.pure, eq_comm]
  decode_object depth want {fields documents} datum count distinct := by
    have all := @decodeMembers_ofList κ schema depth want fields.length fields fields documents [] 0
      count (fun field member => find?_name_eq distinct member) distinct (fun _ _ => rfl)
    simp only [← decodeFields_iff depth want fields.length 0 count, decode, all]
    cases read : decodeFields schema depth want fields.length 0 fields (.ofList documents) with
    | error fault => simp [bind, Except.bind]
    | ok values =>
      have same := assemble_zip distinct ((decodeFields_iff _ _ _ _ count).mp read).length_eq
      rw [List.append_nil] at same
      simp [bind, Except.bind, pure, Except.pure, same, eq_comm]
  decode_payload depth choice {variants name variant} document datum found := by
    rw [Members.ofList, Members.ofList, decode, decodeChoice, found]
    cases read : decode schema depth (variant.payload.view schema choice name) document <;>
      simp [bind, Except.bind, pure, Except.pure, closeChoice, read, eq_comm]

end StackCode.Schema
