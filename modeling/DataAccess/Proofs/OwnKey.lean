import DataAccess.Proofs.Document.Agreement
import DataAccess.Proofs.KeyValue.Agreement
import DataAccess.Proofs.Keyspace
import DataAccess.Proofs.Path.Keys
import DataAccess.Proofs.Path.Lens

/-!
# Objects and their own key filters

A key filter reads the key fields of an object as paths, and a store looks for them as fields of its
records. Both find the same where a name has no marker and no other value stands under the whole of
it instead of below its parts.
-/

namespace DataAccess

namespace Path

variable {steps : List Step}

theorem wellFormed_lookup {root value : Value} (well : root.WellFormed)
    (found : lookup root steps = some value) : value.WellFormed := by
  induction steps generalizing root with
  | nil => exact Option.some.inj found ▸ well
  | cons step rest ih =>
      obtain ⟨child, atStep, below⟩ := Option.bind_eq_some_iff.mp found
      refine ih ?_ below
      cases root with
      | map fields =>
          cases step with
          | key name => exact (Value.wellFormed_map.mp well).2 _ (Dict.mem_of_get? atStep)
          | _ => cases atStep
      | sequence items =>
          cases step with
          | index position => exact Value.wellFormed_sequence.mp well _ (List.mem_of_getElem? atStep)
          | _ => cases atStep
      | _ => cases step <;> cases atStep

end Path

namespace Record

variable {name : String} {root value : Value} {fields row : Record}

/-- The row holds the fields, but for those that are null. -/
def Holds (row fields : Record) : Prop :=
  ∀ key value, Dict.get? fields key = some value → value.isNull = false →
    Dict.get? row key = some value

theorem lookup_of_holds {step : Path.Step} {steps : List Path.Step} (holds : Holds row fields)
    (found : Path.lookup (.map fields) (step :: steps) = some value)
    (present : value.isNull = false) : Path.lookup (.map row) (step :: steps) = some value := by
  obtain ⟨child, atStep, below⟩ := Option.bind_eq_some_iff.mp found
  cases step with
  | key name =>
      -- Nothing is below a null, so the row has not dropped the first value on the way.
      have childPresent : child.isNull = false := by
        cases child with
        | null =>
            cases steps with
            | nil => exact Option.some.inj below ▸ present
            | cons next rest =>
                rw [Path.lookup_null] at below
                cases below
        | _ => rfl
      exact Option.bind_eq_some_iff.mpr ⟨child, holds name child atStep childPresent, below⟩
  | index position => cases atStep
  | append => cases atStep

/-- What a path of keys finds in the fields is found in the row under its name, unless another value
goes by the whole name. -/
theorem field?_of_lookup (holds : Holds row fields)
    (found : Path.lookup (.map fields) ((nameParts name).map .key) = some value)
    (present : value.isNull = false)
    (unshadowed : '.' ∈ name.toList → Dict.get? row name = none ∨ Dict.get? row name = some value) :
    field? row name = some value := by
  have inRow : Path.lookup (.map row) ((nameParts name).map .key) = some value := by
    cases parts : nameParts name with
    | nil => exact absurd (List.map_eq_nil_iff.mp parts) (List.splitOn_ne_nil _ _)
    | cons part rest =>
        rw [parts] at found
        exact lookup_of_holds holds found present
  by_cases dotted : '.' ∈ name.toList
  · rcases unshadowed dotted with absent | same
    · simp only [field?, absent]
      exact descend_of_lookup inRow
    · simp only [field?, same]
  · have below := descend_of_lookup inRow
    rw [nameParts, List.splitOn_eq_singleton dotted] at below
    rw [field?_undotted dotted]
    simpa [descend, part?] using below

end Record

theorem BusinessObject.lookup_of_get {object : BusinessObject} {name : String} {value : Value}
    (found : object.get name = .ok (some value)) :
    ∃ steps, Path.parse name = .ok steps ∧ Path.lookup object.root steps = some value ∧
      value.isNull = false := by
  obtain ⟨steps, parsed, read⟩ := bind_eq_ok.mp found
  split at read
  · cases read
  · refine ⟨steps, parsed, ?_⟩
    split at read
    · cases read
    · cases read
    · rename_i other present located
      cases read
      refine ⟨located, ?_⟩
      cases value with
      | null => exact absurd rfl present
      | _ => rfl

theorem BusinessObject.attribute?_of_get {object : BusinessObject} {name : String} {value : Value}
    (found : object.get name = .ok (some value)) : object.attribute? name = some value := by
  simp only [attribute?, found]

namespace Record

variable {object : BusinessObject} {row fields : Record} {name : String} {value : Value}

/-- Under the name of one of the object's attributes, the row has a value that is equal to it. -/
def Finds (row : Record) (object : BusinessObject) (name : String) : Prop :=
  ∃ stored value, field? row name = some stored ∧ object.attribute? name = some value ∧
    stored.equal value = true

/-- The name has no marker, and no value but the object's stands in the row under all of a name with
points. -/
structure Addresses (row : Record) (object : BusinessObject) (name : String) : Prop where
  unopened : '[' ∉ name.toList
  unshadowed : '.' ∈ name.toList →
    Dict.get? row name = none ∨ Dict.get? row name = object.attribute? name

instance (row : Record) (object : BusinessObject) (name : String) :
    Decidable (Addresses row object name) :=
  decidable_of_iff ('[' ∉ name.toList ∧ ('.' ∈ name.toList →
      Dict.get? row name = none ∨ Dict.get? row name = object.attribute? name))
    ⟨fun ⟨unopened, unshadowed⟩ => { unopened, unshadowed },
      fun addresses => ⟨addresses.unopened, addresses.unshadowed⟩⟩

theorem finds_iff (found : object.get name = .ok (some value)) : Finds row object name ↔
    ∃ stored, field? row name = some stored ∧ stored.equal value = true := by
  have own := BusinessObject.attribute?_of_get found
  constructor
  · rintro ⟨stored, other, atName, same, equal⟩
    cases own.symm.trans same
    exact ⟨stored, atName, equal⟩
  · rintro ⟨stored, atName, equal⟩
    exact ⟨stored, value, atName, own, equal⟩

theorem finds_of_addresses (root : object.root = .map fields) (well : object.root.WellFormed)
    (holds : Holds row fields) (found : object.get name = .ok (some value))
    (addresses : Addresses row object name) : Finds row object name := by
  obtain ⟨steps, parsed, located, present⟩ := BusinessObject.lookup_of_get found
  have itself := Value.equal_refl (Path.wellFormed_lookup well located)
  rw [root, Path.parse_unopened addresses.unopened parsed] at located
  have own := BusinessObject.attribute?_of_get found
  refine (finds_iff found).mpr ⟨value, field?_of_lookup holds located present ?_, itself⟩
  intro dotted
  exact own ▸ addresses.unshadowed dotted

end Record

theorem Document.testHolds_equal {row : Record} {name : String} {value : Value}
    (present : value.isNull = false) :
    testHolds row (.compare name .equal value) = true ↔
      ∃ stored, Record.field? row name = some stored ∧ stored.equal value = true := by
  simp only [testHolds, compares]
  cases Record.field? row name with
  | none => simp [equals, present]
  | some stored => simp [equals]

theorem KeyValue.testHolds_equal {item : Record} {name : String} {value : Value} :
    testHolds item (.compare name .equal value) = true ↔
      ∃ stored, Record.field? item name = some stored ∧ stored.equal value = true := by
  simp only [testHolds, Condition.comparisonHolds]
  cases Record.field? item name with
  | none => simp
  | some stored =>
      cases compared : stored.compare? value with
      | none => simp [Value.equal, compared]
      | some order => cases order <;> simp [Value.equal, compared, Comparison.accepts]

theorem Filter.evaluate_ownClause {object : BusinessObject} {name : String} {value : Value}
    (well : object.root.WellFormed) (found : object.get name = .ok (some value)) :
    evaluate object (PrimaryKey.ownClause object name) = true := by
  obtain ⟨steps, _, located, present⟩ := BusinessObject.lookup_of_get found
  have itself := Value.equal_refl (Path.wellFormed_lookup well located)
  have compared : value.compare? value = some .eq := eq_of_beq itself
  simp [PrimaryKey.ownClause, evaluate, BusinessObject.attribute?_of_get found, comparisonHolds,
    present, compared, Comparison.accepts]

theorem Record.holds_filterValues {fields : Record} (distinct : Dict.Distinct fields) :
    Holds (Dict.filterValues (!·.isNull) fields) fields := by
  intro key value found present
  rw [Dict.get?_filterValues _ distinct, found]
  exact Option.filter_some_pos (by simp [present])

section

variable {object : BusinessObject} {row : Record} {storage name : String} {value : Value}
variable (found : object.get name = .ok (some value))

include found

theorem ownClause_rename {columnOf : String → String} (identity : ∀ field, columnOf field = field) :
    (PrimaryKey.ownClause object name).rename columnOf = .compare name .equal value := by
  simp only [PrimaryKey.ownClause, Filter.rename, identity, BusinessObject.attribute?_of_get found,
    Option.getD_some]

theorem Document.testHolds_ownClause {columnOf : String → String}
    (identity : ∀ field, columnOf field = field) :
    testHolds row ((PrimaryKey.ownClause object name).rename columnOf) = true ↔
      row.Finds object name := by
  obtain ⟨_, _, _, present⟩ := BusinessObject.lookup_of_get found
  rw [ownClause_rename found identity, testHolds_equal present, Record.finds_iff found]

theorem KeyValue.testHolds_ownClause {columnOf : String → String}
    (identity : ∀ field, columnOf field = field) :
    testHolds row ((PrimaryKey.ownClause object name).rename columnOf) = true ↔
      row.Finds object name := by
  rw [ownClause_rename found identity, testHolds_equal, Record.finds_iff found]

end

/-- The filter that a primary key gives for an object holds of the object. Where fields are stored
under their own names, its condition and its query hold of the object's row exactly when the row has
equal values under the names of all key fields, as it has under names without markers for which no
other value stands. -/
theorem own_key_finds_row {primary : PrimaryKey} {storage : String} {object : BusinessObject}
    {fields : Record} {filter : Filter} (keyed : primary.filter storage object = .ok filter)
    (root : object.root = .map fields) (well : object.root.WellFormed) :
    filter.evaluate object = true ∧
      (∀ dao : KeyValueDao, (∀ field, dao.mapper.columnOf storage field = field) →
        ∃ condition item, dao.condition storage (some filter) = .ok (some condition) ∧
          dao.mapper.toRow storage object = .ok item ∧
          (condition.evaluate item = true ↔
            ∀ name ∈ primary.fieldsOf storage, item.Finds object name) ∧
          ((∀ name ∈ primary.fieldsOf storage, item.Addresses object name) →
            condition.evaluate item = true)) ∧
      ∀ dao : DocumentDao, (∀ field, dao.mapper.columnOf storage field = field) →
        (∀ name ∈ primary.fieldsOf storage, Document.isOperator name = false) →
        ∃ query row, dao.query storage (some filter) = .ok query ∧
          dao.mapper.toRow storage object = .ok row ∧
          (Document.matches? row query = .ok true ↔
            ∀ name ∈ primary.fieldsOf storage, row.Finds object name) ∧
          ((∀ name ∈ primary.fieldsOf storage, row.Addresses object name) →
            Document.matches? row query = .ok true) := by
  obtain ⟨found, -⟩ := PrimaryKey.filter_eq_ok keyed
  have valid := PrimaryKey.validate_filter keyed
  have distinct : Dict.Distinct fields := (Value.wellFormed_map.mp (root ▸ well)).1
  refine ⟨?_, ?_, ?_⟩
  · rw [Filter.evaluate_eq_combine, PrimaryKey.combine_filter keyed]
    intro name member
    obtain ⟨value, ofName⟩ := found name member
    exact Filter.evaluate_ownClause well ofName
  · intro dao identity
    obtain ⟨condition, compiled, evaluated⟩ := @KeyValueDao.exists_condition dao storage filter valid
    have exactly : condition.evaluate (Dict.filterValues (!·.isNull) fields) = true ↔
        ∀ name ∈ primary.fieldsOf storage,
          Record.Finds (Dict.filterValues (!·.isNull) fields) object name := by
      rw [evaluated, PrimaryKey.combine_filter keyed]
      exact forall₂_congr fun name member =>
        KeyValue.testHolds_ownClause (found name member).choose_spec identity
    refine ⟨condition, _, compiled, ?_, exactly, fun addressed => exactly.mpr fun name member => ?_⟩
    · simp only [RowMapper.toRow, RowMapper.toColumns_of_identity root distinct identity]
      rfl
    · exact Record.finds_of_addresses root well (Record.holds_filterValues distinct)
        (found name member).choose_spec (addressed name member)
  · intro dao identity ordinary
    obtain ⟨query, compiled, matched⟩ := @DocumentDao.exists_query dao storage filter valid (by
      rw [PrimaryKey.fields_filter keyed]
      exact fun name member => (identity name).symm ▸ ordinary name member)
    have exactly : Document.matches? fields query = .ok true ↔
        ∀ name ∈ primary.fieldsOf storage, Record.Finds fields object name := by
      rw [matched, Except.ok.injEq, PrimaryKey.combine_filter keyed]
      exact forall₂_congr fun name member =>
        Document.testHolds_ownClause (found name member).choose_spec identity
    refine ⟨query, _, compiled, ?_, exactly, fun addressed => exactly.mpr fun name member => ?_⟩
    · simp only [RowMapper.toRow, RowMapper.toColumns_of_identity root distinct identity]
      rfl
    · exact Record.finds_of_addresses root well (fun _ _ held _ => held)
        (found name member).choose_spec (addressed name member)

def keyedBy (field : String) : DocumentDao := { key := PrimaryKey.filter { fields := [field] } }

def itemsBy (field : String) : KeyValueDao := { key := PrimaryKey.filter { fields := [field] } }

def tenant : Record :=
  [("flat", .map [("number", .string "3")]), ("name", .string "Ada"), ("tags", .null)]

theorem tenant_is_found_by_flat :
    Value.WellFormed (.map tenant) ∧
      (Filter.compare "flat.number" .equal (.string "3")).evaluate { root := .map tenant } = true ∧
      ∃ query row,
        (keyedBy "flat.number").query "tenants"
          (some (.compare "flat.number" .equal (.string "3"))) = .ok query ∧
        (keyedBy "flat.number").mapper.toRow "tenants" { root := .map tenant } = .ok row ∧
        Document.matches? row query = .ok true := by
  have well : Value.WellFormed (.map tenant) :=
    ⟨by decide, ⟨by decide, trivial, trivial⟩, trivial, trivial, trivial⟩
  have keyed : PrimaryKey.filter { fields := ["flat.number"] } "tenants" { root := .map tenant } =
      .ok (.compare "flat.number" .equal (.string "3")) := rfl
  obtain ⟨evaluated, -, documents⟩ := own_key_finds_row keyed rfl well
  obtain ⟨query, row, compiled, mapped, -, found⟩ :=
    documents (keyedBy "flat.number") (fun _ => rfl) (by decide)
  cases mapped
  exact ⟨well, evaluated, query, _, compiled, rfl, found (by decide)⟩

def tagged : BusinessObject := { root := .map [("tags", .sequence [.string "x"])] }

def shadowed : BusinessObject :=
  { root := .map [("a", .map [("b", .string "1")]), ("a.b", .string "2")] }

def priced : BusinessObject := { root := .map [("$k", .string "x")] }

/-- Markers, and fields that go by the whole name of another, keep records from being found by their
own keys; names of operators keep documents from being looked for. -/
theorem own_keys_miss_rows :
    (∃ query row, (keyedBy "tags[0]").prepare "tenants" tagged = .ok (query, row) ∧
      Document.matches? row query = .ok false) ∧
    (∃ condition item,
      (itemsBy "tags[0]").condition "tenants" (some (.compare "tags[0]" .equal (.string "x"))) =
        .ok (some condition) ∧
      (itemsBy "tags[0]").mapper.toRow "tenants" tagged = .ok item ∧
      condition.evaluate item = false) ∧
    (∃ query row, (keyedBy "a.b").prepare "tenants" shadowed = .ok (query, row) ∧
      Document.matches? row query = .ok false) ∧
    (∃ condition item,
      (itemsBy "a.b").condition "tenants" (some (.compare "a.b" .equal (.string "1"))) =
        .ok (some condition) ∧
      (itemsBy "a.b").mapper.toRow "tenants" shadowed = .ok item ∧
      condition.evaluate item = false) ∧
    ∃ query row, (keyedBy "$k").prepare "tenants" priced = .ok (query, row) ∧
      Document.matches? row query = .error (.invalidQuery (.topLevelOperator "$k")) :=
  ⟨⟨_, _, rfl, rfl⟩, ⟨_, _, rfl, rfl, rfl⟩, ⟨_, _, rfl, rfl⟩, ⟨_, _, rfl, rfl, rfl⟩,
    ⟨_, _, rfl, rfl⟩⟩

end DataAccess
