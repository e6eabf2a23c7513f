import DataAccess.Proofs.Document.Agreement
import DataAccess.Proofs.KeyValue.Agreement
import DataAccess.Proofs.Path.Keys

/-!
# Tests for null

A test for null asks an object what the path of its field leads to. Documents hold what the object
holds, and give the same answer. Items lack the nulls of the object at the top level, so they are
asked whether anything is there; but they keep nulls that are nested, and those count as present.
-/

namespace DataAccess

/-- A name with points leads to a null. -/
def BusinessObject.NestedNull (object : BusinessObject) (name : String) : Prop :=
  '.' ∈ name.toList ∧ (Path.parse name).toOption.bind (Path.lookup object.root) = some .null

instance (object : BusinessObject) (name : String) : Decidable (object.NestedNull name) :=
  inferInstanceAs (Decidable (_ ∧ _))

section

variable {object : BusinessObject} {fields : Record} {name storage : String}
variable (undotted : ∀ key ∈ Dict.keys fields, '.' ∉ key.toList)

include undotted

/-- At the top level an item lacks the nulls; below it has what the fields have. -/
theorem Record.field?_filterValues (distinct : Dict.Distinct fields) (name : String) :
    field? (Dict.filterValues (!·.isNull) fields) name =
      if '.' ∈ name.toList then field? fields name
      else (field? fields name).filter (!·.isNull) := by
  split
  · rename_i dotted
    have keys : ∀ key ∈ Dict.keys (Dict.filterValues (!·.isNull) fields), '.' ∉ key.toList :=
      fun key listed => undotted key ((List.Sublist.map _ List.filter_sublist).mem listed)
    obtain ⟨first, second, rest, parts⟩ := nameParts_of_dotted dotted
    rw [field?_eq_descend keys, field?_eq_descend undotted, parts, descend, descend, part?, part?,
      Dict.get?_filterValues _ distinct]
    -- What is dropped is null, and nothing is below a null.
    rcases Dict.get? fields first with _ | value
    · rfl
    · cases value <;> rfl
  · rename_i single
    rw [field?_undotted single, field?_undotted single, Dict.get?_filterValues _ distinct]

variable (root : object.root = .map fields) (keys : Path.OfKeys name)

include root keys

theorem lookup_ofKeys :
    (Path.parse name).toOption.bind (Path.lookup object.root) = Record.field? fields name := by
  rw [Path.parse_ofKeys keys, root, Record.field?_eq_descend undotted]
  exact Record.lookup_eq_descend keys.unnumbered (.map fields)

theorem attribute?_ofKeys :
    object.attribute? name = (Record.field? fields name).filter (!·.isNull) := by
  have reads : Path.Step.append ∉ (Record.nameParts name).map Path.Step.key := by simp
  rw [← lookup_ofKeys undotted root keys, Path.parse_ofKeys keys]
  simp only [BusinessObject.attribute?, BusinessObject.get_of_parse (Path.parse_ofKeys keys) reads]
  rfl

variable {test : Filter} (ofNull : test = .isNull name ∨ test = .isNotNull name)

include ofNull

theorem Document.testHolds_ofNull : testHolds fields test = test.evaluate object := by
  rcases ofNull with rfl | rfl
  · rw [testHolds, equals_null, Filter.evaluate, attribute?_ofKeys undotted root keys]
  · rw [testHolds, equals_null, Filter.evaluate, attribute?_ofKeys undotted root keys,
      Option.not_isNone]

theorem KeyValue.testHolds_ofNull_iff (distinct : Dict.Distinct fields) :
    testHolds (Dict.filterValues (!·.isNull) fields) test = test.evaluate object ↔
      ¬ object.NestedNull name := by
  have there : (Record.field? (Dict.filterValues (!·.isNull) fields) name).isSome =
      (object.attribute? name).isSome ↔ ¬ object.NestedNull name := by
    rw [BusinessObject.NestedNull, lookup_ofKeys undotted root keys,
      attribute?_ofKeys undotted root keys, Record.field?_filterValues undotted distinct]
    by_cases dotted : '.' ∈ name.toList
    · rcases Record.field? fields name with _ | value
      · simp [dotted]
      · cases value <;> simp [dotted, Value.isNull]
    · simp [dotted]
  rcases ofNull with rfl | rfl
  · rw [testHolds, Filter.evaluate, ← there, ← Option.not_isSome, ← Option.not_isSome, Bool.not_inj_iff]
  · exact there

end

/-- A test for null or its opposite gives the same answer for objects and their documents. For items
it does unless a null is nested: the name has points and its path leads to a null. -/
theorem null_tests_agree_but_for_nested_nulls {object : BusinessObject} {fields : Record}
    {name storage : String} {test : Filter} (root : object.root = .map fields)
    (distinct : Dict.Distinct fields) (undotted : ∀ key ∈ Dict.keys fields, '.' ∉ key.toList)
    (keys : Path.OfKeys name) (ordinary : Document.isOperator name = false)
    (ofNull : test = .isNull name ∨ test = .isNotNull name) :
    (∀ dao : DocumentDao, (∀ field, dao.mapper.columnOf storage field = field) →
      ∃ query row, dao.query storage (some test) = .ok query ∧
        dao.mapper.toRow storage object = .ok row ∧
        Document.matches? row query = .ok (test.evaluate object)) ∧
    ∀ dao : KeyValueDao, (∀ field, dao.mapper.columnOf storage field = field) →
      ∃ condition item, dao.condition storage (some test) = .ok (some condition) ∧
        dao.mapper.toRow storage object = .ok item ∧
        (condition.evaluate item = test.evaluate object ↔ ¬ object.NestedNull name) := by
  have valid : test.validate = .ok () := by
    rcases ofNull with rfl | rfl <;> rfl
  have unnamed (columnOf : String → String) (identity : ∀ field, columnOf field = field) :
      test.rename columnOf = test := by
    rcases ofNull with rfl | rfl <;> rw [Filter.rename, identity]
  have alone (holds : Filter → Bool) : test.combine holds = holds test := by
    rcases ofNull with rfl | rfl <;> rfl
  constructor
  · intro dao identity
    obtain ⟨query, compiled, matched⟩ := @DocumentDao.exists_query dao storage test valid (by
      rcases ofNull with rfl | rfl <;>
        simpa [Filter.fields, Filter.tests, Filter.testFields, identity] using ordinary)
    refine ⟨query, fields, compiled, ?_, ?_⟩
    · simp only [RowMapper.toRow, RowMapper.toColumns_of_identity root distinct identity]
      rfl
    · rw [matched, alone, unnamed _ identity, Document.testHolds_ofNull undotted root keys ofNull]
  · intro dao identity
    obtain ⟨condition, compiled, evaluated⟩ := @KeyValueDao.exists_condition dao storage test valid
    refine ⟨condition, Dict.filterValues (!·.isNull) fields, compiled, ?_, ?_⟩
    · simp only [RowMapper.toRow, RowMapper.toColumns_of_identity root distinct identity]
      rfl
    · rw [evaluated, alone, unnamed _ identity]
      exact KeyValue.testHolds_ofNull_iff undotted root keys ofNull distinct

def residents : KeyValueDao := { key := PrimaryKey.filter { fields := ["id"] } }

def residentDocuments : DocumentDao := { key := PrimaryKey.filter { fields := ["id"] } }

def resident : Record :=
  [("id", .string "1"), ("address", .map [("city", .string "Bath"), ("street", .null)])]

theorem known_city_is_there :
    ¬ BusinessObject.NestedNull { root := .map resident } "address.city" ∧
      ∃ condition item,
        residents.condition "residents" (some (.isNotNull "address.city")) = .ok (some condition) ∧
        residents.mapper.toRow "residents" { root := .map resident } = .ok item ∧
        condition.evaluate item = true := by
  have known : ¬ BusinessObject.NestedNull { root := .map resident } "address.city" := by decide
  obtain ⟨-, items⟩ := @null_tests_agree_but_for_nested_nulls { root := .map resident } resident
    "address.city" "residents" (.isNotNull "address.city") rfl (by decide) (by decide) (by decide)
    (by decide) (.inr rfl)
  obtain ⟨condition, item, compiled, mapped, agrees⟩ := items residents fun _ => rfl
  refine ⟨known, condition, item, compiled, mapped, ?_⟩
  rw [agrees.mpr known]
  rfl

/-- The street is null for the object and for its document, but not for its item. -/
theorem null_street_counts_as_present :
    (Filter.isNull "address.street").evaluate { root := .map resident } = true ∧
      (∃ query row,
        residentDocuments.query "residents" (some (.isNull "address.street")) = .ok query ∧
        residentDocuments.mapper.toRow "residents" { root := .map resident } = .ok row ∧
        Document.matches? row query = .ok true) ∧
      ∃ condition item,
        residents.condition "residents" (some (.isNull "address.street")) = .ok (some condition) ∧
        residents.mapper.toRow "residents" { root := .map resident } = .ok item ∧
        condition.evaluate item = false :=
  ⟨rfl, ⟨_, _, rfl, rfl, rfl⟩, ⟨_, _, rfl, rfl, rfl⟩⟩

end DataAccess
