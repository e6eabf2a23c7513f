import DataAccess.Dao.Document
import DataAccess.Proofs.Document.Matching
import DataAccess.Proofs.RowMapper
import DataAccess.Proofs.Value

namespace DataAccess

namespace Document

variable {op : Comparison}

theorem filter_null {actual : Value} (null : actual.isNull = true) :
    (some actual).filter (!·.isNull) = none :=
  Option.filter_some_neg (by simp [null])

theorem filter_present {actual : Value} (present : actual.isNull = false) :
    (some actual).filter (!·.isNull) = some actual :=
  Option.filter_some_pos (by simp [present])

/-- A range comparison with what is stored is one with the attribute. -/
theorem inRange_eq (op : Comparison) (stored : Option Value) (value : Value) :
    inRange op stored value =
      Filter.comparisonHolds op (stored.filter (!·.isNull)) (some value) := by
  cases stored with
  | none => rfl
  | some actual =>
      cases null : actual.isNull with
      | true => simp [filter_null null, inRange, null, Filter.comparisonHolds]
      | false => simp [filter_present null, inRange, null, Filter.comparisonHolds]

theorem equal_null {actual value : Value} (null : actual.isNull = true)
    (present : value.isNull = false) : actual.equal value = false := by
  cases actual with
  | null => cases value <;> first | rfl | cases present
  | _ => cases null

/-- Equality with a value that is not null is not changed by leaving out nulls. -/
theorem equals_eq {value : Value} (present : value.isNull = false) (stored : Option Value) :
    equals stored value =
      Filter.comparisonHolds .equal (stored.filter (!·.isNull)) (some value) := by
  cases stored with
  | none => exact present
  | some actual =>
      cases null : actual.isNull with
      | true =>
          rw [filter_null null]
          exact equal_null null present
      | false =>
          rw [filter_present null]
          simp only [equals, Value.equal, Filter.comparisonHolds, present]
          cases actual.compare? value <;> rfl

theorem comparisonHolds_null (op : Comparison) (left : Option Value) {right : Value}
    (null : right.isNull = true) : Filter.comparisonHolds op left (some right) = false := by
  cases left <;> simp [Filter.comparisonHolds, null]

/-- No values are both equal and unequal. -/
theorem not_equal_of_notEqual {left right : Option Value}
    (holds : Filter.comparisonHolds .notEqual left right = true) :
    Filter.comparisonHolds .equal left right = false := by
  cases left with
  | none => rfl
  | some x =>
      cases right with
      | none => rfl
      | some y =>
          simp only [Filter.comparisonHolds, Bool.and_eq_true] at holds ⊢
          cases order : x.compare? y <;> simp_all [Comparison.accepts]

theorem compares_of_comparisonHolds {stored : Option Value} {value : Value}
    (holds : Filter.comparisonHolds op (stored.filter (!·.isNull)) (some value) = true) :
    compares op stored value = true := by
  have present : value.isNull = false := by
    rw [← Bool.not_eq_true]
    intro null
    simp [comparisonHolds_null op _ null] at holds
  cases op with
  | equal => rw [compares, equals_eq present, holds]
  | notEqual => rw [compares, equals_eq present, not_equal_of_notEqual holds, Bool.not_false]
  | greater | greaterOrEqual | less | lessOrEqual => exact (inRange_eq _ stored value).trans holds

theorem compares_eq {stored : Option Value} {value : Value} (present : value.isNull = false)
    (alike : op = .notEqual → Value.Alike (stored.filter (!·.isNull)) (some value)) :
    compares op stored value =
      Filter.comparisonHolds op (stored.filter (!·.isNull)) (some value) := by
  cases op with
  | equal => exact equals_eq present stored
  | notEqual =>
      obtain ⟨x, y, order, left, right, _, comparable⟩ := Value.compare?_of_alike (alike rfl)
      cases right
      rw [compares, equals_eq present, left]
      simp only [Filter.comparisonHolds, present, comparable]
      cases order <;> rfl
  | greater | greaterOrEqual | less | lessOrEqual => exact inRange_eq _ stored value

/-- A comparison that holds is one of values that the total order sorts in the same way. -/
theorem accepts_of_comparisonHolds {left right : Option Value}
    (holds : Filter.comparisonHolds op (left.filter (!·.isNull)) (right.filter (!·.isNull)) = true) :
    op.accepts (Value.totalOrder left right) = true := by
  cases atLeft : left.filter (!·.isNull) with
  | none => simp [atLeft, Filter.comparisonHolds] at holds
  | some x =>
      cases atRight : right.filter (!·.isNull) with
      | none => simp [atLeft, atRight, Filter.comparisonHolds] at holds
      | some y =>
          rw [(Option.filter_eq_some_iff.mp atLeft).1, (Option.filter_eq_some_iff.mp atRight).1]
          simp only [atLeft, atRight, Filter.comparisonHolds, Bool.and_eq_true,
            Option.any_eq_true] at holds
          obtain ⟨_, order, comparable, accepted⟩ := holds
          rw [Value.totalOrder_of_compare? comparable, accepted]

theorem accepts_eq {left right : Option Value}
    (alike : Value.Alike (left.filter (!·.isNull)) (right.filter (!·.isNull))) :
    op.accepts (Value.totalOrder left right) =
      Filter.comparisonHolds op (left.filter (!·.isNull)) (right.filter (!·.isNull)) := by
  obtain ⟨x, y, order, atLeft, atRight, present, comparable⟩ := Value.compare?_of_alike alike
  rw [atLeft, atRight, (Option.filter_eq_some_iff.mp atLeft).1,
    (Option.filter_eq_some_iff.mp atRight).1, Value.totalOrder_of_compare? comparable]
  simp [Filter.comparisonHolds, present, comparable]

theorem equals_null (stored : Option Value) :
    equals stored .null = (stored.filter (!·.isNull)).isNone := by
  cases stored with
  | none => rfl
  | some actual => cases actual <;> rfl

end Document

namespace DocumentDao

open Document (testHolds isOperator)

variable {dao : DocumentDao} {storage : String} {object : BusinessObject} {fields : Record}

/-- Names that are mapped faithfully, to columns that are not named like operators. -/
structure Queryable (dao : DocumentDao) (storage name : String) : Prop where
  faithful : dao.mapper.Faithful storage name
  ordinary : isOperator (dao.mapper.columnOf storage name) = false

instance (dao : DocumentDao) (storage name : String) : Decidable (dao.Queryable storage name) :=
  decidable_of_iff
    (dao.mapper.Faithful storage name ∧ isOperator (dao.mapper.columnOf storage name) = false)
    ⟨fun ⟨faithful, ordinary⟩ => { faithful, ordinary },
      fun queryable => ⟨queryable.faithful, queryable.ordinary⟩⟩

/-- Tests to which documents and objects give the same answer: no literal is null, and unequal or
compared to one another are only values of one kind. -/
def Settled (object : BusinessObject) : Filter → Prop
  | .compare field op value =>
      value.isNull = false ∧
        (op = .notEqual → Value.Alike (object.attribute? field) (some value))
  | .compareFields left _ right =>
      Value.Alike (object.attribute? left) (object.attribute? right)
  | _ => True

section

variable (root : object.root = .map fields)
variable (held : ∀ name ∈ Dict.keys fields, dao.mapper.Returns storage name)

include root held

theorem attribute?_eq {name : String} (faithful : dao.mapper.Faithful storage name) :
    object.attribute? name =
      (Record.field? (dao.mapper.renamed storage fields)
        (dao.mapper.columnOf storage name)).filter (!·.isNull) := by
  rw [RowMapper.field?_renamed held faithful, BusinessObject.attribute?_plain root faithful.plain]

theorem testHolds_of_evaluate {test : Filter} (single : test.IsTest)
    (read : ∀ name ∈ test.testFields, dao.mapper.Faithful storage name)
    (holds : test.evaluate object = true) :
    testHolds (dao.mapper.renamed storage fields)
      (test.rename (dao.mapper.columnOf storage)) = true := by
  cases test with
  | compare field op value =>
      rw [Filter.evaluate, attribute?_eq root held (read field (by simp [Filter.testFields]))]
        at holds
      exact Document.compares_of_comparisonHolds holds
  | compareFields left op right =>
      rw [Filter.evaluate, attribute?_eq root held (read left (by simp [Filter.testFields])),
        attribute?_eq root held (read right (by simp [Filter.testFields]))] at holds
      exact Document.accepts_of_comparisonHolds holds
  | isNull field =>
      rw [Filter.evaluate, attribute?_eq root held (read field (by simp [Filter.testFields])),
        ← Document.equals_null] at holds
      exact holds
  | isNotNull field =>
      rw [Filter.evaluate, attribute?_eq root held (read field (by simp [Filter.testFields])),
        ← Option.not_isNone, ← Document.equals_null] at holds
      exact holds
  | allOf members | anyOf members => cases single

theorem testHolds_eq_evaluate {test : Filter} (single : test.IsTest)
    (read : ∀ name ∈ test.testFields, dao.mapper.Faithful storage name)
    (settled : Settled object test) :
    testHolds (dao.mapper.renamed storage fields)
      (test.rename (dao.mapper.columnOf storage)) = test.evaluate object := by
  cases test with
  | compare field op value =>
      obtain ⟨present, alike⟩ := settled
      rw [attribute?_eq root held (read field (by simp [Filter.testFields]))] at alike
      rw [Filter.evaluate, attribute?_eq root held (read field (by simp [Filter.testFields]))]
      exact Document.compares_eq present alike
  | compareFields left op right =>
      simp only [Settled, Filter.evaluate,
        attribute?_eq root held (read left (by simp [Filter.testFields])),
        attribute?_eq root held (read right (by simp [Filter.testFields]))] at settled ⊢
      exact Document.accepts_eq settled
  | isNull field =>
      rw [Filter.evaluate, attribute?_eq root held (read field (by simp [Filter.testFields])),
        ← Document.equals_null]
      rfl
  | isNotNull field =>
      rw [Filter.evaluate, attribute?_eq root held (read field (by simp [Filter.testFields])),
        ← Option.not_isNone, ← Document.equals_null]
      rfl
  | allOf members | anyOf members => cases single

end

/-- The query of a valid filter combines the answers to its tests, on every row. -/
theorem exists_query {filter : Filter} (valid : filter.validate = .ok ())
    (ordinary : ∀ name ∈ filter.fields, isOperator (dao.mapper.columnOf storage name) = false) :
    ∃ query, dao.query storage (some filter) = .ok query ∧
      ∀ row, Document.matches? row query = .ok (filter.combine fun test =>
        testHolds row (test.rename (dao.mapper.columnOf storage))) := by
  have columns : ∀ column ∈ (filter.rename (dao.mapper.columnOf storage)).fields,
      isOperator column = false := by
    rw [Filter.fields_rename, List.forall_mem_map]
    exact ordinary
  have compiles := fun row =>
    Document.entriesHold_compile row (Filter.validate_rename _ valid) columns
  obtain ⟨query, compiled, _⟩ := compiles []
  refine ⟨query, ?_, ?_⟩
  · simp only [DocumentDao.query, Document.compile?, Option.map_some, compiled]
    rfl
  · intro row
    obtain ⟨same, compiledSame, matched⟩ := compiles row
    cases compiled.symm.trans compiledSame
    rw [Filter.combine_rename] at matched
    simp only [Document.matches?, matched]

/-- The query of a valid filter is matched with the row of an object without errors. It holds
whenever the filter does, and only then where every test is settled. -/
theorem query_agrees_with_evaluate {filter : Filter} (valid : filter.validate = .ok ())
    (root : object.root = .map fields) (distinct : Dict.Distinct fields)
    (read : ∀ name ∈ filter.fields, dao.Queryable storage name)
    (held : ∀ name ∈ Dict.keys fields, dao.Queryable storage name) :
    ∃ query row holds, dao.query storage (some filter) = .ok query ∧
      dao.mapper.toRow storage object = .ok row ∧
      Document.matches? row query = .ok holds ∧
      (filter.evaluate object = true → holds = true) ∧
      ((∀ test ∈ filter.tests, Settled object test) → holds = filter.evaluate object) := by
  have returns : ∀ name ∈ Dict.keys fields, dao.mapper.Returns storage name :=
    fun name atName => (held name atName).faithful.returns
  have readFaithful : ∀ test ∈ filter.tests, ∀ name ∈ test.testFields,
      dao.mapper.Faithful storage name := fun test atTest name atName =>
    (read name (Filter.fields_of_mem atTest atName)).faithful
  have ordinary : ∀ column ∈ (filter.rename (dao.mapper.columnOf storage)).fields,
      isOperator column = false := by
    rw [Filter.fields_rename, List.forall_mem_map]
    exact fun name atName => (read name atName).ordinary
  obtain ⟨query, compiled, matched⟩ := Document.entriesHold_compile
    (dao.mapper.renamed storage fields) (Filter.validate_rename _ valid) ordinary
  rw [Filter.combine_rename] at matched
  refine ⟨query, dao.mapper.renamed storage fields, filter.combine fun test =>
    testHolds (dao.mapper.renamed storage fields) (test.rename (dao.mapper.columnOf storage)),
    ?_, RowMapper.toRow_document returns distinct rfl root, ?_, ?_, ?_⟩
  · simp only [DocumentDao.query, Document.compile?, Option.map_some, compiled]
    rfl
  · simp only [Document.matches?, matched]
  · rw [Filter.evaluate_eq_combine]
    exact Filter.combine_mono fun test atTest => testHolds_of_evaluate root returns
      (Filter.isTest_of_mem atTest) (readFaithful test atTest)
  · intro settled
    rw [Filter.evaluate_eq_combine]
    exact Filter.combine_congr fun test atTest => testHolds_eq_evaluate root returns
      (Filter.isTest_of_mem atTest) (readFaithful test atTest) (settled test atTest)

/-- People, whose `id` is the `_id` of their documents. -/
def people : DocumentDao where
  mapping := [("people", [{ use := .renamed, field := "id", column := "_id" }])]
  key := PrimaryKey.filter { fields := ["id"] }

def ada : Record := [("id", .string "1"), ("name", .string "Ada"), ("email", .null)]

def unreachable : Filter := .allOf [.compare "id" .notEqual (.string "2"), .isNull "email"]

theorem query_finds_ada : ∃ query row, people.query "people" (some unreachable) = .ok query ∧
    people.mapper.toRow "people" { root := .map ada } = .ok row ∧
    Document.matches? row query = .ok true := by
  have settled : ∀ test ∈ unreachable.tests, Settled { root := .map ada } test := by
    intro test member
    rcases List.mem_pair.mp member with rfl | rfl
    · exact ⟨rfl, fun _ => ⟨.string "1", .string "2", by decide, rfl, rfl, by decide⟩⟩
    · trivial
  obtain ⟨query, row, holds, compiled, mapped, matched, _, same⟩ :=
    @query_agrees_with_evaluate people "people" { root := .map ada } ada unreachable rfl rfl
      (by decide) (by decide) (by decide)
  refine ⟨query, row, compiled, mapped, ?_⟩
  rw [matched, same settled]
  exact congrArg Except.ok (by decide)

end DocumentDao

end DataAccess
