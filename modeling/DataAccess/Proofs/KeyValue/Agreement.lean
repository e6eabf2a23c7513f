import DataAccess.Dao.KeyValue
import DataAccess.Proofs.Filter
import DataAccess.Proofs.RowMapper
import DataAccess.Proofs.Value

namespace DataAccess

namespace KeyValue

variable {item : Record} {filter : Filter} {op : Comparison}

/-- What an item says to a test of its columns. -/
def testHolds (item : Record) : Filter → Bool
  | .compare column op value =>
      Condition.comparisonHolds op (Record.field? item column) (some value)
  | .compareFields left op right =>
      Condition.comparisonHolds op (Record.field? item left) (Record.field? item right)
  | .isNull column => (Record.field? item column).isNone
  | .isNotNull column => (Record.field? item column).isSome
  | .allOf _ => false
  | .anyOf _ => false

/-- The parts of a group are true together as its members are, and so are they one by one. -/
theorem evaluate_compileAll (item : Record) {members : List Filter} {truth : Filter → Bool}
    (each : ∀ member ∈ members, ∃ part, compile member = .ok part ∧
      part.evaluate item = truth member) :
    ∃ parts, compileAll members = .ok parts ∧
      Condition.evaluateAll item parts = members.all truth ∧
      Condition.evaluateAny item parts = members.any truth := by
  induction members with
  | nil => exact ⟨[], rfl, rfl, rfl⟩
  | cons member rest ih =>
      obtain ⟨part, compiled, evaluated⟩ := each member (by simp)
      obtain ⟨parts, compiledRest, all, any⟩ :=
        ih fun other later => each other (List.mem_cons_of_mem _ later)
      refine ⟨part :: parts, ?_, ?_, ?_⟩
      · simp only [compileAll, compiled, compiledRest]
        rfl
      · simp only [Condition.evaluateAll, evaluated, all, List.all_cons]
      · simp only [Condition.evaluateAny, evaluated, any, List.any_cons]

theorem evaluate_compile (item : Record) (valid : filter.validate = .ok ()) :
    ∃ condition, compile filter = .ok condition ∧
      condition.evaluate item = filter.combine (testHolds item) := by
  induction filter using Filter.nested_induction with
  | compare | compareFields | isNull | isNotNull => exact ⟨_, rfl, rfl⟩
  | allOf members ih =>
      obtain ⟨nonempty, all⟩ := Filter.validate_allOf.mp valid
      obtain ⟨parts, compiled, evaluated, _⟩ := evaluate_compileAll item
        fun member atMember => ih member atMember (all member atMember)
      refine ⟨.allOf parts, ?_, ?_⟩
      · simp only [compile, Filter.nonempty_eq_ok.mpr nonempty, compiled]
        rfl
      · rw [Filter.combine, Filter.combineAll_eq]
        exact evaluated
  | anyOf members ih =>
      obtain ⟨nonempty, all⟩ := Filter.validate_anyOf.mp valid
      obtain ⟨parts, compiled, _, evaluated⟩ := evaluate_compileAll item
        fun member atMember => ih member atMember (all member atMember)
      refine ⟨.anyOf parts, ?_, ?_⟩
      · simp only [compile, Filter.nonempty_eq_ok.mpr nonempty, compiled]
        rfl
      · rw [Filter.combine, Filter.combineAny_eq]
        exact evaluated

theorem comparisonHolds_of_filter {left right : Option Value}
    (holds : Filter.comparisonHolds op left right = true) :
    Condition.comparisonHolds op left right = true := by
  cases left with
  | none => cases holds
  | some x =>
      cases right with
      | none => cases holds
      | some y =>
          simp only [Filter.comparisonHolds, Bool.and_eq_true, Option.any_eq_true] at holds
          obtain ⟨_, order, comparable, accepted⟩ := holds
          simp only [Condition.comparisonHolds, comparable, accepted]

theorem compare?_null {x y : Value} (present : x.isNull = false) (null : y.isNull = true) :
    x.compare? y = none := by
  cases y with
  | null => cases x <;> first | rfl | cases present
  | _ => cases null

/-- Apart from inequality, values that are in no order are compared in vain by both. -/
theorem comparisonHolds_eq {left right : Option Value}
    (present : ∀ x, left = some x → x.isNull = false)
    (alike : op = .notEqual → Value.Alike left right) :
    Condition.comparisonHolds op left right = Filter.comparisonHolds op left right := by
  by_cases unequal : op = .notEqual
  · obtain ⟨x, y, order, rfl, rfl, presentRight, comparable⟩ :=
      Value.compare?_of_alike (alike unequal)
    simp [Condition.comparisonHolds, Filter.comparisonHolds, comparable, presentRight]
  · cases left with
    | none => rfl
    | some x =>
        cases right with
        | none => rfl
        | some y =>
            cases null : y.isNull with
            | true =>
                have apart := compare?_null (present x rfl) null
                simp [Condition.comparisonHolds, Filter.comparisonHolds, apart, null, unequal]
            | false =>
                cases comparable : x.compare? y <;>
                  simp [Condition.comparisonHolds, Filter.comparisonHolds, comparable, null, unequal]

end KeyValue

namespace KeyValueDao

open KeyValue (testHolds)

variable {dao : KeyValueDao} {storage : String} {object : BusinessObject} {fields : Record}

/-- Tests to which items and objects give the same answer: those that ask for inequality ask it of
values of one kind. -/
def Settled (object : BusinessObject) : Filter → Prop
  | .compare field op value =>
      op = .notEqual → Value.Alike (object.attribute? field) (some value)
  | .compareFields left op right =>
      op = .notEqual → Value.Alike (object.attribute? left) (object.attribute? right)
  | _ => True

section

variable (root : object.root = .map fields) (distinct : Dict.Distinct fields)
variable (held : ∀ name ∈ Dict.keys fields, dao.mapper.Returns storage name)

include root distinct held

theorem testHolds_of_evaluate {test : Filter} (single : test.IsTest)
    (read : ∀ name ∈ test.testFields, dao.mapper.Faithful storage name)
    (holds : test.evaluate object = true) :
    testHolds (Dict.filterValues (!·.isNull) (dao.mapper.renamed storage fields))
      (test.rename (dao.mapper.columnOf storage)) = true := by
  have stored := fun name (atName : name ∈ test.testFields) =>
    RowMapper.field?_item held (read name atName) distinct root
  cases test with
  | compare field op value =>
      simp only [Filter.rename, testHolds, stored field (by simp [Filter.testFields])]
      exact KeyValue.comparisonHolds_of_filter holds
  | compareFields left op right =>
      simp only [Filter.rename, testHolds, stored left (by simp [Filter.testFields]),
        stored right (by simp [Filter.testFields])]
      exact KeyValue.comparisonHolds_of_filter holds
  | isNull field | isNotNull field =>
      simp only [Filter.rename, testHolds, stored field (by simp [Filter.testFields])]
      exact holds
  | allOf members | anyOf members => cases single

theorem testHolds_eq_evaluate {test : Filter} (single : test.IsTest)
    (read : ∀ name ∈ test.testFields, dao.mapper.Faithful storage name)
    (settled : Settled object test) :
    testHolds (Dict.filterValues (!·.isNull) (dao.mapper.renamed storage fields))
      (test.rename (dao.mapper.columnOf storage)) = test.evaluate object := by
  have stored := fun name (atName : name ∈ test.testFields) =>
    RowMapper.field?_item held (read name atName) distinct root
  have present : ∀ name ∈ test.testFields, ∀ x, object.attribute? name = some x →
      x.isNull = false := by
    intro name atName x found
    rw [BusinessObject.attribute?_plain root (read name atName).plain] at found
    simpa using (Option.filter_eq_some_iff.mp found).2
  cases test with
  | compare field op value =>
      have first : field ∈ (Filter.compare field op value).testFields := by
        simp [Filter.testFields]
      simp only [Filter.rename, testHolds, stored field first]
      exact KeyValue.comparisonHolds_eq (present field first) settled
  | compareFields left op right =>
      have first : left ∈ (Filter.compareFields left op right).testFields := by
        simp [Filter.testFields]
      simp only [Filter.rename, testHolds, stored left first,
        stored right (by simp [Filter.testFields])]
      exact KeyValue.comparisonHolds_eq (present left first) settled
  | isNull field | isNotNull field =>
      simp only [Filter.rename, testHolds, stored field (by simp [Filter.testFields])]
      rfl
  | allOf members | anyOf members => cases single

end

/-- The condition of a valid filter combines the answers to its tests, on every item. -/
theorem exists_condition {filter : Filter} (valid : filter.validate = .ok ()) :
    ∃ condition, dao.condition storage (some filter) = .ok (some condition) ∧
      ∀ item, condition.evaluate item = filter.combine fun test =>
        testHolds item (test.rename (dao.mapper.columnOf storage)) := by
  have compiles := fun item => KeyValue.evaluate_compile item
    (Filter.validate_rename (dao.mapper.columnOf storage) valid)
  obtain ⟨condition, compiled, _⟩ := compiles []
  refine ⟨condition, ?_, ?_⟩
  · simp only [KeyValueDao.condition, KeyValue.compile?, Option.map_some, compiled]
    rfl
  · intro item
    obtain ⟨same, compiledSame, evaluated⟩ := compiles item
    cases compiled.symm.trans compiledSame
    rw [evaluated, Filter.combine_rename]

/-- The condition of a valid filter holds of the item of an object whenever the filter holds of the
object, and only then where every test is settled. -/
theorem condition_agrees_with_evaluate {filter : Filter} (valid : filter.validate = .ok ())
    (root : object.root = .map fields) (distinct : Dict.Distinct fields)
    (read : ∀ name ∈ filter.fields, dao.mapper.Faithful storage name)
    (held : ∀ name ∈ Dict.keys fields, dao.mapper.Faithful storage name) :
    ∃ condition item, dao.condition storage (some filter) = .ok (some condition) ∧
      dao.mapper.toRow storage object = .ok item ∧
      (filter.evaluate object = true → condition.evaluate item = true) ∧
      ((∀ test ∈ filter.tests, Settled object test) →
        condition.evaluate item = filter.evaluate object) := by
  have returns : ∀ name ∈ Dict.keys fields, dao.mapper.Returns storage name :=
    fun name atName => (held name atName).returns
  have readTest : ∀ test ∈ filter.tests, ∀ name ∈ test.testFields,
      dao.mapper.Faithful storage name := fun test atTest name atName =>
    read name (Filter.fields_of_mem atTest atName)
  obtain ⟨condition, compiled, evaluated⟩ := KeyValue.evaluate_compile
    (Dict.filterValues (!·.isNull) (dao.mapper.renamed storage fields))
    (Filter.validate_rename (dao.mapper.columnOf storage) valid)
  rw [Filter.combine_rename] at evaluated
  refine ⟨condition, _, ?_, RowMapper.toRow_keyValue returns distinct rfl root, ?_, ?_⟩
  · simp only [KeyValueDao.condition, KeyValue.compile?, Option.map_some, compiled]
    rfl
  · rw [evaluated, Filter.evaluate_eq_combine]
    exact Filter.combine_mono fun test atTest => testHolds_of_evaluate root distinct returns
      (Filter.isTest_of_mem atTest) (readTest test atTest)
  · intro settled
    rw [evaluated, Filter.evaluate_eq_combine]
    exact Filter.combine_congr fun test atTest => testHolds_eq_evaluate root distinct returns
      (Filter.isTest_of_mem atTest) (readTest test atTest) (settled test atTest)

def stock : KeyValueDao := { key := PrimaryKey.filter { fields := ["id"] } }

def nails : Record := [("id", .string "1"), ("sort", .string "nail"), ("place", .null)]

def misplaced : Filter :=
  .allOf [.isNull "place",
    .anyOf [.compare "place" .equal .null, .compareFields "sort" .greater "place",
      .compare "sort" .notEqual (.string "screw")]]

theorem condition_finds_nails :
    ∃ condition item, stock.condition "stock" (some misplaced) = .ok (some condition) ∧
      stock.mapper.toRow "stock" { root := .map nails } = .ok item ∧
      condition.evaluate item = true := by
  have settled : ∀ test ∈ misplaced.tests, Settled { root := .map nails } test := by
    intro test member
    simp only [misplaced, Filter.tests, Filter.testsOfAll, List.append_nil, List.cons_append,
      List.nil_append, List.mem_cons, List.not_mem_nil, or_false] at member
    rcases member with rfl | rfl | rfl | rfl
    · trivial
    · exact fun unequal => by cases unequal
    · exact fun unequal => by cases unequal
    · exact fun _ => ⟨.string "nail", .string "screw", by decide, rfl, rfl, by decide⟩
  obtain ⟨condition, item, compiled, mapped, _, same⟩ :=
    @condition_agrees_with_evaluate stock "stock" { root := .map nails } nails misplaced rfl rfl
      (by decide) (by decide) (by decide)
  refine ⟨condition, item, compiled, mapped, ?_⟩
  rw [same settled]
  decide

end KeyValueDao

end DataAccess
