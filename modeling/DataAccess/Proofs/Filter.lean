import DataAccess.Dao.Key
import DataAccess.Filter.Evaluate
import DataAccess.Proofs.Except
import Mathlib.Data.List.Basic

namespace DataAccess.Filter

/-- Induction over filters, with a hypothesis for every member of a group. -/
@[elab_as_elim]
theorem nested_induction {motive : Filter → Prop}
    (compare : ∀ field op value, motive (.compare field op value))
    (compareFields : ∀ left op right, motive (.compareFields left op right))
    (isNull : ∀ field, motive (.isNull field)) (isNotNull : ∀ field, motive (.isNotNull field))
    (allOf : ∀ members, (∀ member ∈ members, motive member) → motive (.allOf members))
    (anyOf : ∀ members, (∀ member ∈ members, motive member) → motive (.anyOf members))
    (filter : Filter) : motive filter := by
  refine @Filter.rec motive (fun members => ∀ member ∈ members, motive member)
    compare compareFields isNull isNotNull allOf anyOf ?_ ?_ filter
  · simp
  · intro member rest ofMember ofRest
    simpa using ⟨ofMember, ofRest⟩

mutual

/-- The tests in a filter, from left to right. -/
def tests : Filter → List Filter
  | .allOf members => testsOfAll members
  | .anyOf members => testsOfAll members
  | test => [test]

def testsOfAll : List Filter → List Filter
  | [] => []
  | member :: rest => tests member ++ testsOfAll rest

end

def IsTest : Filter → Prop
  | .allOf _ => False
  | .anyOf _ => False
  | _ => True

/-- The fields that a test reads. -/
def testFields : Filter → List String
  | .compare field _ _ => [field]
  | .compareFields left _ right => [left, right]
  | .isNull field => [field]
  | .isNotNull field => [field]
  | .allOf _ => []
  | .anyOf _ => []

/-- The fields that a filter reads. -/
def fields (filter : Filter) : List String := filter.tests.flatMap testFields

mutual

/-- The truth of a filter by the truth of its tests. -/
def combine (holds : Filter → Bool) : Filter → Bool
  | .allOf members => combineAll holds members
  | .anyOf members => combineAny holds members
  | test => holds test

def combineAll (holds : Filter → Bool) : List Filter → Bool
  | [] => true
  | member :: rest => combine holds member && combineAll holds rest

def combineAny (holds : Filter → Bool) : List Filter → Bool
  | [] => false
  | member :: rest => combine holds member || combineAny holds rest

end

variable {left right holds : Filter → Bool} {filter : Filter} {members : List Filter}

theorem testsOfAll_eq (members : List Filter) : testsOfAll members = members.flatMap tests := by
  induction members with
  | nil => rfl
  | cons member rest ih => simp only [testsOfAll, List.flatMap_cons, ih]

theorem combineAll_eq (holds : Filter → Bool) (members : List Filter) :
    combineAll holds members = members.all (combine holds) := by
  induction members with
  | nil => rfl
  | cons member rest ih => simp only [combineAll, List.all_cons, ih]

theorem combineAny_eq (holds : Filter → Bool) (members : List Filter) :
    combineAny holds members = members.any (combine holds) := by
  induction members with
  | nil => rfl
  | cons member rest ih => simp only [combineAny, List.any_cons, ih]

theorem all_congr_of_mem (agree : ∀ member ∈ members, left member = right member) :
    members.all left = members.all right := by
  rw [Bool.eq_iff_iff, List.all_eq_true, List.all_eq_true]
  exact forall₂_congr fun member atMember => by rw [agree member atMember]

theorem any_congr_of_mem (agree : ∀ member ∈ members, left member = right member) :
    members.any left = members.any right := by
  rw [Bool.eq_iff_iff, List.any_eq_true, List.any_eq_true]
  exact exists_congr fun member => and_congr_right fun atMember => by rw [agree member atMember]

theorem tests_of_member {member test : Filter} (atMember : member ∈ members)
    (atTest : test ∈ member.tests) : test ∈ testsOfAll members := by
  rw [testsOfAll_eq]
  exact List.mem_flatMap.mpr ⟨member, atMember, atTest⟩

theorem isTest_of_mem {test : Filter} (member : test ∈ filter.tests) : test.IsTest := by
  induction filter using nested_induction with
  | compare | compareFields | isNull | isNotNull =>
      rw [List.mem_singleton.mp member]
      trivial
  | allOf members ih | anyOf members ih =>
      simp only [tests, testsOfAll_eq] at member
      obtain ⟨inner, atInner, atTest⟩ := List.mem_flatMap.mp member
      exact ih inner atInner atTest

theorem fields_of_mem {test : Filter} {name : String} (member : test ∈ filter.tests)
    (read : name ∈ test.testFields) : name ∈ filter.fields :=
  List.mem_flatMap.mpr ⟨test, member, read⟩

/-- Where all true tests stay true, a true filter does. -/
theorem combine_mono (implied : ∀ test ∈ filter.tests, left test = true → right test = true)
    (holds : filter.combine left = true) : filter.combine right = true := by
  induction filter using nested_induction with
  | compare | compareFields | isNull | isNotNull => exact implied _ (by simp [tests]) holds
  | allOf members ih =>
      simp only [combine, combineAll_eq, List.all_eq_true] at holds ⊢
      intro member atMember
      exact ih member atMember (fun test atTest => implied test (tests_of_member atMember atTest))
        (holds member atMember)
  | anyOf members ih =>
      simp only [combine, combineAny_eq, List.any_eq_true] at holds ⊢
      obtain ⟨member, atMember, memberHolds⟩ := holds
      exact ⟨member, atMember,
        ih member atMember (fun test atTest => implied test (tests_of_member atMember atTest))
          memberHolds⟩

theorem combine_congr (agree : ∀ test ∈ filter.tests, left test = right test) :
    filter.combine left = filter.combine right := by
  rw [Bool.eq_iff_iff]
  constructor
  · exact combine_mono fun test member truth => agree test member ▸ truth
  · exact combine_mono fun test member truth => (agree test member).symm ▸ truth

theorem evaluateAll_eq (object : BusinessObject) (members : List Filter) :
    evaluateAll object members = members.all (evaluate object) := by
  induction members with
  | nil => rfl
  | cons member rest ih => simp only [evaluateAll, List.all_cons, ih]

theorem evaluateAny_eq (object : BusinessObject) (members : List Filter) :
    evaluateAny object members = members.any (evaluate object) := by
  induction members with
  | nil => rfl
  | cons member rest ih => simp only [evaluateAny, List.any_cons, ih]

theorem evaluate_eq_combine (object : BusinessObject) (filter : Filter) :
    filter.evaluate object = filter.combine (evaluate object) := by
  induction filter using nested_induction with
  | compare | compareFields | isNull | isNotNull => rfl
  | allOf members ih =>
      simp only [evaluate, combine, evaluateAll_eq, combineAll_eq]
      exact all_congr_of_mem ih
  | anyOf members ih =>
      simp only [evaluate, combine, evaluateAny_eq, combineAny_eq]
      exact any_congr_of_mem ih

theorem nonempty_eq_ok {α : Type} {kind : Kind} {members : List α} :
    nonempty kind members = .ok () ↔ members ≠ [] := by
  cases members <;> simp [nonempty]

theorem validateAll_eq_ok :
    validateAll members = .ok () ↔ ∀ member ∈ members, member.validate = .ok () := by
  induction members with
  | nil => simp [validateAll]
  | cons member rest ih => simp [validateAll, then_eq_ok, ih]

theorem validate_allOf : (Filter.allOf members).validate = .ok () ↔
    members ≠ [] ∧ ∀ member ∈ members, member.validate = .ok () := by
  simp only [validate, then_eq_ok, nonempty_eq_ok, validateAll_eq_ok]

theorem validate_anyOf : (Filter.anyOf members).validate = .ok () ↔
    members ≠ [] ∧ ∀ member ∈ members, member.validate = .ok () := by
  simp only [validate, then_eq_ok, nonempty_eq_ok, validateAll_eq_ok]

theorem renameAll_eq (name : String → String) (members : List Filter) :
    renameAll name members = members.map (rename name) := by
  induction members with
  | nil => rfl
  | cons member rest ih => simp only [renameAll, List.map_cons, ih]

theorem validate_rename (name : String → String) (valid : filter.validate = .ok ()) :
    (filter.rename name).validate = .ok () := by
  induction filter using nested_induction with
  | compare | compareFields | isNull | isNotNull => rfl
  | allOf members ih =>
      obtain ⟨nonempty, all⟩ := validate_allOf.mp valid
      simp only [rename, validate_allOf, renameAll_eq, ne_eq, List.map_eq_nil_iff, List.forall_mem_map]
      exact ⟨nonempty, fun member atMember => ih member atMember (all member atMember)⟩
  | anyOf members ih =>
      obtain ⟨nonempty, all⟩ := validate_anyOf.mp valid
      simp only [rename, validate_anyOf, renameAll_eq, ne_eq, List.map_eq_nil_iff, List.forall_mem_map]
      exact ⟨nonempty, fun member atMember => ih member atMember (all member atMember)⟩

theorem tests_rename (name : String → String) (filter : Filter) :
    (filter.rename name).tests = filter.tests.map (rename name) := by
  induction filter using nested_induction with
  | compare | compareFields | isNull | isNotNull => rfl
  | allOf members ih | anyOf members ih =>
      simp only [rename, tests, testsOfAll_eq, renameAll_eq, List.flatMap_map, List.map_flatMap]
      exact List.flatMap_congr ih

theorem testFields_rename (name : String → String) (test : Filter) :
    (test.rename name).testFields = test.testFields.map name := by
  cases test <;> rfl

theorem fields_rename (name : String → String) (filter : Filter) :
    (filter.rename name).fields = filter.fields.map name := by
  simp only [fields, tests_rename, List.flatMap_map, List.map_flatMap, testFields_rename]

theorem combine_rename (name : String → String) (holds : Filter → Bool) (filter : Filter) :
    (filter.rename name).combine holds = filter.combine fun test => holds (test.rename name) := by
  induction filter using nested_induction with
  | compare | compareFields | isNull | isNotNull => rfl
  | allOf members ih =>
      simp only [rename, combine, renameAll_eq, combineAll_eq, List.all_map]
      exact all_congr_of_mem ih
  | anyOf members ih =>
      simp only [rename, combine, renameAll_eq, combineAny_eq, List.any_map]
      exact any_congr_of_mem ih

end DataAccess.Filter

namespace DataAccess

/-- A key filter gives the filters that it is asked for, as far as they are valid. -/
theorem KeyFilter.filter_eq_ok {key : KeyFilter} {storage : String} {object : BusinessObject}
    {filter : Filter} :
    key.filter storage object = .ok filter ↔
      key storage object = .ok filter ∧ filter.validate = .ok () := by
  rw [KeyFilter.filter, bind_eq_ok]
  constructor
  · rintro ⟨found, asked, checked⟩
    cases valid : found.validate with
    | error fault =>
        rw [valid] at checked
        cases checked
    | ok _ =>
        rw [valid] at checked
        cases pure_eq_ok.mp checked
        exact ⟨asked, valid⟩
  · rintro ⟨asked, valid⟩
    refine ⟨filter, asked, ?_⟩
    rw [valid]
    rfl

end DataAccess
