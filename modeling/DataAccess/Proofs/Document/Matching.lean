import DataAccess.Document.Compile
import DataAccess.Proofs.Document.Collection
import DataAccess.Proofs.Filter

namespace DataAccess.Document

variable {document : Record} {filter : Filter} {op : Comparison}

/-- What a document says to a test of its columns. -/
def testHolds (document : Record) : Filter → Bool
  | .compare column op value => compares op (Record.field? document column) value
  | .compareFields left op right =>
      op.accepts (Value.totalOrder (Record.field? document left) (Record.field? document right))
  | .isNull column => equals (Record.field? document column) .null
  | .isNotNull column => !equals (Record.field? document column) .null
  | .allOf _ => false
  | .anyOf _ => false

theorem comparison?_operatorName (op : Comparison) : comparison? (operatorName op) = some op := by
  cases op <;> decide

theorem isOperator_operatorName (op : Comparison) : isOperator (operatorName op) = true := by
  cases op <;> decide

theorem fieldHolds_operator (actual : Option Value) (op : Comparison) (value : Value) :
    fieldHolds actual (.map [(operatorName op, value)]) = .ok (compares op actual value) := by
  have operators : isOperatorDocument [(operatorName op, value)] = true := by
    simp [isOperatorDocument, isOperator_operatorName]
  simp only [fieldHolds, operators, operatorsHold, operatorHolds, comparison?_operatorName]
  cases compares op actual value <;> rfl

theorem entriesHold_cons {column : String} (ordinary : isOperator column = false)
    (condition : Value) (rest : Record) : entriesHold document ((column, condition) :: rest) =
      fieldHolds (Record.field? document column) condition >>= fun holds =>
        if holds then entriesHold document rest else .ok false := by
  have notAnd : column ≠ "$and" := ne_of_isOperator ordinary (by decide)
  have notOr : column ≠ "$or" := ne_of_isOperator ordinary (by decide)
  have notExpr : column ≠ "$expr" := ne_of_isOperator ordinary (by decide)
  simp only [entriesHold, notAnd, notOr, notExpr, ordinary]
  rfl

theorem entriesHold_field {column : String} (ordinary : isOperator column = false)
    (condition : Value) : entriesHold document [(column, condition)] =
      fieldHolds (Record.field? document column) condition := by
  rw [entriesHold_cons ordinary]
  cases fieldHolds (Record.field? document column) condition with
  | error fault => rfl
  | ok holds => cases holds <;> rfl

theorem operand_column (document : Record) (column : String) :
    operand document (.string ("$" ++ column)) = Record.field? document column := by
  simp [operand]

theorem entriesHold_expression (left right : String) :
    entriesHold document [("$expr", .map [(operatorName op,
      .sequence [.string ("$" ++ left), .string ("$" ++ right)])])] =
      .ok (testHolds document (.compareFields left op right)) := by
  simp only [entriesHold, expressionHolds, comparison?_operatorName, operand_column, testHolds]
  cases op.accepts (Value.totalOrder (Record.field? document left)
    (Record.field? document right)) <;> rfl

theorem entriesHold_group (all : Bool) {holds : Bool} {clauses : List Value} (nonempty : clauses ≠ [])
    (decided : clauseListHolds document all clauses = .ok holds) :
    entriesHold document [(if all then "$and" else "$or", .sequence clauses)] = .ok holds := by
  obtain ⟨clause, rest, rfl⟩ := List.exists_cons_of_ne_nil nonempty
  cases all <;> simp only [entriesHold, clausesHold, decided] <;> cases holds <;> rfl

/-- The clauses of a group hold together as its members do, and so do they one by one. -/
theorem clauseListHolds_compileAll (document : Record) {members : List Filter}
    {truth : Filter → Bool}
    (each : ∀ member ∈ members, ∃ query, compile member = .ok query ∧
      entriesHold document query = .ok (truth member)) :
    ∃ clauses, compileAll members = .ok clauses ∧ (members ≠ [] → clauses ≠ []) ∧
      clauseListHolds document true clauses = .ok (members.all truth) ∧
      clauseListHolds document false clauses = .ok (members.any truth) := by
  induction members with
  | nil => exact ⟨[], rfl, fun nonempty => (nonempty rfl).elim, rfl, rfl⟩
  | cons member rest ih =>
      obtain ⟨query, compiled, matched⟩ := each member (by simp)
      obtain ⟨clauses, compiledRest, _, all, any⟩ :=
        ih fun other later => each other (List.mem_cons_of_mem _ later)
      refine ⟨.map query :: clauses, ?_, by simp, ?_, ?_⟩
      · simp only [compileAll, compiled, compiledRest]
        rfl
      · simp only [clauseListHolds, matched, all, List.all_cons]
        cases truth member <;> rfl
      · simp only [clauseListHolds, matched, any, List.any_cons]
        cases truth member <;> rfl

theorem fields_of_member {member : Filter} {members : List Filter} {name : String}
    (atMember : member ∈ members) (atName : name ∈ member.fields) :
    name ∈ (Filter.testsOfAll members).flatMap Filter.testFields := by
  obtain ⟨test, atTest, read⟩ := List.mem_flatMap.mp atName
  exact List.mem_flatMap.mpr ⟨test, Filter.tests_of_member atMember atTest, read⟩

/-- A valid filter over columns that are not named like operators compiles, and matching it combines
the answers to its tests. -/
theorem entriesHold_compile (document : Record) (valid : filter.validate = .ok ())
    (ordinary : ∀ column ∈ filter.fields, isOperator column = false) :
    ∃ query, compile filter = .ok query ∧
      entriesHold document query = .ok (filter.combine (testHolds document)) := by
  induction filter using Filter.nested_induction with
  | compare column op value =>
      refine ⟨_, rfl, ?_⟩
      rw [entriesHold_field (ordinary column (by simp [Filter.fields, Filter.tests,
        Filter.testFields])), fieldHolds_operator]
      rfl
  | compareFields left op right => exact ⟨_, rfl, entriesHold_expression left right⟩
  | isNull column =>
      refine ⟨_, rfl, ?_⟩
      rw [entriesHold_field (ordinary column (by simp [Filter.fields, Filter.tests,
        Filter.testFields]))]
      rfl
  | isNotNull column =>
      refine ⟨_, rfl, ?_⟩
      rw [entriesHold_field (ordinary column (by simp [Filter.fields, Filter.tests,
        Filter.testFields]))]
      exact fieldHolds_operator _ .notEqual .null
  | allOf members ih =>
      obtain ⟨nonempty, all⟩ := Filter.validate_allOf.mp valid
      obtain ⟨clauses, compiled, clausesNonempty, holds, _⟩ :=
        clauseListHolds_compileAll document fun member atMember =>
          ih member atMember (all member atMember) fun column atColumn =>
            ordinary column (fields_of_member atMember atColumn)
      refine ⟨[("$and", .sequence clauses)], ?_, ?_⟩
      · simp only [compile, Filter.nonempty_eq_ok.mpr nonempty, compiled]
        rfl
      · rw [Filter.combine, Filter.combineAll_eq]
        exact entriesHold_group true (clausesNonempty nonempty) holds
  | anyOf members ih =>
      obtain ⟨nonempty, all⟩ := Filter.validate_anyOf.mp valid
      obtain ⟨clauses, compiled, clausesNonempty, _, holds⟩ :=
        clauseListHolds_compileAll document fun member atMember =>
          ih member atMember (all member atMember) fun column atColumn =>
            ordinary column (fields_of_member atMember atColumn)
      refine ⟨[("$or", .sequence clauses)], ?_, ?_⟩
      · simp only [compile, Filter.nonempty_eq_ok.mpr nonempty, compiled]
        rfl
      · rw [Filter.combine, Filter.combineAny_eq]
        exact entriesHold_group false (clausesNonempty nonempty) holds

end DataAccess.Document
