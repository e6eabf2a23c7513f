import DataAccess.Dao.Operation
import DataAccess.Document.Compile
import DataAccess.KeyValue.Compile
import DataAccess.Proofs.Filter
import DataAccess.Sql.Statement

namespace DataAccess

namespace Filter

mutual

/-- A filter and all filters inside it, each before its members and these from left to right. -/
def nodes : Filter → List Filter
  | .allOf members => .allOf members :: nodesOfAll members
  | .anyOf members => .anyOf members :: nodesOfAll members
  | test => [test]

def nodesOfAll : List Filter → List Filter
  | [] => []
  | member :: rest => nodes member ++ nodesOfAll rest

end

/-- The kind of a group without members. -/
def emptyGroup? : Filter → Option Kind
  | .allOf [] => some .allOf
  | .anyOf [] => some .anyOf
  | _ => none

def firstFault (nodes : List Filter) : Except Fault Unit :=
  match nodes.findSome? emptyGroup? with
  | some kind => .error (.emptyGroup kind)
  | none => .ok ()

variable {members : List Filter}

theorem nodesOfAll_eq (members : List Filter) : nodesOfAll members = members.flatMap nodes := by
  induction members with
  | nil => rfl
  | cons member rest ih => rw [nodesOfAll, ih, List.flatMap_cons]

theorem firstFault_append (left right : List Filter) :
    firstFault (left ++ right) = (firstFault left >>= fun _ => firstFault right) := by
  simp only [firstFault, List.findSome?_append]
  cases left.findSome? emptyGroup? <;> rfl

theorem validateAll_eq_firstFault
    (each : ∀ member ∈ members, member.validate = firstFault member.nodes) :
    validateAll members = firstFault (nodesOfAll members) := by
  induction members with
  | nil => rfl
  | cons member rest ih =>
      rw [validateAll, nodesOfAll, firstFault_append, each member (by simp),
        ih fun other inRest => each other (by simp [inRest])]

theorem validate_eq_firstFault (filter : Filter) : filter.validate = firstFault filter.nodes := by
  induction filter using nested_induction with
  | compare | compareFields | isNull | isNotNull => rfl
  | allOf members ih | anyOf members ih =>
      rw [validate, nodes, validateAll_eq_firstFault ih]
      cases members <;> rfl

theorem nodes_rename (name : String → String) (filter : Filter) :
    (filter.rename name).nodes = filter.nodes.map (rename name) := by
  induction filter using nested_induction with
  | compare | compareFields | isNull | isNotNull => rfl
  | allOf members ih | anyOf members ih =>
      simp only [rename, nodes, nodesOfAll_eq, renameAll_eq, List.map_cons, List.flatMap_map,
        List.map_flatMap, List.flatMap_congr ih]

theorem emptyGroup?_rename (name : String → String) (filter : Filter) :
    (filter.rename name).emptyGroup? = filter.emptyGroup? := by
  cases filter with
  | compare | compareFields | isNull | isNotNull => rfl
  | allOf members | anyOf members => cases members <;> rfl

/-- The names of fields have no part in the validity of a filter. -/
theorem verdict_rename (name : String → String) (filter : Filter) :
    (filter.rename name).validate = filter.validate := by
  have same : emptyGroup? ∘ rename name = emptyGroup? := funext (emptyGroup?_rename name)
  rw [validate_eq_firstFault, validate_eq_firstFault, nodes_rename, firstFault, List.findSome?_map,
    same, firstFault]

theorem isTest_cases {motive : Filter → Prop}
    (compare : ∀ field op value, motive (.compare field op value))
    (compareFields : ∀ left op right, motive (.compareFields left op right))
    (isNull : ∀ field, motive (.isNull field)) (isNotNull : ∀ field, motive (.isNotNull field))
    (test : Filter) (isTest : test.IsTest) : motive test := by
  cases test with
  | compare field op value => exact compare field op value
  | compareFields left op right => exact compareFields left op right
  | isNull field => exact isNull field
  | isNotNull field => exact isNotNull field
  | allOf | anyOf => cases isTest

theorem validate_of_isTest {test : Filter} (isTest : test.IsTest) : test.validate = .ok () :=
  isTest_cases (motive := fun test => test.validate = .ok ()) (fun _ _ _ => rfl) (fun _ _ _ => rfl)
    (fun _ => rfl) (fun _ => rfl) test isTest

variable {β γ : Type} {compile : Filter → Except Fault β}
variable {compileAll : List Filter → Except Fault (List γ)}

/-- What compilers of filters have in common: a test has a result, and a group, of which there has
to be a member, is built from the results of its members. -/
structure Compiles (compile : Filter → Except Fault β)
    (compileAll : List Filter → Except Fault (List γ)) : Prop where
  test : ∀ test, test.IsTest → ∃ result, compile test = .ok result
  allOf : ∃ build : List γ → β, ∀ members, compile (.allOf members) = do
    nonempty .allOf members
    build <$> compileAll members
  anyOf : ∃ build : List γ → β, ∀ members, compile (.anyOf members) = do
    nonempty .anyOf members
    build <$> compileAll members
  nil : compileAll [] = .ok []
  cons : ∃ build : β → γ, ∀ member rest, compileAll (member :: rest) = do
    let first ← compile member
    let others ← compileAll rest
    return build first :: others

theorem Compiles.validateAll (compiles : Compiles compile compileAll)
    (each : ∀ member ∈ members, (compile member).map (fun _ => ()) = member.validate) :
    (compileAll members).map (fun _ => ()) = Filter.validateAll members := by
  induction members with
  | nil => rw [compiles.nil]; rfl
  | cons member rest ih =>
      obtain ⟨build, cons⟩ := compiles.cons
      rw [cons, Filter.validateAll, ← each member (by simp),
        ← ih fun other inRest => each other (by simp [inRest])]
      cases compile member <;> cases compileAll rest <;> rfl

theorem Compiles.validate_test (compiles : Compiles compile compileAll) {test : Filter}
    (isTest : test.IsTest) : (compile test).map (fun _ => ()) = test.validate := by
  obtain ⟨result, compiled⟩ := compiles.test test isTest
  rw [compiled, validate_of_isTest isTest]
  rfl

/-- A compiler has a result for a filter if the filter is valid, and else its fault. -/
theorem Compiles.validate (compiles : Compiles compile compileAll) (filter : Filter) :
    (compile filter).map (fun _ => ()) = filter.validate := by
  induction filter using nested_induction with
  | compare | compareFields | isNull | isNotNull => exact compiles.validate_test trivial
  | allOf members ih =>
      obtain ⟨build, group⟩ := compiles.allOf
      rw [group, Filter.validate, ← compiles.validateAll ih]
      cases nonempty .allOf members <;> cases compileAll members <;> rfl
  | anyOf members ih =>
      obtain ⟨build, group⟩ := compiles.anyOf
      rw [group, Filter.validate, ← compiles.validateAll ih]
      cases nonempty .anyOf members <;> cases compileAll members <;> rfl

theorem Compiles.validate_rename (compiles : Compiles compile compileAll) (name : String → String)
    (filter : Filter) : (compile (filter.rename name)).map (fun _ => ()) = filter.validate := by
  rw [compiles.validate, verdict_rename]

theorem Compiles.exists_result (compiles : Compiles compile compileAll) (name : String → String)
    {filter : Filter} (valid : filter.validate = .ok ()) :
    ∃ result, compile (filter.rename name) = .ok result := by
  have verdict := compiles.validate_rename name filter
  rw [valid] at verdict
  cases compiled : compile (filter.rename name) with
  | error fault =>
      rw [compiled] at verdict
      cases verdict
  | ok result => exact ⟨result, rfl⟩

end Filter

namespace Sql

theorem compiles : Filter.Compiles condition conditions where
  test := Filter.isTest_cases (fun _ _ _ => ⟨_, rfl⟩) (fun _ _ _ => ⟨_, rfl⟩) (fun _ => ⟨_, rfl⟩)
    fun _ => ⟨_, rfl⟩
  allOf := ⟨_, fun _ => rfl⟩
  anyOf := ⟨_, fun _ => rfl⟩
  nil := rfl
  cons := ⟨id, fun _ _ => rfl⟩

/-- A condition as a text with its parameters. -/
structure Fragment where
  clause : String
  parameters : List Value
deriving DecidableEq

/-- A condition in a dialect, with parameters that are numbered from `first` on. -/
def Statement.fragment (flavor : Flavor) (first : Nat) (condition : Statement) : Fragment where
  clause := String.ofList (condition.render flavor first)
  parameters := condition.parameters

end Sql

theorem Document.compiles : Filter.Compiles Document.compile Document.compileAll where
  test := Filter.isTest_cases (fun _ _ _ => ⟨_, rfl⟩) (fun _ _ _ => ⟨_, rfl⟩) (fun _ => ⟨_, rfl⟩)
    fun _ => ⟨_, rfl⟩
  allOf := ⟨_, fun _ => rfl⟩
  anyOf := ⟨_, fun _ => rfl⟩
  nil := rfl
  cons := ⟨_, fun _ _ => rfl⟩

theorem KeyValue.compiles : Filter.Compiles KeyValue.compile KeyValue.compileAll where
  test := Filter.isTest_cases (fun _ _ _ => ⟨_, rfl⟩) (fun _ _ _ => ⟨_, rfl⟩) (fun _ => ⟨_, rfl⟩)
    fun _ => ⟨_, rfl⟩
  allOf := ⟨_, fun _ => rfl⟩
  anyOf := ⟨_, fun _ => rfl⟩
  nil := rfl
  cons := ⟨id, fun _ _ => rfl⟩

theorem Operation.map_compiled {α β : Type} (f : α → β) (result : Except Filter.Fault α) :
    (Operation.compiled result).map f = Operation.compiled (result.map f) := by
  cases result <;> rfl

/-- The compilers for the three kinds of store have a result for the valid filters, and refuse every
other one, as its validation does, for the first group without members. -/
theorem compilers_take_valid_filters (columnOf : String → String → String) (storage : String)
    (flavor : Sql.Flavor) (first : Nat) (filter : Filter) :
    let columns := some (filter.rename (columnOf storage))
    let verdict := Operation.compiled filter.validate
    (Operation.compiled ((Sql.condition? columns).map (Sql.Statement.fragment flavor first))).map
        (fun _ => ()) = verdict ∧
      (Operation.compiled (Document.compile? columns)).map (fun _ => ()) = verdict ∧
      (Operation.compiled (KeyValue.compile? columns)).map (fun _ => ()) = verdict ∧
      filter.validate = Filter.firstFault filter.nodes := by
  intro columns verdict
  have relational := Sql.compiles.validate_rename (columnOf storage) filter
  have documents := Document.compiles.validate_rename (columnOf storage) filter
  have items := KeyValue.compiles.validate_rename (columnOf storage) filter
  rw [Operation.map_compiled, Operation.map_compiled, Operation.map_compiled, map_map]
  refine ⟨congrArg Operation.compiled relational, congrArg Operation.compiled documents, ?_,
    filter.validate_eq_firstFault⟩
  exact congrArg Operation.compiled ((map_map _ some _).trans items)

end DataAccess
