import DataAccess.Proofs.Filter
import DataAccess.Sql.Statement

namespace DataAccess

namespace Filter

mutual

/-- A filter with a null in the place of each literal. -/
def erased : Filter → Filter
  | .compare field op _ => .compare field op .null
  | .compareFields left op right => .compareFields left op right
  | .isNull field => .isNull field
  | .isNotNull field => .isNotNull field
  | .allOf members => .allOf (erasedAll members)
  | .anyOf members => .anyOf (erasedAll members)

def erasedAll : List Filter → List Filter
  | [] => []
  | member :: rest => erased member :: erasedAll rest

end

theorem erasedAll_eq (members : List Filter) : erasedAll members = members.map erased := by
  induction members with
  | nil => rfl
  | cons member rest ih => rw [erasedAll, ih, List.map_cons]

theorem erased_rename (name : String → String) (filter : Filter) :
    (filter.rename name).erased = filter.erased.rename name := by
  induction filter using nested_induction with
  | compare | compareFields | isNull | isNotNull => rfl
  | allOf members ih | anyOf members ih =>
      simp only [rename, erased, renameAll_eq, erasedAll_eq, List.map_map]
      exact congrArg _ (List.map_congr_left ih)

theorem validateAll_congr {members : List Filter}
    (each : ∀ member ∈ members, member.erased.validate = member.validate) :
    validateAll (members.map erased) = validateAll members := by
  induction members with
  | nil => rfl
  | cons member rest ih =>
      rw [List.map_cons, validateAll, validateAll, each member (by simp),
        ih fun other inRest => each other (by simp [inRest])]

theorem nonempty_map (kind : Kind) (members : List Filter) :
    nonempty kind (members.map erased) = nonempty kind members := by
  cases members <;> rfl

/-- The literals of a filter have no part in its validity. -/
theorem validate_erased (filter : Filter) : filter.erased.validate = filter.validate := by
  induction filter using nested_induction with
  | compare | compareFields | isNull | isNotNull => rfl
  | allOf members ih | anyOf members ih =>
      simp only [erased, validate, erasedAll_eq, nonempty_map, validateAll_congr ih]

end Filter

namespace Sql

def Piece.erased : Piece → Piece
  | .value _ => .value .null
  | piece => piece

namespace Statement

variable {left right condition : Statement}

/-- A statement with a null in the place of each value. -/
def erased (statement : Statement) : Statement := statement.map Piece.erased

theorem render_erased (flavor : Flavor) (first : Nat) (statement : Statement) :
    render flavor first (erased statement) = render flavor first statement := by
  induction statement generalizing first with
  | nil => rfl
  | cons piece rest ih =>
      cases piece with
      | text text => exact congrArg (text.toList ++ ·) (ih first)
      | identifier name => exact congrArg (flavor.quote name.toList ++ ·) (ih first)
      | value value => exact congrArg (flavor.placeholder first ++ ·) (ih (first + 1))

theorem sql_eq_of_erased (flavor : Flavor) (same : erased left = erased right) :
    left.sql flavor = right.sql flavor := by
  rw [sql, sql, ← render_erased flavor 1 left, same, render_erased]

theorem erased_append (left right : Statement) :
    erased (left ++ right) = erased left ++ erased right :=
  List.map_append

theorem erased_separated (separator : String) (members : List Statement) :
    erased (separated separator members) = separated separator (members.map erased) := by
  induction members with
  | nil => rfl
  | cons member rest ih =>
      cases rest with
      | nil => rfl
      | cons next more =>
          have split : separated separator (member :: next :: more) =
              member ++ .text separator :: separated separator (next :: more) := rfl
          rw [split, erased_append]
          exact congrArg (fun tail => erased member ++ .text separator :: tail) ih

theorem erased_group (separator : String) (members : List Statement) :
    erased (.text "(" :: (separated separator members ++ [.text ")"])) =
      .text "(" :: (separated separator (members.map erased) ++ [.text ")"]) := by
  rw [← erased_separated]
  exact congrArg (Piece.text "(" :: ·) (erased_append _ _)

end Statement

open Statement

variable {condition other : Statement} {row changed : Record}

theorem conditions_erased {members : List Filter}
    (each : ∀ member ∈ members,
      Sql.condition member.erased = (Sql.condition member).map Statement.erased) :
    conditions (members.map Filter.erased) =
      (conditions members).map (List.map Statement.erased) := by
  induction members with
  | nil => rfl
  | cons member rest ih =>
      rw [List.map_cons, conditions, conditions, each member (by simp),
        ih fun other inRest => each other (by simp [inRest])]
      cases Sql.condition member <;> cases conditions rest <;> rfl

/-- The condition of a filter without its literals is that of the filter without its values. -/
theorem condition_erased (filter : Filter) :
    Sql.condition filter.erased = (Sql.condition filter).map Statement.erased := by
  induction filter using Filter.nested_induction with
  | compare | compareFields | isNull | isNotNull => rfl
  | allOf members ih | anyOf members ih =>
      simp only [Filter.erased, Sql.condition, Filter.erasedAll_eq, Filter.nonempty_map,
        conditions_erased ih]
      cases Filter.nonempty _ members with
      | error fault => rfl
      | ok _ =>
          cases conditions members with
          | error fault => rfl
          | ok statements =>
              exact congrArg Except.ok (erased_group _ statements).symm

theorem condition?_erased (filter : Option Filter) :
    condition? (filter.map Filter.erased) = (condition? filter).map Statement.erased := by
  cases filter with
  | none => rfl
  | some filter => exact condition_erased filter

theorem erased_whereClause (condition : Statement) :
    erased (whereClause condition) = whereClause (erased condition) := by
  cases condition <;> rfl

theorem erased_whereClause_congr (same : erased condition = erased other) :
    erased (whereClause condition) = erased (whereClause other) := by
  rw [erased_whereClause, same, ← erased_whereClause]

theorem erased_select (flavor : Flavor) (projection : Statement) (table : String)
    (sorting : Sorting) (offset limit : Nat) (same : erased condition = erased other) :
    erased (select flavor projection table condition sorting offset limit) =
      erased (select flavor projection table other sorting offset limit) := by
  have clauses := erased_whereClause_congr same
  simp only [erased] at clauses
  simp only [select, erased, List.map_cons, List.map_append, clauses]

theorem erased_delete (table : String) (same : erased condition = erased other) :
    erased (delete table condition) = erased (delete table other) := by
  have clauses := erased_whereClause_congr same
  simp only [erased] at clauses
  simp only [delete, erased, List.map_cons, clauses]

/-- The values of a row as statements without values, which are as many as its columns. -/
theorem erased_values (row : Record) :
    ((Dict.values row).map fun value => [Piece.value value]).map erased =
      (Dict.keys row).map fun _ => [.value .null] := by
  simp only [Dict.values, Dict.keys, List.map_map]
  rfl

theorem erased_assignments (row : Record) :
    (row.map fun entry =>
        [Piece.identifier entry.1, .text " = ", .value entry.2]).map erased =
      (Dict.keys row).map fun column => [.identifier column, .text " = ", .value .null] := by
  simp only [Dict.keys, List.map_map]
  rfl

theorem erased_insert (table : String) (columns : Dict.keys row = Dict.keys changed) :
    erased (insert table row) = erased (insert table changed) := by
  have values := erased_separated ", " ((Dict.values row).map fun value => [Piece.value value])
  rw [erased_values, columns, ← erased_values, ← erased_separated] at values
  simp only [erased] at values
  simp only [insert, erased, List.map_cons, List.map_append, columns, values]

theorem erased_update (table : String) (columns : Dict.keys row = Dict.keys changed)
    (same : erased condition = erased other) :
    erased (update table row condition) = erased (update table changed other) := by
  have clauses := erased_whereClause_congr same
  have assignments := erased_separated ", "
    (row.map fun entry => [Piece.identifier entry.1, .text " = ", .value entry.2])
  rw [erased_assignments, columns, ← erased_assignments, ← erased_separated] at assignments
  simp only [erased] at clauses assignments
  simp only [update, erased, List.map_cons, List.map_append, clauses, assignments]

end Sql

end DataAccess
