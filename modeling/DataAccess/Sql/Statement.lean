import DataAccess.Filter
import DataAccess.Sorting
import DataAccess.Sql.Flavor

/-!
# SQL statements

A statement is a list of pieces: plain text, identifiers and values. Rendered in a dialect, the
identifiers are quoted and each value becomes a placeholder, numbered from left to right; the values
themselves go with the text as its parameters, in the same order.
-/

namespace DataAccess.Sql

inductive Piece
  | text (text : String)
  | identifier (name : String)
  | value (value : Value)
deriving DecidableEq

abbrev Statement := List Piece

namespace Statement

/-- The text of a statement whose first parameter has the number `first`. -/
def render (flavor : Flavor) (first : Nat) : Statement → List Char
  | [] => []
  | .text text :: rest => text.toList ++ render flavor first rest
  | .identifier name :: rest => flavor.quote name.toList ++ render flavor first rest
  | .value _ :: rest => flavor.placeholder first ++ render flavor (first + 1) rest

/-- The values, in the order of their placeholders. -/
def parameters : Statement → List Value
  | [] => []
  | .value value :: rest => value :: parameters rest
  | _ :: rest => parameters rest

def sql (statement : Statement) (flavor : Flavor) : String :=
  String.ofList (statement.render flavor 1)

/-- Statements one after the other, with a text between them. -/
def separated (separator : String) : List Statement → Statement
  | [] => []
  | [statement] => statement
  | statement :: rest => statement ++ .text separator :: separated separator rest

theorem parameters_append (left right : Statement) :
    parameters (left ++ right) = parameters left ++ parameters right := by
  induction left with
  | nil => rfl
  | cons piece rest ih => cases piece <;> simp [parameters, ih]

theorem render_append (flavor : Flavor) (first : Nat) (left right : Statement) :
    render flavor first (left ++ right) =
      render flavor first left ++
        render flavor (first + (parameters left).length) right := by
  induction left generalizing first with
  | nil => simp [render, parameters]
  | cons piece rest ih =>
      cases piece with
      | text text => simp [render, parameters, ih]
      | identifier name => simp [render, parameters, ih]
      | value value => simp [render, parameters, ih, Nat.add_assoc, Nat.add_comm 1]

end Statement

mutual

/-- The condition that a filter over columns stands for, each group between parentheses. -/
def condition : Filter → Except Filter.Fault Statement
  | .compare field op value =>
      .ok [.identifier field, .text (" " ++ op.symbol ++ " "), .value value]
  | .compareFields left op right =>
      .ok [.identifier left, .text (" " ++ op.symbol ++ " "), .identifier right]
  | .isNull field => .ok [.identifier field, .text " IS NULL"]
  | .isNotNull field => .ok [.identifier field, .text " IS NOT NULL"]
  | .allOf members => do
      Filter.nonempty .allOf members
      let members ← conditions members
      return .text "(" :: (Statement.separated " AND " members ++ [.text ")"])
  | .anyOf members => do
      Filter.nonempty .anyOf members
      let members ← conditions members
      return .text "(" :: (Statement.separated " OR " members ++ [.text ")"])

def conditions : List Filter → Except Filter.Fault (List Statement)
  | [] => .ok []
  | member :: rest => do
      let member ← condition member
      let rest ← conditions rest
      return member :: rest

end

/-- The condition of a filter that may be absent; nothing is written then. -/
def condition? : Option Filter → Except Filter.Fault Statement
  | none => .ok []
  | some filter => condition filter

/-- The condition behind its keyword, or nothing. -/
def whereClause (condition : Statement) : Statement :=
  if condition.isEmpty then [] else .text " WHERE " :: condition

def identifiers (names : List String) : Statement :=
  Statement.separated ", " (names.map fun name => [.identifier name])

def sortClause : Sorting → Statement
  | [] => []
  | sorting =>
      .text " ORDER BY " ::
        Statement.separated ", " (sorting.map fun key =>
          [.identifier key.field, .text (if key.descending then " DESC" else " ASC")])

/-- A query of a table: what to fetch, a condition, a sorting, and a page of the result. -/
def select (flavor : Flavor) (projection : Statement) (table : String) (condition : Statement)
    (sorting : Sorting) (offset limit : Nat) : Statement :=
  .text "SELECT " :: (projection ++ .text " FROM " :: .identifier table ::
    (whereClause condition ++ sortClause sorting ++
      [.text (flavor.paging offset limit (!sorting.isEmpty))]))

def insert (table : String) (row : Record) : Statement :=
  .text "INSERT INTO " :: .identifier table :: .text " (" ::
    (identifiers (Dict.keys row) ++ .text ") VALUES (" ::
      (Statement.separated ", " ((Dict.values row).map fun value => [.value value]) ++ [.text ")"]))

def update (table : String) (row : Record) (condition : Statement) : Statement :=
  .text "UPDATE " :: .identifier table :: .text " SET " ::
    (Statement.separated ", "
        (row.map fun (column, value) => [.identifier column, .text " = ", .value value]) ++
      whereClause condition)

def delete (table : String) (condition : Statement) : Statement :=
  .text "DELETE FROM " :: .identifier table :: whereClause condition

/-- The definition of a table whose columns have no types, with a primary key, where it has one, and
further constraints. -/
def createTable (table : String) (columns : List String) (primaryKey : Option (List String))
    (unique : List (List String)) : Statement :=
  let constraint (keyword : String) (columns : List String) : Statement :=
    .text (keyword ++ " (") :: (identifiers columns ++ [.text ")"])
  let constraints :=
    primaryKey.toList.map (constraint "PRIMARY KEY") ++ unique.map (constraint "UNIQUE")
  .text "CREATE TABLE " :: .identifier table :: .text " (" ::
    (Statement.separated ", " (columns.map (fun column => [.identifier column]) ++ constraints) ++
      [.text ")"])

end DataAccess.Sql
