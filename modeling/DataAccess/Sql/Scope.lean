import DataAccess.Sql.Command
import DataAccess.Sql.Table

namespace DataAccess.Sql

/-- What terms are evaluated in: a table's row, where there is one, and the parameters. -/
structure Scope where
  table : Option Table := none
  row : Option Row := none
  parameters : List Cell := []

/-- Whether both of two truth values hold, where either may be unknown. -/
def both? : Option Bool → Option Bool → Option Bool
  | some false, _ => some false
  | _, some false => some false
  | some true, some true => some true
  | _, _ => none

/-- Whether one of two truth values holds, where either may be unknown. -/
def either? : Option Bool → Option Bool → Option Bool
  | some true, _ => some true
  | _, some true => some true
  | some false, some false => some false
  | _, _ => none

namespace Scope

def column? (scope : Scope) (name : String) : Option Cell :=
  match scope.table, scope.row with
  | some table, some row => (table.position? name).bind (row.cells[·]?)
  | _, _ => none

/-- Whether a term means something in a table. -/
def knows (table : Option Table) : Term → Bool
  | .column name false =>
      match table with
      | some table => (table.position? name).isSome || isRowId name
      | none => false
  | _ => true

/-- The number of the row, where a term means it. -/
def rowId? (scope : Scope) : Term → Option Int
  | .column name _ =>
      match scope.column? name, scope.table, scope.row with
      | none, some _, some row => if isRowId name then some row.id else none
      | _, _, _ => none
  | _ => none

def evaluate (scope : Scope) (term : Term) : Cell :=
  match term, scope.rowId? term with
  | _, some id => .integer id
  | .literal cell, none => cell
  | .parameter position, none => scope.parameters[position]?.getD .null
  | .column name _, none => (scope.column? name).getD (.text (Utf8.encode name))

/-- Compares two terms; what is compared with the number of a row is a number if it can be. -/
def compares? (scope : Scope) (op : Comparison) (left right : Term) : Option Bool :=
  let x := scope.evaluate left
  let y := scope.evaluate right
  if (scope.rowId? left).isSome || (scope.rowId? right).isSome then
    Cell.compares? op x.toNumeric y.toNumeric
  else Cell.compares? op x y

def holds? (scope : Scope) : Predicate → Option Bool
  | .compare left op right => scope.compares? op left right
  | .isNull term => some (scope.evaluate term == .null)
  | .isNotNull term => some (scope.evaluate term != .null)
  | .both left right => both? (scope.holds? left) (scope.holds? right)
  | .either left right => either? (scope.holds? left) (scope.holds? right)

def satisfies (scope : Scope) : Option Predicate → Bool
  | none => true
  | some predicate => scope.holds? predicate == some true

end Scope

/-- The terms of a predicate all mean something in a table. -/
def Predicate.knownIn (table : Option Table) : Predicate → Bool
  | .compare left _ right => Scope.knows table left && Scope.knows table right
  | .isNull term => Scope.knows table term
  | .isNotNull term => Scope.knows table term
  | .both left right => left.knownIn table && right.knownIn table
  | .either left right => left.knownIn table && right.knownIn table

end DataAccess.Sql
