import DataAccess.Sorting
import DataAccess.Sql.Cell
import DataAccess.Text.Blank

/-!
# Tables

Tables whose columns have no types. Every row has a number, which is unique in its table, and rows
stand in the order of their numbers. No two rows agree on a constraint, where a null agrees with
nothing; the number is checked first, and of several constraints the one declared last. Names do not
tell capital letters from small ones.
-/

namespace DataAccess.Sql

structure Row where
  id : Int
  cells : List Cell
deriving DecidableEq

structure Table where
  name : String
  columns : List String
  /-- The columns of each constraint, in the order of declaration. -/
  constraints : List (List String) := []
  rows : List Row := []
  /-- The statement that created the table. -/
  definition : String := ""
deriving DecidableEq

def sameName (left right : String) : Bool :=
  Text.lowerAscii left.toList == Text.lowerAscii right.toList

/-- The names of a row's own number, in tables that have no column of that name. -/
def isRowId (name : String) : Bool := ["rowid", "oid", "_rowid_"].any (sameName name)

/-- The number of a row that a cell gives: a whole number, or a text that spells one. -/
def Cell.rowId? (cell : Cell) : Option Int :=
  match cell.toNumeric with
  | .integer i => some i
  | .real x =>
      let units := x.signedUnits
      let whole := units / Binary64.unitsOfOne
      if units % Binary64.unitsOfOne = 0 ∧ -9223372036854775808 < whole ∧
          whole < 9223372036854775807 then some whole
      else none
  | _ => none

/-- The most columns that a table, a result, an order or a change may have. -/
def mostColumns : Nat := 2000

namespace Table

def position? (table : Table) (column : String) : Option Nat :=
  table.columns.findIdx? (sameName column)

def hasRow (rows : List Row) (id : Int) : Bool := rows.any (·.id == id)

/-- The number of the next row: one above the greatest, or a free one where there is none above. -/
def nextId (rows : List Row) : Int :=
  match rows.getLast? with
  | none => 1
  | some last =>
      if last.id < 9223372036854775807 then last.id + 1
      else
        let candidates := (List.range (rows.length + 1)).map fun n : Nat =>
          4611686018427387904 - (n : Int)
        (candidates.find? fun id => !hasRow rows id).getD 1

/-- Puts a row in its place among rows in the order of their numbers. -/
def place (row : Row) (rows : List Row) : List Row :=
  insertSorted (fun left right => left.id < right.id) row rows

/-- The cells of some columns. -/
def key (table : Table) (columns : List String) (cells : List Cell) : List Cell :=
  columns.filterMap fun column => (table.position? column).bind (cells[·]?)

def keysClash : List Cell → List Cell → Bool
  | [], [] => true
  | x :: xs, y :: ys => x.clashes y && keysClash xs ys
  | _, _ => false

/-- Refuses a row that agrees with another one on its number or on a constraint. -/
def check (table : Table) (row : Row) (others : List Row) : Except StoreError Unit :=
  if hasRow others row.id then .error .sqlite
  else
    match table.constraints.reverse.find? fun columns =>
        others.any fun other => keysClash (table.key columns row.cells) (table.key columns other.cells) with
    | some columns => .error (.duplicateKey (.violated table.name columns))
    | none => .ok ()

end Table

end DataAccess.Sql
