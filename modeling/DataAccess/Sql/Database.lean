import DataAccess.Sql.Selection

namespace DataAccess.Sql

structure Database where
  tables : List Table := []
  config : StoreConfig := {}
  /-- How many rows the last statement changed that could change any. -/
  changed : Nat := 0
deriving DecidableEq

namespace Table

/-- What a column of a statement means, unless the table has no such column. -/
def target? (table : Table) (column : String) : Option Key :=
  match table.position? column with
  | some position => some (.column position)
  | none => if isRowId column then some .rowId else none

/-- What the columns of a statement mean, all of which the table must have. -/
def targets (table : Table) (columns : List String) : Except StoreError (List Key) :=
  match columns.mapM table.target? with
  | some targets => .ok targets
  | none => .error .sqlite

/-- The first of the cells that are written to a target. -/
def written (target : Key) (writes : List (Key × Cell)) : Option Cell :=
  (writes.find? (·.1 == target)).map Prod.snd

/-- Adds a row. Of several cells for a column the first counts, but of several for the row's number
the last; without one the row gets the next number. -/
def insertRow (table : Table) (writes : List (Key × Cell)) : Except StoreError Table := do
  let cells := (List.range table.columns.length).map fun position =>
    (written (.column position) writes).getD .null
  let id ← match written .rowId writes.reverse with
    | none => pure (nextId table.rows)
    | some .null => pure (nextId table.rows)
    | some cell =>
        match cell.rowId? with
        | some id => pure id
        | none => .error .sqlite
  let row : Row := { id, cells }
  table.check row table.rows
  return { table with rows := place row table.rows }

/-- A row with cells written to it, of several for one column the last. -/
def changedRow (row : Row) (writes : List (Key × Cell)) : Except StoreError Row := do
  let cells := row.cells.mapIdx fun position cell =>
    (written (.column position) writes.reverse).getD cell
  match written .rowId writes.reverse with
  | none => return { row with cells }
  | some cell =>
      match cell.rowId? with
      | some id => return { id, cells }
      | none => .error .sqlite

/-- Writes the rows that are to change, one after the other; none may agree with any other row as
it is at that moment. -/
def updateRows (table : Table) (change : Row → Option (List (Key × Cell))) (done : List Row) :
    List Row → Except StoreError (Nat × List Row)
  | [] => .ok (0, done)
  | row :: rest =>
      match change row with
      | none => updateRows table change (place row done) rest
      | some writes => do
          let changed ← changedRow row writes
          table.check changed (done ++ rest)
          let (count, rows) ← updateRows table change (place changed done) rest
          return (count + 1, rows)

end Table

namespace Database

def schemaColumns : List String := ["type", "name", "tbl_name", "rootpage", "sql"]

def isSchemaName (name : String) : Bool :=
  ["sqlite_master", "sqlite_schema"].any (sameName name)

/-- The names of the table that describes temporary tables, of which there are none. -/
def isTemporarySchemaName (name : String) : Bool :=
  ["sqlite_temp_master", "sqlite_temp_schema"].any (sameName name)

def textCell (text : String) : Cell := .text (Utf8.encode text)

/-- What describes a table and the indexes of its constraints, which take a page each from a given
one on. -/
def describeTable (page : Nat) (table : Table) : List (List Cell) :=
  let name := textCell table.name
  let index (position : Nat) : List Cell :=
    [textCell "index",
      textCell ("sqlite_autoindex_" ++ table.name ++ "_" ++ String.ofList (Decimal.ofNat position)),
      name, .integer (page + position), .null]
  [textCell "table", name, name, .integer page, textCell table.definition] ::
    (List.range table.constraints.length).map fun position => index (position + 1)

def describeTables : Nat → List Table → List (List Cell)
  | _, [] => []
  | page, table :: rest =>
      describeTable page table ++ describeTables (page + 1 + table.constraints.length) rest

/-- The first page that is free for a table; the one before holds the schema. -/
def firstPage : Nat := 2

/-- The table that describes tables. -/
def schema (name : String) (tables : List Table) : Table where
  name := name
  columns := schemaColumns
  rows := (describeTables firstPage tables).mapIdx fun position cells =>
    { id := position + 1, cells }

def table? (database : Database) (name : String) : Option Table :=
  database.tables.find? fun table => sameName name table.name

/-- A table that is to be changed. -/
def table (database : Database) (name : String) : Except StoreError Table :=
  match database.table? name with
  | some table => .ok table
  | none => .error .sqlite

/-- A table that is to be read. -/
def readTable (database : Database) (name : String) : Except StoreError Table :=
  if isSchemaName name then .ok (schema name database.tables)
  else if isTemporarySchemaName name then .ok (schema name [])
  else database.table name

def putTable (database : Database) (table : Table) : Database :=
  { database with
    tables := database.tables.map fun other =>
      if sameName table.name other.name then table else other }

/-- Names that tables cannot have. -/
def isReserved (name : String) : Bool :=
  (Text.lowerAscii name.toList).take 7 == "sqlite_".toList

def namesRepeat : List String → Bool
  | [] => false
  | name :: rest => rest.any (sameName name) || namesRepeat rest

/-- The names of columns as the table gives them, if it has them all. -/
def ownNames (columns : List String) (names : List String) : Except StoreError (List String) :=
  match names.mapM fun name => columns.find? (sameName name) with
  | some names => .ok names
  | none => .error .sqlite

/-- Adds a table without rows. Constraints on the same columns in the same order are one. -/
def createTable (database : Database) (name : String) (columns : List String)
    (constraints : List (List String)) (definition : String) : Except StoreError Database := do
  if (database.table? name).isSome || isReserved name || namesRepeat columns ||
      mostColumns < columns.length then
    .error .sqlite
  else
    let constraints ← constraints.mapM (ownNames columns)
    let table : Table := { name, columns, constraints := constraints.eraseDups, definition }
    return { database with tables := database.tables ++ [table] }

/-- What a statement would change: how many rows, and the database after it. -/
abbrev Change := Except StoreError (Nat × Database)

/-- Adds a row. The outer error is that of a statement that makes no sense, the inner one that of a
change that is refused. -/
def insert (database : Database) (name : String) (columns : List String) (values : List Term)
    (parameters : List Cell) : Except StoreError Change := do
  let table ← database.table name
  let targets ← table.targets columns
  if targets.length ≠ values.length ∨ !values.all (Scope.knows none) then .error .sqlite
  else
    let cells := values.map { parameters : Scope }.evaluate
    return (table.insertRow (targets.zip cells)).map fun table => (1, database.putTable table)

def update (database : Database) (name : String) (assignments : List (String × Term))
    (predicate : Option Predicate) (parameters : List Cell) : Except StoreError Change := do
  let table ← database.table name
  let targets ← table.targets (assignments.map Prod.fst)
  let values := assignments.map Prod.snd
  if mostColumns < assignments.length ∨ !values.all (Scope.knows (some table)) ∨
      !predicate.all (·.knownIn (some table)) then
    .error .sqlite
  else
    let change := fun row =>
      let scope : Scope := { table := some table, row := some row, parameters }
      if scope.satisfies predicate then some (targets.zip (values.map scope.evaluate)) else none
    return (table.updateRows change [] table.rows).map fun (count, rows) =>
      (count, database.putTable { table with rows })

def delete (database : Database) (name : String) (predicate : Option Predicate)
    (parameters : List Cell) : Except StoreError Change := do
  let table ← database.table name
  if !predicate.all (·.knownIn (some table)) then .error .sqlite
  else
    let (gone, rows) := table.rows.partition fun row =>
      { table := some table, row := some row, parameters : Scope }.satisfies predicate
    return .ok (gone.length, database.putTable { table with rows })

/-- Makes a change and remembers how many rows it changed; a change that is refused changed none. -/
def apply (database : Database) : Except StoreError Change → Except StoreError Nat × Database
  | .error error => (.error error, database)
  | .ok (.error error) => (.error error, { database with changed := 0 })
  | .ok (.ok (count, database)) => (.ok count, { database with changed := count })

/-- The rows that a query fetches, before anything is read from them. -/
def fetch (database : Database) (selection : Selection) (parameters : List Cell) :
    Except StoreError (Option Table × List Scope) := do
  let table ← match selection.table with
    | some name => some <$> database.readTable name
    | none => pure none
  let scopes ← selection.fetched table parameters
  return (table, scopes)

/-- Runs a command that answers how many rows it changed. One that can change none answers how many
were changed last, and a query must find nothing. -/
def run (database : Database) (sql : String) (parameters : List Cell) :
    Command → Except StoreError Nat × Database
  | .select selection =>
      match database.fetch selection parameters with
      | .error error => (.error error, database)
      | .ok (_, []) => (.ok database.changed, database)
      | .ok (_, _ :: _) => (.error .sqlite, database)
  | .insert table columns values => database.apply (database.insert table columns values parameters)
  | .update table assignments predicate =>
      database.apply (database.update table assignments predicate parameters)
  | .delete table predicate => database.apply (database.delete table predicate parameters)
  | .createTable name columns constraints =>
      match database.createTable name columns constraints sql with
      | .error error => (.error error, database)
      | .ok database => (.ok database.changed, database)

/-- The command of a statement, and its parameters, of which there must be as many as it has. -/
def prepare (sql : String) (parameters : List Value) : Except StoreError (Command × List Cell) :=
  match Command.ofText? sql with
  | some (command, expected) =>
      if parameters.length = expected then .ok (command, parameters.map Cell.ofValue)
      else .error .sqlite
  | none => .error .sqlite

def select (database : Database) (selection : Selection) (parameters : List Cell) :
    Except StoreError (List Record) := do
  let (table, scopes) ← database.fetch selection parameters
  selection.records table scopes

/-- Answers the rows of a query; any other statement has none. -/
def query (database : Database) (sql : String) (parameters : List Value) :
    Except StoreError (Cursor Record) × Database :=
  match prepare sql parameters with
  | .error error => (.error error, database)
  | .ok (.select selection, cells) =>
      ((database.select selection cells).map Cursor.ofList, database)
  | .ok (command, cells) =>
      let (result, database) := database.run sql cells command
      (result.map fun _ => [], database)

def execute (database : Database) (sql : String) (parameters : List Value) :
    Except StoreError Nat × Database :=
  match prepare sql parameters with
  | .error error => (.error error, database)
  | .ok (command, cells) => database.run sql cells command

def act : (request : Call) → Database → Except StoreError request.Answer × Database
  | .query sql parameters, database => database.query sql parameters
  | .execute sql parameters, database => database.execute sql parameters

/-- Runs a statement without parameters, to set the database up. -/
def setUp (database : Database) (sql : String) : Except StoreError Database :=
  match database.execute sql [] with
  | (.ok _, database) => .ok database
  | (.error error, _) => .error error

end Database

/-- The database as a connection. A transaction that is undone leaves how many rows were changed
last. -/
def inMemory : Connection interface Database where
  perform := Connection.checked (I := interface) Database.act
  transact context _ :=
    Connection.atomic (fun after before => { before with changed := after.changed }) context

end DataAccess.Sql
