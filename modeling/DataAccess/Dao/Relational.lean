import DataAccess.Dao.Operation
import DataAccess.RowMapper
import DataAccess.Sql.Connection
import DataAccess.Sql.Statement

/-!
# Data access to relational databases

Storages are tables. `create` first looks for the record, in one transaction with the insert unless
it is configured otherwise; the constraints of the table have the last word. `update` and `save`
write the whole record in one transaction: every column of it gets a value, null where the object
has none.
-/

namespace DataAccess

structure RelationalDao where
  flavor : Sql.Flavor
  mapping : Mapping := []
  key : KeyFilter
  config : DaoConfig := {}

namespace RelationalDao

open Sql (interface Statement)

def mapper (dao : RelationalDao) : RowMapper := { kind := .relational, mapping := dao.mapping }

/-- A filter by fields as a condition on columns. -/
def condition (dao : RelationalDao) (storage : String) (filter : Option Filter) :
    Except DaoError Statement :=
  Operation.compiled (Sql.condition? (filter.map (Filter.rename (dao.mapper.columnOf storage))))

/-- What a fetch asks for. -/
def projection (dao : RelationalDao) (storage : String) : Statement :=
  match dao.mapper.columns storage with
  | .all => [.text "*"]
  | .listed names => Sql.identifiers names

def query (dao : RelationalDao) (context : Context) (statement : Statement) :
    Operation interface (Cursor Record) :=
  Operation.ofCall (Sql.query context (statement.sql dao.flavor) statement.parameters)

def execute (dao : RelationalDao) (context : Context) (statement : Statement) :
    Operation interface Nat :=
  Operation.ofCall (Sql.execute context (statement.sql dao.flavor) statement.parameters)

/-- The first row that satisfies a filter. -/
def firstRow (dao : RelationalDao) (context : Context) (storage : String)
    (projection : Statement) (filter : Option Filter) : Operation interface (Option Record) := do
  let condition ← Operation.ofExcept (dao.condition storage filter)
  let rows ← dao.query context (Sql.select dao.flavor projection storage condition [] 0 1)
  Operation.ofExcept (Operation.ofStore rows.first)

def insert (dao : RelationalDao) (context : Context) (storage : String) (row : Record) :
    Operation interface Nat :=
  dao.execute context (Sql.insert storage row)

/-- A row with a null in every further column of another. -/
def padRow (row existing : Record) : Record :=
  (Dict.keys existing).foldl (fun row column => Dict.insertNew row column .null) row

/-- The row that takes the place of a record: where no columns are listed, the record that is there
tells which they are. -/
def replacement (dao : RelationalDao) (context : Context) (storage : String) (filter : Filter)
    (row : Record) : Operation interface (Option Record) :=
  match dao.mapper.columns storage with
  | .listed _ => pure (some row)
  | .all => do
      let existing ← dao.firstRow context storage [.text "*"] (some filter)
      return existing.map (padRow row)

/-- Overwrites every column of the record that satisfies a filter. -/
def replace (dao : RelationalDao) (context : Context) (storage : String) (filter : Filter)
    (row : Record) : Operation interface Nat := do
  match ← dao.replacement context storage filter row with
  | none => return 0
  | some row =>
      if row.isEmpty then return 0
      else do
        let condition ← Operation.ofExcept (dao.condition storage (some filter))
        dao.execute context (Sql.update storage row condition)

def prepare (dao : RelationalDao) (storage : String) (object : BusinessObject) :
    Except DaoError (Filter × Record) := do
  let filter ← dao.key.filter storage object
  let row ← dao.mapper.toRow storage object
  return (filter, row)

/-- Looks for a record and inserts the row if there is none. -/
def insertNew (dao : RelationalDao) (context : Context) (storage : String) (filter : Filter)
    (row : Record) : Operation interface Nat := do
  let found ← dao.firstRow context storage [.text "1"] (some filter)
  if found.isSome then throw .duplicateEntry
  else dao.insert context storage row

def create (dao : RelationalDao) (context : Context) (storage : String)
    (object : BusinessObject) : Operation interface Nat := do
  let (filter, row) ← Operation.ofExcept (dao.prepare storage object)
  let body := dao.insertNew context storage filter row
  if dao.config.transactionalCreate then
    Operation.inTransaction context dao.config.isolation body
  else body

def update (dao : RelationalDao) (context : Context) (storage : String)
    (object : BusinessObject) : Operation interface Nat := do
  let (filter, row) ← Operation.ofExcept (dao.prepare storage object)
  Operation.inTransaction context dao.config.isolation
    (dao.replace context storage filter row)

/-- Overwrites the record, or inserts the row if nothing was overwritten. -/
def replaceOrInsert (dao : RelationalDao) (context : Context) (storage : String)
    (filter : Filter) (row : Record) : Operation interface Nat := do
  let replaced ← dao.replace context storage filter row
  if replaced = 0 then dao.insert context storage row else return replaced

def save (dao : RelationalDao) (context : Context) (storage : String)
    (object : BusinessObject) : Operation interface Nat := do
  let (filter, row) ← Operation.ofExcept (dao.prepare storage object)
  Operation.inTransaction context dao.config.isolation
    (dao.replaceOrInsert context storage filter row)

def delete (dao : RelationalDao) (context : Context) (storage : String)
    (object : BusinessObject) : Operation interface Nat := do
  let filter ← Operation.ofExcept (dao.key.filter storage object)
  let condition ← Operation.ofExcept (dao.condition storage (some filter))
  dao.execute context (Sql.delete storage condition)

def fetchOne (dao : RelationalDao) (context : Context) (storage : String)
    (filter : Option Filter) : Operation interface (Option BusinessObject) := do
  let row ← dao.firstRow context storage (dao.projection storage) filter
  Operation.ofExcept (dao.mapper.toObject? storage row)

def fetchMany (dao : RelationalDao) (context : Context) (storage : String)
    (filter : Option Filter) (sorting : Sorting) (offset limit : Nat) :
    Operation interface (List BusinessObject) := do
  let condition ← Operation.ofExcept (dao.condition storage filter)
  let keys := dao.mapper.sortKeys storage sorting
  let rows ← dao.query context
    (Sql.select dao.flavor (dao.projection storage) storage condition keys offset limit)
  Operation.ofExcept (dao.mapper.decodeAll storage rows)

end RelationalDao

def RelationalDao.operations (dao : RelationalDao) : Dao Sql.interface where
  keyFilter := dao.key.filter
  create := dao.create
  update := dao.update
  save := dao.save
  delete := dao.delete
  fetchOne := dao.fetchOne
  fetchMany := dao.fetchMany

end DataAccess
