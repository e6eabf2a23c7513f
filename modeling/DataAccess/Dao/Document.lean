import DataAccess.Dao.Operation
import DataAccess.Document.Compile
import DataAccess.Document.Store
import DataAccess.RowMapper

namespace DataAccess

structure DocumentDao where
  mapping : Mapping := []
  key : KeyFilter
  config : DaoConfig := {}

namespace DocumentDao

open Document (interface compile? sortDocument)

def mapper (dao : DocumentDao) : RowMapper := { kind := .document, mapping := dao.mapping }

/-- A filter by fields as a filter document. -/
def query (dao : DocumentDao) (storage : String) (filter : Option Filter) : Except DaoError Record :=
  Operation.compiled (compile? (filter.map (Filter.rename (dao.mapper.columnOf storage))))

/-- The filter document for the record of an object. -/
def keyQuery (dao : DocumentDao) (storage : String) (object : BusinessObject) :
    Except DaoError Record := do
  let filter ← dao.key.filter storage object
  dao.query storage (some filter)

/-- The key filter document of an object, and its document. -/
def prepare (dao : DocumentDao) (storage : String) (object : BusinessObject) :
    Except DaoError (Record × Record) := do
  let filter ← dao.keyQuery storage object
  let document ← dao.mapper.toRow storage object
  return (filter, document)

/-- Looks for a record and inserts the document if there is none. -/
def insertNew (context : Context) (storage : String) (filter document : Record) :
    Operation interface Nat := do
  let found ← Operation.ofCall (Document.findOne context storage filter)
  if found.isSome then throw .duplicateEntry
  else do
    let _ ← Operation.ofCall (Document.insertOne context storage document)
    return 1

def create (dao : DocumentDao) (context : Context) (storage : String) (object : BusinessObject) :
    Operation interface Nat := do
  let (filter, document) ← Operation.ofExcept (dao.prepare storage object)
  let body := insertNew context storage filter document
  if dao.config.transactionalCreate then
    Operation.inTransaction context dao.config.isolation body
  else body

def replace (dao : DocumentDao) (context : Context) (storage : String) (upsert : Bool)
    (object : BusinessObject) : Operation interface Document.ReplaceOutcome := do
  let (filter, document) ← Operation.ofExcept (dao.prepare storage object)
  Operation.ofCall (Document.replaceOne context storage filter document upsert)

def update (dao : DocumentDao) (context : Context) (storage : String) (object : BusinessObject) :
    Operation interface Nat := do
  let outcome ← dao.replace context storage false object
  return outcome.matched

def save (dao : DocumentDao) (context : Context) (storage : String) (object : BusinessObject) :
    Operation interface Nat := do
  let _ ← dao.replace context storage true object
  return 1

def delete (dao : DocumentDao) (context : Context) (storage : String) (object : BusinessObject) :
    Operation interface Nat := do
  let filter ← Operation.ofExcept (dao.keyQuery storage object)
  Operation.ofCall (Document.deleteOne context storage filter)

def fetchOne (dao : DocumentDao) (context : Context) (storage : String)
    (filter : Option Filter) : Operation interface (Option BusinessObject) := do
  let filter ← Operation.ofExcept (dao.query storage filter)
  let found ← Operation.ofCall (Document.findOne context storage filter)
  Operation.ofExcept (dao.mapper.toObject? storage found)

/-- The options of a search: the store sorts and cuts. -/
def options (dao : DocumentDao) (storage : String) (sorting : Sorting) (offset limit : Nat) :
    Document.FindOptions where
  sort := if sorting.isEmpty then none
    else some (sortDocument (dao.mapper.sortKeys storage sorting))
  skip := offset
  limit := if limit = 0 then none else some limit

def fetchMany (dao : DocumentDao) (context : Context) (storage : String)
    (filter : Option Filter) (sorting : Sorting) (offset limit : Nat) :
    Operation interface (List BusinessObject) := do
  let filter ← Operation.ofExcept (dao.query storage filter)
  let options := dao.options storage sorting offset limit
  let found ← Operation.ofCall (Document.find context storage filter options)
  Operation.ofExcept (dao.mapper.decodeAll storage found)

end DocumentDao

def DocumentDao.operations (dao : DocumentDao) : Dao Document.interface where
  keyFilter := dao.key.filter
  create := dao.create
  update := dao.update
  save := dao.save
  delete := dao.delete
  fetchOne := dao.fetchOne
  fetchMany := dao.fetchMany

end DataAccess
