import DataAccess.Dao.Operation
import DataAccess.KeyValue.Compile
import DataAccess.KeyValue.Store
import DataAccess.RowMapper

/-!
# Data access to key/value stores

Storages are tables, and the key attributes of a table make its items unique. `create` puts an item
where there is none; where the key filter asks for more than the table's key, it first looks for a
record that satisfies it. `update` and `delete` want the item to be there and to satisfy the key
filter. Found items are sorted and cut here, because the store does neither.
-/

namespace DataAccess

structure KeyValueDao where
  mapping : Mapping := []
  key : KeyFilter
  config : DaoConfig := {}

namespace KeyValueDao

open KeyValue (interface TableSpec Condition)

def mapper (dao : KeyValueDao) : RowMapper := { kind := .keyValue, mapping := dao.mapping }

/-- A filter by fields as a condition. -/
def condition (dao : KeyValueDao) (storage : String) (filter : Option Filter) :
    Except DaoError (Option Condition) :=
  Operation.compiled (KeyValue.compile? (filter.map (Filter.rename (dao.mapper.columnOf storage))))

/-- The key attributes of an item, which has to have them. -/
def keyOf (storage : String) (spec : TableSpec) (item : Record) : Except DaoError Record :=
  match spec.keyOf? item with
  | some key => .ok key
  | none => .error (.mapping (.keyAttributeMissing storage spec.keyAttributes))

/-- The item of an object, together with its key attributes. -/
def item (dao : KeyValueDao) (storage : String) (spec : TableSpec) (object : BusinessObject) :
    Except DaoError (Record × Record) := do
  let item ← dao.mapper.toRow storage object
  let key ← keyOf storage spec item
  return (item, key)

/-- The condition that an item is there and satisfies the key filter. -/
def existing (dao : KeyValueDao) (storage : String) (spec : TableSpec) (object : BusinessObject) :
    Except DaoError Condition := do
  let filter ← dao.key.filter storage object
  let present := Condition.present spec.partitionKey
  match ← dao.condition storage (some filter) with
  | some matching => return present.join matching
  | none => return present

mutual

/-- The fields that a filter wants to be equal to something, if it wants nothing else. -/
def equalityFields : Filter → Option (List String)
  | .compare field .equal _ => some [field]
  | .allOf members => equalityFieldsOfAll members
  | _ => none

def equalityFieldsOfAll : List Filter → Option (List String)
  | [] => some []
  | member :: rest => do
      let fields ← equalityFields member
      let more ← equalityFieldsOfAll rest
      return fields ++ more

end

/-- Whether a filter is the equality of exactly the key attributes of the table, so that a put under
their condition looks for the same record. -/
def isTableKey (dao : KeyValueDao) (storage : String) (spec : TableSpec) (filter : Filter) : Bool :=
  match equalityFields filter with
  | some fields =>
      let columns := fields.map (dao.mapper.columnOf storage)
      let key := spec.keyAttributes
      key.Nodup ∧ columns.all (key.contains ·) ∧ key.all (columns.contains ·)
  | none => false

/-- Whether a record satisfies a key filter. -/
def taken (dao : KeyValueDao) (context : Context) (storage : String) (filter : Filter) :
    Operation interface Bool := do
  let condition ← Operation.ofExcept (dao.condition storage (some filter))
  let found ← Operation.ofCall (KeyValue.scan context storage condition)
  let first ← Operation.ofExcept (Operation.ofStore found.first)
  return first.isSome

/-- The answer to a conditional write, with another result where its condition failed. -/
def orUnmet {α : Type} (unmet : Except DaoError α)
    (write : Program interface (Except StoreError α)) : Operation interface α :=
  ExceptT.mk (write.bind fun
    | .error (.conditionFailed _) => .done unmet
    | answer => .done (Operation.ofStore answer))

/-- Puts an item where there is none. -/
def putNew (context : Context) (storage : String) (spec : TableSpec) (item : Record) :
    Operation interface Nat := do
  let unused := Condition.absent spec.partitionKey
  orUnmet (.error .duplicateEntry) (KeyValue.putItem context storage item (some unused))
  return 1

def create (dao : KeyValueDao) (context : Context) (storage : String) (object : BusinessObject) :
    Operation interface Nat := do
  let spec ← Operation.ofCall (KeyValue.describeTable context storage)
  let (item, _) ← Operation.ofExcept (dao.item storage spec object)
  let filter ← Operation.ofExcept (dao.key.filter storage object)
  let taken ←
    if dao.isTableKey storage spec filter then pure false
    else dao.taken context storage filter
  if taken then throw .duplicateEntry
  else putNew context storage spec item

def update (dao : KeyValueDao) (context : Context) (storage : String) (object : BusinessObject) :
    Operation interface Nat := do
  let spec ← Operation.ofCall (KeyValue.describeTable context storage)
  let (item, _) ← Operation.ofExcept (dao.item storage spec object)
  let existing ← Operation.ofExcept (dao.existing storage spec object)
  let put := KeyValue.putItem context storage item (some existing)
  orUnmet (.ok 0) (put.bind fun answer => .done (answer.map fun _ => 1))

def save (dao : KeyValueDao) (context : Context) (storage : String) (object : BusinessObject) :
    Operation interface Nat := do
  let spec ← Operation.ofCall (KeyValue.describeTable context storage)
  let (item, _) ← Operation.ofExcept (dao.item storage spec object)
  Operation.ofCall (KeyValue.putItem context storage item none)
  return 1

def delete (dao : KeyValueDao) (context : Context) (storage : String) (object : BusinessObject) :
    Operation interface Nat := do
  let spec ← Operation.ofCall (KeyValue.describeTable context storage)
  let (_, key) ← Operation.ofExcept (dao.item storage spec object)
  let existing ← Operation.ofExcept (dao.existing storage spec object)
  let removed ←
    orUnmet (.ok false) (KeyValue.deleteItem context storage key (some existing))
  return removed.toNat

def fetchOne (dao : KeyValueDao) (context : Context) (storage : String)
    (filter : Option Filter) : Operation interface (Option BusinessObject) := do
  let condition ← Operation.ofExcept (dao.condition storage filter)
  let found ← Operation.ofCall (KeyValue.scan context storage condition)
  let first ← Operation.ofExcept (Operation.ofStore found.first)
  Operation.ofExcept (dao.mapper.toObject? storage first)

def fetchMany (dao : KeyValueDao) (context : Context) (storage : String)
    (filter : Option Filter) (sorting : Sorting) (offset limit : Nat) :
    Operation interface (List BusinessObject) := do
  let condition ← Operation.ofExcept (dao.condition storage filter)
  let found ← Operation.ofCall (KeyValue.scan context storage condition)
  let items ← Operation.ofExcept (Operation.ofStore found.collect)
  let sorted := dao.mapper.sortRows storage sorting items
  Operation.ofExcept (dao.mapper.decodeAll storage (Cursor.ofList (page sorted offset limit)))

end KeyValueDao

def KeyValueDao.operations (dao : KeyValueDao) : Dao KeyValue.interface where
  keyFilter := dao.key.filter
  create := dao.create
  update := dao.update
  save := dao.save
  delete := dao.delete
  fetchOne := dao.fetchOne
  fetchMany := dao.fetchMany

end DataAccess
