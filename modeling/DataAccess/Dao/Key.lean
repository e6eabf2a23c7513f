import DataAccess.Dao.Error
import DataAccess.Object

namespace DataAccess

/-- A filter for the record that an object represents in a storage. -/
abbrev KeyFilter := String → BusinessObject → Except DaoError Filter

namespace KeyFilter

/-- The filter for an object, which has to be a valid one. -/
def filter (key : KeyFilter) (storage : String) (object : BusinessObject) :
    Except DaoError Filter := do
  let filter ← key storage object
  match filter.validate with
  | .ok () => return filter
  | .error fault => .error (.invalidFilter fault)

end KeyFilter

/-- The key fields of storages, the same for all that have none of their own. -/
structure PrimaryKey where
  fields : List String
  perStorage : Dict (List String) := []
deriving DecidableEq

namespace PrimaryKey

def fieldsOf (key : PrimaryKey) (storage : String) : List String :=
  (Dict.get? key.perStorage storage).getD key.fields

/-- The equality of one key field with the object's value. -/
def clause (storage : String) (object : BusinessObject) (field : String) :
    Except DaoError Filter :=
  match object.get field with
  | .ok (some value) => .ok (.compare field .equal value)
  | .ok none => .error (.mapping (.keyFieldMissing storage field))
  | .error error => .error (.object error)

/-- The equality of all key fields with the object's values. -/
def filter (key : PrimaryKey) : KeyFilter := fun storage object => do
  match ← (key.fieldsOf storage).mapM (clause storage object) with
  | [] => .error (.mapping (.noKeyFields storage))
  | [clause] => return clause
  | clauses => return .allOf clauses

end PrimaryKey

end DataAccess
