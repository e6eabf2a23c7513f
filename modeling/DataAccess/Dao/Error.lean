import DataAccess.Filter
import DataAccess.Object.Error
import DataAccess.Store.Error

namespace DataAccess

/-- Why an object and a row cannot be turned into one another. -/
inductive MappingFault
  | notAMap (storage : String) (found : Value.Kind)
  | noColumn (storage column : String)
  | invalidJson (storage column : String)
  | keyFieldMissing (storage field : String)
  | noKeyFields (storage : String)
  | keyAttributeMissing (storage : String) (attributes : List String)
  | described (text : String)
deriving DecidableEq

namespace MappingFault

def message : MappingFault → String
  | .notAMap storage found =>
      "cannot map into " ++ storage ++ ": " ++ ((ObjectError.notAMap found).message?).getD ""
  | .noColumn storage column => storage ++ " has no column for field " ++ column
  | .invalidJson storage column => "column " ++ column ++ " of " ++ storage ++ " holds invalid JSON"
  | .keyFieldMissing storage field => "key field " ++ field ++ " of " ++ storage ++ " is missing"
  | .noKeyFields storage => "no key fields configured for " ++ storage
  | .keyAttributeMissing storage attributes =>
      "record lacks a key attribute of " ++ storage ++ " (" ++ ", ".intercalate attributes ++ ")"
  | .described text => text

end MappingFault

inductive DaoError
  | duplicateEntry
  | object (error : ObjectError)
  | store (error : StoreError)
  | invalidFilter (fault : Filter.Fault)
  | mapping (fault : MappingFault)
deriving DecidableEq

namespace DaoError

/-- The error that a failed call becomes. -/
def ofStore : StoreError → DaoError
  | .duplicateKey _ => .duplicateEntry
  | error => .store error

/-- The wording, where the inner error has one. -/
def message? : DaoError → Option String
  | .duplicateEntry => some "duplicate entry"
  | .object error => error.message?.map ("business object error: " ++ ·)
  | .store error => error.message?
  | .invalidFilter fault => some ("invalid filter: " ++ fault.message)
  | .mapping fault => some ("mapping error: " ++ fault.message)

def isDuplicateEntry : DaoError → Bool
  | .duplicateEntry => true
  | _ => false

end DaoError

end DataAccess
