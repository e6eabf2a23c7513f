import DataAccess.Sorting

namespace DataAccess

namespace SortKey

def toValue (key : SortKey) : Value :=
  .map [("field", .string key.field), ("descending", .bool key.descending)]

def ofParts? : Option Value → Option Value → Option SortKey
  | some (.string field), some (.bool descending) => some { field, descending }
  | _, _ => none

def ofValue? : Value → Option SortKey
  | .map parts => ofParts? (Dict.get? parts "field") (Dict.get? parts "descending")
  | .sequence [field, descending] => ofParts? (some field) (some descending)
  | _ => none

end SortKey

namespace Sorting

def toValue (sorting : Sorting) : Value :=
  .map [("fields", .sequence (sorting.map SortKey.toValue))]

def keys? : Value → Option Sorting
  | .sequence keys => keys.mapM SortKey.ofValue?
  | _ => none

def ofValue? : Value → Option Sorting
  | .map parts => (Dict.get? parts "fields").bind keys?
  | .sequence [keys] => keys? keys
  | _ => none

end Sorting

end DataAccess
