import DataAccess.Value

namespace DataAccess.Record

/-- The value under a key of a map, or at a position of a sequence. -/
def part? : Value → String → Option Value
  | .map fields, name => Dict.get? fields name
  | .sequence items, name =>
      match Decimal.position? name.toList with
      | some position => items[position]?
      | none => none
  | _, _ => none

/-- The value that parts of a name lead to, one below the other. -/
def descend : Value → List String → Option Value
  | value, [] => some value
  | value, part :: rest => (part? value part).bind fun child => descend child rest

def nameParts (name : String) : List String :=
  (name.toList.splitOn '.').map String.ofList

/-- The value of a field, which may be named by a path of keys and positions. -/
def field? (record : Record) (name : String) : Option Value :=
  match Dict.get? record name with
  | some value => some value
  | none => descend (.map record) (nameParts name)

end DataAccess.Record
