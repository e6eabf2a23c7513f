import DataAccess.Value

namespace DataAccess

structure User where
  id : String
  /-- Below `2^32`. -/
  age : WideInt
  tags : List String
deriving DecidableEq

namespace User

def text? : Value → Option String
  | .string s => some s
  | _ => none

def age? : Value → Option WideInt
  | .number (.int n) => if 0 ≤ n.val ∧ n.val < 4294967296 then some n else none
  | _ => none

def tags? : Value → Option (List String)
  | .sequence items => items.mapM text?
  | _ => none

/-- Reads a map of the fields, or a sequence of them in their order. Tags may be missing; other
entries of a map are ignored. -/
def ofValue? : Value → Option User
  | .map fields => do
      let id ← (Dict.get? fields "id").bind text?
      let age ← (Dict.get? fields "age").bind age?
      let tags ← match Dict.get? fields "tags" with
        | some value => tags? value
        | none => some []
      return { id, age, tags }
  | .sequence (id :: age :: rest) => do
      let id ← text? id
      let age ← age? age
      let tags ← match rest with
        | [] => some []
        | [tags] => tags? tags
        | _ => none
      return { id, age, tags }
  | _ => none

def toValue (user : User) : Value :=
  .map [("id", .string user.id), ("age", .number (.int user.age)),
    ("tags", .sequence (user.tags.map .string))]

end User

end DataAccess
