import DataAccess.Dao.Operation
import DataAccess.Filter.Evaluate

namespace DataAccess.Fixture

def storage : String := "records"

def keyField : String := "id"

def number (n : Nat) : Value := (Value.ofInt? n).getD .null

def record (i : Nat) : BusinessObject where
  root := .map
    ([("id", .string (toString i)), ("rank", number i), ("score", number (9 - i)),
        ("name", .string ("record-" ++ toString i))] ++
      if i % 2 = 0 then [("tag", .string "even")] else [])

/-- The ten records, by id. -/
def records : List BusinessObject := (List.range 10).map record

def filters : List Filter :=
  [ .compare "id" .equal (.string "4"),
    .compare "rank" .notEqual (number 4),
    .compare "rank" .greater (number 6),
    .compare "id" .greaterOrEqual (.string "8"),
    .compare "score" .less (number 3),
    .compare "name" .lessOrEqual (.string "record-2"),
    .compareFields "rank" .less "score",
    .compareFields "score" .equal "rank",
    .isNull "tag",
    .isNotNull "tag",
    .allOf [.compare "id" .greaterOrEqual (.string "3"), .compare "id" .less (.string "8")],
    .anyOf
      [ .compare "id" .equal (.string "1"),
        .allOf [.compare "rank" .greater (number 7), .isNotNull "tag"]] ]

def idOf (object : BusinessObject) : Except ObjectError String :=
  match object.get keyField (some .string) with
  | .ok (some (.string id)) => .ok id
  | .ok _ => .ok ""
  | .error error => .error error

def ids (objects : List BusinessObject) : Except DaoError (List String) :=
  (objects.mapM idOf).mapError .object

def seed {I : Interface} (dao : Dao I) (context : Context) : Operation I Unit :=
  records.forM fun record => do
    let _ ← dao.create context storage record
    return ()

/-- The ids of the stored records that satisfy a filter, in their order. -/
def matchingIds {I : Interface} (dao : Dao I) (context : Context) (filter : Filter) :
    Operation I (List String) := do
  let byId : Sorting := [{ field := keyField, descending := false }]
  let found ← dao.fetchMany context storage (some filter) byId 0 0
  Operation.ofExcept (ids found)

end DataAccess.Fixture
