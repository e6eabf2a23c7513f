import DataAccess.Document.Matching
import DataAccess.Filter
import DataAccess.Sorting

namespace DataAccess.Document

mutual

/-- The filter document of a filter over columns. A test for null becomes an equality with null, which
holds of missing fields too. -/
def compile : Filter → Except Filter.Fault Record
  | .compare field op value => .ok [(field, .map [(operatorName op, value)])]
  | .compareFields left op right =>
      .ok [("$expr",
        .map [(operatorName op, .sequence [.string ("$" ++ left), .string ("$" ++ right)])])]
  | .isNull field => .ok [(field, .null)]
  | .isNotNull field => .ok [(field, .map [("$ne", .null)])]
  | .allOf members => do
      Filter.nonempty .allOf members
      let clauses ← compileAll members
      return [("$and", .sequence clauses)]
  | .anyOf members => do
      Filter.nonempty .anyOf members
      let clauses ← compileAll members
      return [("$or", .sequence clauses)]

def compileAll : List Filter → Except Filter.Fault (List Value)
  | [] => .ok []
  | member :: rest => do
      let member ← compile member
      let rest ← compileAll rest
      return .map member :: rest

end

/-- An absent filter becomes the empty document, which matches everything. -/
def compile? : Option Filter → Except Filter.Fault Record
  | none => .ok []
  | some filter => compile filter

/-- A sorting by columns as a document of directions. Of two keys with one column the later gives
the direction and the earlier the place. -/
def sortDocument (sorting : Sorting) : Record :=
  Dict.ofList (sorting.map fun key =>
    (key.field, .number (.int (if key.descending then .minusOne else .one))))

end DataAccess.Document
