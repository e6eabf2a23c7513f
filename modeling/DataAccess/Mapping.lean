import DataAccess.Dict

/-!
# Name mappings

How the fields of objects are named in a storage. A mapping is a list of declarations, and where two
name the same field or the same column the later one counts. Declared columns make up the list of
columns; a mere renaming adds none.
-/

namespace DataAccess

/-- What a declaration makes of its column: a column, one that holds nested values as JSON text, or
a name only. -/
inductive ColumnUse
  | plain | json | renamed
deriving DecidableEq

structure Declaration where
  use : ColumnUse
  field : String
  column : String
deriving DecidableEq

/-- The declarations of one storage, in their order. -/
abbrev TableMapping := List Declaration

namespace TableMapping

/-- The column of a field; a field without a declaration names its column itself. -/
def columnOf : TableMapping → String → String
  | [], field => field
  | declaration :: rest, field =>
      if rest.any (·.field == field) then columnOf rest field
      else if declaration.field = field then declaration.column
      else field

/-- The field of a column; a column without a declaration names its field itself. -/
def fieldOf : TableMapping → String → String
  | [], column => column
  | declaration :: rest, column =>
      if rest.any (·.column == column) then fieldOf rest column
      else if declaration.column = column then declaration.field
      else column

/-- The declared columns, each once, in the order in which they are first declared. -/
def columns (mapping : TableMapping) : List String :=
  ((mapping.filter (·.use ≠ .renamed)).map (·.column)).foldl
    (fun columns column => if column ∈ columns then columns else columns ++ [column]) []

def isJsonColumn (mapping : TableMapping) (column : String) : Bool :=
  mapping.any fun declaration => declaration.use = .json && declaration.column == column

end TableMapping

/-- The columns that a fetch asks for. -/
inductive Columns
  | all
  | listed (names : List String)
deriving DecidableEq

/-- The mappings of storages; a storage without one keeps the names as they are. -/
abbrev Mapping := Dict TableMapping

namespace Mapping

def table (mapping : Mapping) (storage : String) : TableMapping :=
  (Dict.get? mapping storage).getD []

def columnOf (mapping : Mapping) (storage field : String) : String :=
  (mapping.table storage).columnOf field

def fieldOf (mapping : Mapping) (storage column : String) : String :=
  (mapping.table storage).fieldOf column

def columns (mapping : Mapping) (storage : String) : Columns :=
  match (mapping.table storage).columns with
  | [] => .all
  | names => .listed names

end Mapping

end DataAccess
