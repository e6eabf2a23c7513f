import DataAccess.Dao.Error
import DataAccess.Mapping
import DataAccess.Object
import DataAccess.Sorting

/-!
# Rows of objects

A row mapper turns objects into the rows of a kind of store and back. All rename the fields at the
top level to columns. Beyond that, relational rows hold nested values as JSON text and have every
listed column, key/value items hold no nulls, and the `_id` of a document belongs to the store
unless a field is mapped to it.
-/

namespace DataAccess

inductive RowKind
  | plain | relational | document | keyValue
deriving DecidableEq

structure RowMapper where
  kind : RowKind
  mapping : Mapping := []
deriving DecidableEq

namespace Mapping

/-- The fields of an object under the names of their columns. -/
def toColumns (mapping : Mapping) (storage : String) (object : BusinessObject) :
    Except DaoError Record :=
  match object.root with
  | .map fields => .ok (Dict.mapKeys (mapping.columnOf storage) fields)
  | .null => .ok []
  | other => .error (.mapping (.notAMap storage other.kind))

/-- The columns of a row under the names of their fields. -/
def toFields (mapping : Mapping) (storage : String) (row : Record) : Record :=
  Dict.mapKeys (mapping.fieldOf storage) row

end Mapping

namespace RowMapper

def columnOf (mapper : RowMapper) (storage field : String) : String :=
  mapper.mapping.columnOf storage field

def fieldOf (mapper : RowMapper) (storage column : String) : String :=
  mapper.mapping.fieldOf storage column

/-- The columns that a fetch asks for; documents and items are fetched whole. -/
def columns (mapper : RowMapper) (storage : String) : Columns :=
  match mapper.kind with
  | .plain | .relational => mapper.mapping.columns storage
  | .document | .keyValue => .all

/-- Nested values as JSON text, all others as they are. -/
def encodeNested : Value → Value
  | .sequence items => .string (Value.sequence items).toJson
  | .map fields => .string (Value.map fields).toJson
  | scalar => scalar

/-- The listed columns with their values, null where there is none, and what is left over. A column
is taken out by moving the last one into its place. -/
def takeColumns : List String → Record → Record × Record
  | [], renamed => ([], renamed)
  | column :: rest, renamed =>
      let value := encodeNested ((Dict.get? renamed column).getD .null)
      let (row, left) := takeColumns rest (Dict.eraseSwap renamed column)
      ((column, value) :: row, left)

def relationalRow (storage : String) (columns : Columns) (renamed : Record) :
    Except DaoError Record :=
  match columns with
  | .all => .ok (renamed.map fun (column, value) => (column, encodeNested value))
  | .listed names =>
      match takeColumns names renamed with
      | (row, []) => .ok row
      | (_, (column, _) :: _) => .error (.mapping (.noColumn storage column))

/-- The value of a column, which for a column of JSON text is what the text says. -/
def decodeColumn (mapping : Mapping) (storage column : String) (value : Value) :
    Except DaoError Value :=
  match value with
  | .string text =>
      if (mapping.table storage).isJsonColumn column then
        match Value.ofJson? text with
        | some decoded => .ok decoded
        | none => .error (.mapping (.invalidJson storage column))
      else .ok (.string text)
  | other => .ok other

/-- The fields of a relational row. Columns that hold null give none. -/
def relationalFields (mapping : Mapping) (storage : String) :
    Record → Except DaoError (List (String × Value))
  | [] => .ok []
  | (_, .null) :: rest => relationalFields mapping storage rest
  | (column, value) :: rest => do
      let decoded ← decodeColumn mapping storage column value
      let fields ← relationalFields mapping storage rest
      return (mapping.fieldOf storage column, decoded) :: fields

def toRow (mapper : RowMapper) (storage : String) (object : BusinessObject) :
    Except DaoError Record := do
  let renamed ← mapper.mapping.toColumns storage object
  match mapper.kind with
  | .plain | .document => return renamed
  | .relational => relationalRow storage (mapper.columns storage) renamed
  | .keyValue => return Dict.filterValues (!·.isNull) renamed

/-- Whether a field is stored as the `_id` of documents. -/
def keepsId (mapper : RowMapper) (storage : String) : Bool :=
  mapper.fieldOf storage "_id" != "_id"

def toObject (mapper : RowMapper) (storage : String) (row : Record) :
    Except DaoError BusinessObject :=
  match mapper.kind with
  | .plain | .keyValue => .ok { root := .map (mapper.mapping.toFields storage row) }
  | .document =>
      let row := if mapper.keepsId storage then row else Dict.eraseSwap row "_id"
      .ok { root := .map (mapper.mapping.toFields storage row) }
  | .relational => do
      let fields ← relationalFields mapper.mapping storage row
      return { root := .map (Dict.ofList fields) }

/-- The object of a row that may be absent. -/
def toObject? (mapper : RowMapper) (storage : String) :
    Option Record → Except DaoError (Option BusinessObject)
  | none => .ok none
  | some row => some <$> mapper.toObject storage row

/-- The objects of fetched rows; the first row that fails or cannot be decoded ends it. -/
def decodeAll (mapper : RowMapper) (storage : String) :
    Cursor Record → Except DaoError (List BusinessObject)
  | [] => .ok []
  | .error error :: _ => .error (.ofStore error)
  | .ok row :: rest => do
      let object ← mapper.toObject storage row
      let objects ← decodeAll mapper storage rest
      return object :: objects

/-- A sorting by columns in the place of fields. -/
def sortKeys (mapper : RowMapper) (storage : String) (sorting : Sorting) : Sorting :=
  sorting.map fun key => { key with field := mapper.columnOf storage key.field }

/-- Rows in the order of a sorting by fields. -/
def sortRows (mapper : RowMapper) (storage : String) (sorting : Sorting) (rows : List Record) :
    List Record :=
  (mapper.sortKeys storage sorting).sort rows

end RowMapper

end DataAccess
