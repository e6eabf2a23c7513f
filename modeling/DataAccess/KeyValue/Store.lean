import DataAccess.KeyValue.Condition
import DataAccess.Program

/-!
# The key/value store

A table holds items under the values of one or two key attributes, in the order of the text of these
values. Strings stand in that text as JSON strings and numbers in decimal, integral floats as the
integer they are equal to. A write may carry a condition on the item that is there, where an absent
item has no attributes.
-/

namespace DataAccess.KeyValue

/-- The attributes whose values tell the items of a table apart. -/
structure TableSpec where
  partitionKey : String
  sortKey : Option String := none
deriving DecidableEq

namespace TableSpec

def keyAttributes (spec : TableSpec) : List String :=
  spec.partitionKey :: spec.sortKey.toList

def keyOf? (spec : TableSpec) (item : Record) : Option Record :=
  (spec.keyAttributes.mapM fun name => (Dict.get? item name).map fun value => (name, value)).map
    Dict.ofList

end TableSpec

abbrev Key := List String

/-- The largest magnitude up to which an integral float is written as an integer; itself it is not. -/
def integerTextLimit : Nat := 9000000000000000

def numberText : Number → List Char
  | .int n => Decimal.ofInt n.val
  | .float x =>
      if x.isIntegral && x.truncate.natAbs < integerTextLimit then Decimal.ofInt x.truncate
      else x.text

def attributeText (table name : String) (item : Record) : Except QueryFault String :=
  match Dict.get? item name with
  | some (.string s) => .ok (Value.string s).toJson
  | some (.number n) => .ok (String.ofList (numberText n))
  | some found => .error (.keyKind name table found)
  | none => .error (.keyMissing name table)

/-- The key under which an item stands in a table. -/
def keyText (spec : TableSpec) (table : String) (item : Record) : Except StoreError Key :=
  match spec.keyAttributes.mapM fun name => attributeText table name item with
  | .ok key => .ok key
  | .error fault => .error (.invalidQuery fault)

/-- Keys are ordered by their first difference. -/
def keyOrder : Key → Key → Ordering
  | [], [] => .eq
  | [], _ :: _ => .lt
  | _ :: _, [] => .gt
  | x :: xs, y :: ys => (compare x y).then (keyOrder xs ys)

structure Table where
  spec : TableSpec
  /-- The items under their keys, in ascending order. -/
  items : List (Key × Record) := []
deriving DecidableEq

namespace Table

def get? (table : Table) (key : Key) : Option Record := table.items.lookup key

def putItem (key : Key) (item : Record) : List (Key × Record) → List (Key × Record)
  | [] => [(key, item)]
  | (other, old) :: rest =>
      match keyOrder key other with
      | .lt => (key, item) :: (other, old) :: rest
      | .eq => (key, item) :: rest
      | .gt => (other, old) :: putItem key item rest

def put (table : Table) (key : Key) (item : Record) : Table :=
  { table with items := putItem key item table.items }

def erase (table : Table) (key : Key) : Table :=
  { table with items := table.items.filter fun entry => entry.1 != key }

/-- The items that satisfy a condition, in the order of their keys. -/
def scan (table : Table) (condition : Option Condition) : List Record :=
  (table.items.map Prod.snd).filter fun item =>
    match condition with
    | some condition => condition.evaluate item
    | none => true

end Table

structure Store where
  tables : Dict Table := []
  config : StoreConfig := {}

inductive Call
  | describeTable (table : String)
  | getItem (table : String) (key : Record)
  | scan (table : String) (condition : Option Condition)
  | putItem (table : String) (item : Record) (condition : Option Condition)
  | deleteItem (table : String) (key : Record) (condition : Option Condition)

/-- What the calls answer: a table's key attributes, an item, items, nothing, or whether an item was
there. -/
def Call.Answer : Call → Type
  | .describeTable _ => TableSpec
  | .getItem _ _ => Option Record
  | .scan _ _ => Cursor Record
  | .putItem _ _ _ => Unit
  | .deleteItem _ _ _ => Bool

def interface : Interface where
  Call := Call
  Answer := Call.Answer

def describeTable (context : Context) (table : String) :
    Program interface (Except StoreError TableSpec) :=
  .call context (.describeTable table) .done

def getItem (context : Context) (table : String) (key : Record) :
    Program interface (Except StoreError (Option Record)) :=
  .call context (.getItem table key) .done

def scan (context : Context) (table : String) (condition : Option Condition) :
    Program interface (Except StoreError (Cursor Record)) :=
  .call context (.scan table condition) .done

def putItem (context : Context) (table : String) (item : Record) (condition : Option Condition) :
    Program interface (Except StoreError Unit) :=
  .call context (.putItem table item condition) .done

def deleteItem (context : Context) (table : String) (key : Record)
    (condition : Option Condition) : Program interface (Except StoreError Bool) :=
  .call context (.deleteItem table key condition) .done

namespace Store

/-- Creates a table; one that is there already stays as it is. -/
def createTable (store : Store) (name : String) (spec : TableSpec) : Store :=
  { store with tables := Dict.insertNew store.tables name { spec } }

def table (store : Store) (name : String) : Except StoreError Table :=
  match Dict.get? store.tables name with
  | some table => .ok table
  | none => .error (.noSuchStorage name)

/-- How many items a table holds; an absent table holds none. -/
def length (store : Store) (name : String) : Nat :=
  match Dict.get? store.tables name with
  | some table => table.items.length
  | none => 0

/-- An absent item has no attributes. -/
def checkCondition (name : String) (current : Option Record) (condition : Option Condition) :
    Except StoreError Unit :=
  match condition with
  | some condition =>
      if condition.evaluate (current.getD []) then .ok () else .error (.conditionFailed name)
  | none => .ok ()

def getItem (store : Store) (name : String) (key : Record) : Except StoreError (Option Record) := do
  let table ← store.table name
  let key ← keyText table.spec name key
  return table.get? key

def scan (store : Store) (name : String) (condition : Option Condition) :
    Except StoreError (List Record) := do
  let table ← store.table name
  return table.scan condition

/-- The table and key that a conditional write goes to, once its condition holds. -/
def approve (store : Store) (name : String) (item : Record) (condition : Option Condition) :
    Except StoreError (Table × Key) := do
  let table ← store.table name
  let key ← keyText table.spec name item
  checkCondition name (table.get? key) condition
  return (table, key)

def putItem (store : Store) (name : String) (item : Record) (condition : Option Condition) :
    Except StoreError Unit × Store :=
  match store.approve name item condition with
  | .ok (table, key) =>
      (.ok (), { store with tables := Dict.insert store.tables name (table.put key item) })
  | .error error => (.error error, store)

def deleteItem (store : Store) (name : String) (key : Record) (condition : Option Condition) :
    Except StoreError Bool × Store :=
  match store.approve name key condition with
  | .ok (table, key) =>
      (.ok (table.get? key).isSome,
        { store with tables := Dict.insert store.tables name (table.erase key) })
  | .error error => (.error error, store)

def act : (request : Call) → Store → Except StoreError request.Answer × Store
  | .describeTable name, store => ((store.table name).map Table.spec, store)
  | .getItem name key, store => (store.getItem name key, store)
  | .scan name condition, store => ((store.scan name condition).map Cursor.ofList, store)
  | .putItem name item condition, store => store.putItem name item condition
  | .deleteItem name key condition, store => store.deleteItem name key condition

end Store

/-- The store as a connection. It has no transactions: a body runs call by call. -/
def connection : Connection interface Store where
  perform := Connection.checked Store.act
  transact _ _ body world :=
    let ((ended, value), world) := body world
    ((ended, some value), world)

end DataAccess.KeyValue
