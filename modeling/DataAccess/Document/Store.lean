import DataAccess.Document.Collection
import DataAccess.Program

/-!
# The document store

Collections by name, created by the first insert or index. A call checks its context and then acts
on one collection; a transaction works on a copy that takes the place of the store when it commits.
Ids for documents that lack one come from a supply, which goes on even where a call fails.
-/

namespace DataAccess.Document

/-- A supply of names for documents, and how many of them are used up. -/
structure IdSupply where
  name : Nat → String
  used : Nat := 0

def IdSupply.next (ids : IdSupply) : String × IdSupply :=
  (ids.name ids.used, { ids with used := ids.used + 1 })

structure Store where
  collections : Dict Collection := []
  ids : IdSupply
  config : StoreConfig := {}

inductive Call
  | findOne (collection : String) (filter : Record)
  | find (collection : String) (filter : Record) (options : FindOptions)
  | insertOne (collection : String) (document : Record)
  | replaceOne (collection : String) (filter document : Record) (upsert : Bool)
  | deleteOne (collection : String) (filter : Record)
  | deleteMany (collection : String) (filter : Record)

/-- What the calls answer: a document, documents, an `_id`, what was replaced, or how many documents
were deleted. -/
def Call.Answer : Call → Type
  | .findOne _ _ => Option Record
  | .find _ _ _ => Cursor Record
  | .insertOne _ _ => Value
  | .replaceOne _ _ _ _ => ReplaceOutcome
  | .deleteOne _ _ => Nat
  | .deleteMany _ _ => Nat

def interface : Interface where
  Call := Call
  Answer := Call.Answer

def findOne (context : Context) (collection : String) (filter : Record) :
    Program interface (Except StoreError (Option Record)) :=
  .call context (.findOne collection filter) .done

def find (context : Context) (collection : String) (filter : Record) (options : FindOptions) :
    Program interface (Except StoreError (Cursor Record)) :=
  .call context (.find collection filter options) .done

def insertOne (context : Context) (collection : String) (document : Record) :
    Program interface (Except StoreError Value) :=
  .call context (.insertOne collection document) .done

def replaceOne (context : Context) (collection : String) (filter document : Record)
    (upsert : Bool) : Program interface (Except StoreError ReplaceOutcome) :=
  .call context (.replaceOne collection filter document upsert) .done

def deleteOne (context : Context) (collection : String) (filter : Record) :
    Program interface (Except StoreError Nat) :=
  .call context (.deleteOne collection filter) .done

def deleteMany (context : Context) (collection : String) (filter : Record) :
    Program interface (Except StoreError Nat) :=
  .call context (.deleteMany collection filter) .done

namespace Store

/-- The collection of a name; one that is absent is empty. -/
def collection (store : Store) (name : String) : Collection :=
  (Dict.get? store.collections name).getD {}

def put (store : Store) (name : String) (collection : Collection) : Store :=
  { store with collections := Dict.insert store.collections name collection }

def count (store : Store) (name : String) : Nat := (store.collection name).documents.length

def createIndex (store : Store) (name : String) (index : List String) :
    Except StoreError Unit × Store :=
  match (store.collection name).createIndex name index with
  | .ok collection => (.ok (), store.put name collection)
  | .error error => (.error error, store)

/-- Documents found in a collection; in an absent one there are none. -/
def find (store : Store) (name : String) (filter : Record) (options : FindOptions) :
    Except StoreError (List Record) :=
  match Dict.get? store.collections name with
  | some collection => collection.find filter options
  | none => .ok []

def findOne (store : Store) (name : String) (filter : Record) :
    Except StoreError (Option Record) := do
  let found ← store.find name filter { limit := some 1 }
  return found.head?

/-- The document with an `_id`, from the supply where it has none. -/
def identify (store : Store) (document : Record) : Record × Store :=
  if Dict.contains document idField then (document, store)
  else
    let (id, ids) := store.ids.next
    (Dict.insert document idField (.string id), { store with ids })

def insert (store : Store) (name : String) (document : Record) :
    Except StoreError Value × Store :=
  let (document, store) := store.identify document
  match (store.collection name).insert name document with
  | .ok collection =>
      (.ok ((Dict.get? document idField).getD .null), store.put name collection)
  | .error error => (.error error, store)

def locate (store : Store) (name : String) (filter : Record) :
    Except StoreError (Option (Nat × Record)) := do
  let documents := (store.collection name).documents
  let position ← Collection.position? filter documents
  return position.bind fun position => documents[position]?.map fun old => (position, old)

/-- Replaces the first document that matches. Where none does and `upsert` is set, the document is
inserted with the fields that the filter fixes. -/
def replace (store : Store) (name : String) (filter document : Record) (upsert : Bool) :
    Except StoreError ReplaceOutcome × Store :=
  match store.locate name filter with
  | .error error => (.error error, store)
  | .ok (some (position, old)) =>
      match (store.collection name).replaceAt name position old document with
      | .ok (outcome, collection) => (.ok outcome, store.put name collection)
      | .error error => (.error error, store)
  | .ok none =>
      if upsert then
        match store.insert name (seed document filter) with
        | (.ok id, store) => (.ok { upserted := some id }, store)
        | (.error error, store) => (.error error, store)
      else (.ok {}, store)

/-- Deletes the first document that matches, or all of them. The documents are taken out before the
filter is evaluated, so a filter that fails on one of them leaves the collection empty. -/
def delete (store : Store) (name : String) (filter : Record) (many : Bool) :
    Except StoreError Nat × Store :=
  match Dict.get? store.collections name with
  | none => (.ok 0, store)
  | some collection =>
      match Collection.remove filter many collection.documents with
      | .ok (count, kept) => (.ok count, store.put name { collection with documents := kept })
      | .error error => (.error error, store.put name { collection with documents := [] })

def act : (request : Call) → Store → Except StoreError request.Answer × Store
  | .findOne name filter, store => (store.findOne name filter, store)
  | .find name filter options, store =>
      ((store.find name filter options).map Cursor.ofList, store)
  | .insertOne name document, store => store.insert name document
  | .replaceOne name filter document upsert, store => store.replace name filter document upsert
  | .deleteOne name filter, store => store.delete name filter false
  | .deleteMany name filter, store => store.delete name filter true

/-- The content of an earlier state; ids stay used. -/
def rollback (after before : Store) : Store := { before with ids := after.ids }

end Store

/-- The store as a connection. Every isolation is served alike. -/
def connection : Connection interface Store where
  perform := Connection.checked Store.act
  transact context _ := Connection.atomic Store.rollback context

end DataAccess.Document
