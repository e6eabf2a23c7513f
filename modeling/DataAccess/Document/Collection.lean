import DataAccess.Document.Matching
import DataAccess.Sorting

/-!
# Collections of documents

A collection keeps documents in the order of their insertion, each with an `_id`, and no two with
the same key on `_id` or on one of its unique indexes. A document takes part in an index when it has
every indexed field.
-/

namespace DataAccess.Document

structure Collection where
  /-- The unique indexes besides `_id`, each a list of fields. -/
  uniqueIndexes : List (List String) := []
  documents : List Record := []
deriving DecidableEq

/-- How found documents are sorted and cut. -/
structure FindOptions where
  /-- Fields with directions, 1 or -1, in the order of priority. -/
  sort : Option Record := none
  skip : Nat := 0
  limit : Option Nat := none
deriving DecidableEq

/-- What a replacement did. -/
structure ReplaceOutcome where
  matched : Nat := 0
  modified : Nat := 0
  /-- The `_id` of a document that was inserted because none matched. -/
  upserted : Option Value := none
deriving DecidableEq

/-- Both documents have every indexed field, with equal values. -/
def sameKey (left right : Record) (index : List String) : Bool :=
  index.all fun field =>
    match Record.field? left field, Record.field? right field with
    | some x, some y => x.equal y
    | _, _ => false

def keyOf (document : Record) (index : List String) : List Value :=
  index.map fun field => (Record.field? document field).getD .null

/-- The first document that shares its key with a later one, given by that later one. -/
def repetition? (index : List String) : List Record → Option Record
  | [] => none
  | document :: rest =>
      match rest.find? (sameKey document · index) with
      | some other => some other
      | none => repetition? index rest

def direction? : Value → Option Bool
  | .number (.int n) => if n.val = 1 then some false else if n.val = -1 then some true else none
  | _ => none

/-- The keys that a sort document stands for. -/
def sortKeys : Record → Except StoreError Sorting
  | [] => .ok []
  | (field, direction) :: rest =>
      match direction? direction with
      | some descending => do
          let keys ← sortKeys rest
          return { field, descending } :: keys
      | none => .error (.invalidQuery (.sortDirection field))

/-- The value a condition fixes: a literal, or the operand of `$eq`. -/
def literal? : Value → Option Value
  | .map fields =>
      if fields.all fun entry => isOperator entry.1 then Dict.get? fields "$eq"
      else some (.map fields)
  | value => some value

def seedField (document : Record) (field : String) (condition : Value) : Record :=
  match literal? condition with
  | some value => Dict.insertNew document field value
  | none => document

mutual

/-- Adds to a document the fields that a filter fixes and that it lacks. Fields named by a path are
left out, and so are operators but for the clauses of `$and`. -/
def seed (document : Record) : List (String × Value) → Record
  | [] => document
  | (key, condition) :: rest =>
      seed
        (if key = "$and" then seedClauses document condition
          else if isOperator key || key.toList.contains '.' then document
          else seedField document key condition)
        rest

def seedClauses (document : Record) : Value → Record
  | .sequence clauses => seedEach document clauses
  | _ => document

def seedEach (document : Record) : List Value → Record
  | [] => document
  | .map clause :: rest => seedEach (seed document clause) rest
  | _ :: rest => seedEach document rest

end

namespace Collection

/-- The fields whose values are unique, `_id` first. -/
def indexes (collection : Collection) : List (List String) :=
  [idField] :: collection.uniqueIndexes

/-- Refuses a document that shares a key with one of the others. -/
def checkUnique (name : String) (document : Record) (others : List Record) :
    List (List String) → Except StoreError Unit
  | [] => .ok ()
  | index :: rest =>
      if others.any (sameKey document · index) then
        .error (.duplicateKey (.held name index (keyOf document index)))
      else checkUnique name document others rest

/-- Adds a unique index, unless documents share a key on it. -/
def createIndex (collection : Collection) (name : String) (index : List String) :
    Except StoreError Collection :=
  match repetition? index collection.documents with
  | some other => .error (.duplicateKey (.repeated name index (keyOf other index)))
  | none => .ok { collection with uniqueIndexes := collection.uniqueIndexes ++ [index] }

def matching (filter : Record) : List Record → Except StoreError (List Record)
  | [] => .ok []
  | document :: rest => do
      let holds ← matches? document filter
      let found ← matching filter rest
      return if holds then document :: found else found

def find (collection : Collection) (filter : Record) (options : FindOptions) :
    Except StoreError (List Record) := do
  let found ← matching filter collection.documents
  let sorted ← match options.sort with
    | some sort => do
        let keys ← sortKeys sort
        pure (Sorting.sort keys found)
    | none => pure found
  let rest := sorted.drop options.skip
  return match options.limit with
    | some limit => rest.take limit
    | none => rest

def position? (filter : Record) : List Record → Except StoreError (Option Nat)
  | [] => .ok none
  | document :: rest => do
      if ← matches? document filter then return some 0
      else return (← position? filter rest).map (· + 1)

/-- Appends a document that has an `_id`. -/
def insert (collection : Collection) (name : String) (document : Record) :
    Except StoreError Collection := do
  checkUnique name document collection.documents collection.indexes
  return { collection with documents := collection.documents ++ [document] }

/-- The replacement for a document: it takes over the old `_id` where it has none. -/
def replacement (old new : Record) : Except StoreError Record :=
  match Dict.get? old idField, Dict.get? new idField with
  | some oldId, some newId =>
      if oldId.equal newId then .ok new else .error (.invalidQuery .idChanged)
  | some oldId, none => .ok (Dict.insert new idField oldId)
  | none, _ => .ok new

/-- Puts a document in the place of the one at a position. -/
def replaceAt (collection : Collection) (name : String) (position : Nat) (old new : Record) :
    Except StoreError (ReplaceOutcome × Collection) := do
  let document ← replacement old new
  checkUnique name document (collection.documents.eraseIdx position) collection.indexes
  let modified := if Value.same (.map old) (.map document) then 0 else 1
  return ({ matched := 1, modified },
    { collection with documents := collection.documents.set position document })

/-- Takes out the first document that matches, or all of them; counts what is gone. -/
def remove (filter : Record) (many : Bool) : List Record → Except StoreError (Nat × List Record)
  | [] => .ok (0, [])
  | document :: rest => do
      if ← matches? document filter then
        if many then
          let (count, kept) ← remove filter many rest
          return (count + 1, kept)
        else return (1, rest)
      else
        let (count, kept) ← remove filter many rest
        return (count, document :: kept)

end Collection

end DataAccess.Document
