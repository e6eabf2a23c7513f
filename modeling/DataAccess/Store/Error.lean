import DataAccess.Json.Printer
import DataAccess.Text.Quoted

namespace DataAccess

/-- Why a write would break uniqueness. -/
inductive UniquenessFault
  /-- Another document has the key already. -/
  | held (collection : String) (index : List String) (key : List Value)
  /-- Documents that are there already share a key. -/
  | repeated (collection : String) (index : List String) (key : List Value)
  /-- A constraint over columns of a table. -/
  | violated (table : String) (columns : List String)
  /-- A database's code for the violation, where it gives no text. -/
  | coded (code : Nat)
  | described (text : String)
deriving DecidableEq

namespace UniquenessFault

def message : UniquenessFault → String
  | .held collection index key =>
      collection ++ " index " ++ Text.quotedList index ++ " already holds " ++
        Text.describedList key
  | .repeated collection index key =>
      "cannot index " ++ collection ++ " on " ++ Text.quotedList index ++ ": " ++
        Text.describedList key ++ " repeats"
  | .violated table columns =>
      "UNIQUE constraint failed: " ++ ", ".intercalate (columns.map fun column => table ++ "." ++ column)
  | .coded code => "Error code " ++ toString code
  | .described text => text

end UniquenessFault

/-- Why a query makes no sense to a store. -/
inductive QueryFault
  | topLevelOperator (op : String)
  | clausesNotAList
  | noClauses
  | clauseNotADocument
  | existsNotABool
  | fieldOperator (op : String)
  | expressionNotADocument
  | expressionNotOneOperator
  | operandCount (op : String)
  | expressionOperator (op : String)
  | sortDirection (field : String)
  | idChanged
  | keyKind (name table : String) (found : Value)
  | keyMissing (name table : String)
  | described (text : String)
deriving DecidableEq

namespace QueryFault

def message : QueryFault → String
  | .topLevelOperator op => "unsupported top-level operator " ++ op
  | .clausesNotAList => "$and/$or expects an array"
  | .noClauses => "$and/$or needs at least one clause"
  | .clauseNotADocument => "$and/$or clauses must be documents"
  | .existsNotABool => "$exists expects a bool"
  | .fieldOperator op => "unsupported field operator " ++ op
  | .expressionNotADocument => "$expr expects a document"
  | .expressionNotOneOperator => "$expr expects exactly one operator"
  | .operandCount op => op ++ " expects two operands"
  | .expressionOperator op => "unsupported $expr operator " ++ op
  | .sortDirection field => "sort direction for " ++ field ++ " must be 1 or -1"
  | .idChanged => "replacement may not change _id"
  | .keyKind name table found =>
      "key attribute " ++ name ++ " of " ++ table ++ " must be a string or number, got " ++
        found.toJson
  | .keyMissing name table => "missing key attribute " ++ name ++ " for " ++ table
  | .described text => text

end QueryFault

/-- Why a transaction ends without a commit. -/
inductive AbortReason
  | operationFailed
  | bodyNotRun
  | described (text : String)
deriving DecidableEq

namespace AbortReason

def message : AbortReason → String
  | .operationFailed => "DAO operation failed"
  | .bodyNotRun => "transaction committed without running its body"
  | .described text => text

end AbortReason

/-- What is wrong with an answer of a database. -/
inductive BackendFault
  /-- Column text that ceases to be UTF-8 after `validBytes`, at a sequence of `length` bytes, or
  because the text ends too early. -/
  | notUtf8 (validBytes : Nat) (length : Option Nat)
  | described (text : String)
deriving DecidableEq

namespace BackendFault

def message : BackendFault → String
  | .notUtf8 validBytes (some length) =>
      "column text is not UTF-8: invalid utf-8 sequence of " ++ toString length ++
        " bytes from index " ++ toString validBytes
  | .notUtf8 validBytes none =>
      "column text is not UTF-8: incomplete utf-8 byte sequence from index " ++ toString validBytes
  | .described text => text

end BackendFault

inductive StoreError
  | duplicateKey (fault : UniquenessFault)
  | conditionFailed (storage : String)
  | timeout
  | cancelled
  | noSuchStorage (name : String)
  | aborted (reason : AbortReason)
  | invalidQuery (fault : QueryFault)
  | sqlite
  | json
  | backend (fault : BackendFault)
deriving DecidableEq

namespace StoreError

/-- The wording; failures of the database itself and of JSON text have none of their own. -/
def message? : StoreError → Option String
  | .duplicateKey fault => some ("duplicate key: " ++ fault.message)
  | .conditionFailed storage => some ("condition check failed on " ++ storage)
  | .timeout => some "deadline exceeded"
  | .cancelled => some "call cancelled"
  | .noSuchStorage name => some ("no such table or collection: " ++ name)
  | .aborted reason => some ("transaction aborted: " ++ reason.message)
  | .invalidQuery fault => some ("invalid query: " ++ fault.message)
  | .sqlite => none
  | .json => none
  | .backend fault => some ("backend error: " ++ fault.message)

def isDuplicateKey : StoreError → Bool
  | .duplicateKey _ => true
  | _ => false

end StoreError

/-- Answers that come one by one, each of which may fail when it is reached. -/
abbrev Cursor (α : Type) := List (Except StoreError α)

namespace Cursor

def ofList {α : Type} (items : List α) : Cursor α := items.map .ok

def first {α : Type} : Cursor α → Except StoreError (Option α)
  | [] => .ok none
  | .ok item :: _ => .ok (some item)
  | .error error :: _ => .error error

def collect {α : Type} : Cursor α → Except StoreError (List α)
  | [] => .ok []
  | .ok item :: rest => do
      let items ← collect rest
      return item :: items
  | .error error :: _ => .error error

theorem collect_ofList {α : Type} (items : List α) : collect (ofList items) = .ok items := by
  induction items with
  | nil => rfl
  | cons item rest ih =>
      have tail : collect (rest.map Except.ok) = .ok rest := ih
      simp only [ofList, List.map_cons, collect, tail]
      rfl

theorem first_ofList {α : Type} (items : List α) : first (ofList items) = .ok items.head? := by
  cases items <;> rfl

end Cursor

end DataAccess
