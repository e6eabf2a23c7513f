import DataAccess.Dao.Key
import DataAccess.Program
import DataAccess.Sorting

/-!
# Operations of data access

An operation is a program over a store that ends with a result or with a cause of failure. `Dao` is
the set of operations that every kind of store offers for business objects. An operation inside a
transaction records its own end, which wins over that of the transaction.
-/

namespace DataAccess

abbrev Operation (I : Interface) (α : Type) := ExceptT DaoError (Program I) α

/-- How operations go about their work. -/
structure DaoConfig where
  /-- Whether `create` looks for the record and inserts it inside one transaction. -/
  transactionalCreate : Bool := true
  isolation : Isolation := .snapshot
deriving DecidableEq

/-- The operations on the business objects of one store. Storages are named. -/
structure Dao (I : Interface) where
  /-- The filter for the record that an object represents. -/
  keyFilter : String → BusinessObject → Except DaoError Filter
  /-- Inserts an object, unless its record is there. -/
  create : Context → String → BusinessObject → Operation I Nat
  /-- Replaces the record of an object; answers 0 where there is none. -/
  update : Context → String → BusinessObject → Operation I Nat
  /-- Inserts an object or replaces its record. -/
  save : Context → String → BusinessObject → Operation I Nat
  /-- Removes the record of an object; answers 0 where there is none. -/
  delete : Context → String → BusinessObject → Operation I Nat
  fetchOne : Context → String → Option Filter → Operation I (Option BusinessObject)
  /-- The records that satisfy a filter, sorted, from an offset on and up to a limit, 0 being
  none. -/
  fetchMany : Context → String → Option Filter → Sorting → Nat → Nat →
    Operation I (List BusinessObject)

namespace Operation

variable {I : Interface} {α : Type}

def ofExcept (result : Except DaoError α) : Operation I α := ExceptT.mk (.done result)

/-- A result of a store, with the error that a failure becomes. -/
def ofStore (result : Except StoreError α) : Except DaoError α := result.mapError .ofStore

def ofCall (program : Program I (Except StoreError α)) : Operation I α :=
  ExceptT.mk (program.bind fun answer => .done (ofStore answer))

/-- A usable query from what a filter became. -/
def compiled (result : Except Filter.Fault α) : Except DaoError α := result.mapError .invalidFilter

/-- How the body of a transaction ends after an operation: one that failed takes back what it
wrote. -/
def ending (result : Except DaoError α) : Except StoreError Unit :=
  match result with
  | .ok _ => .ok ()
  | .error _ => .error (.aborted .operationFailed)

/-- The result of an operation in a transaction, from what its body recorded and how the transaction
ended. A failure of the operation itself comes first. -/
def settle (recorded : Option (Except DaoError α)) (ended : Except StoreError Unit) :
    Except DaoError α :=
  match recorded, ended with
  | some (.error error), _ => .error error
  | _, .error error => .error (.ofStore error)
  | some (.ok result), .ok () => .ok result
  | none, .ok () => .error (.store (.aborted .bodyNotRun))

/-- An operation inside one transaction. -/
def inTransaction (context : Context) (isolation : Isolation) (body : Operation I α) :
    Operation I α :=
  ExceptT.mk (.transaction context isolation
    (body.run.bind fun result => .done (ending result, result))
    fun outcome => .done (settle outcome.2 outcome.1))

end Operation

end DataAccess
