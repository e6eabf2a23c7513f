import DataAccess.Sql.Connection

/-!
# Scripted connections

A connection that takes its answers from a script and keeps a log of what it is asked. A call is
logged before its context is checked, and a call that its context forbids leaves the script as it
is, but for transactions, which take their part of the script first.
-/

namespace DataAccess.Sql

/-- How a transaction goes: it may fail to begin, end well without having run its body, or fail to
commit. -/
structure TransactionScript where
  beginFailure : Option StoreError := none
  skipBody : Bool := false
  commitFailure : Option StoreError := none
deriving DecidableEq

inductive LogEntry
  | query (sql : String) (parameters : List Value)
  | execute (sql : String) (parameters : List Value)
  | begin (isolation : Isolation)
  | commit
  | rollback (error : StoreError)

structure Script where
  /-- The answers to queries; after them there are no rows. -/
  rows : List (Except StoreError (Cursor Record)) := []
  /-- The answers to other statements; after them each affects one row. -/
  counts : List (Except StoreError Nat) := []
  /-- The transactions; after them all go well. -/
  transactions : List TransactionScript := []
  /-- What was asked, the latest last. -/
  log : List LogEntry := []

namespace Script

def note (script : Script) (entry : LogEntry) : Script :=
  { script with log := script.log ++ [entry] }

/-- The next answer to a query. -/
def takeRows (script : Script) : Except StoreError (Cursor Record) × Script :=
  match script.rows with
  | [] => (.ok [], script)
  | answer :: rest => (answer, { script with rows := rest })

def takeCount (script : Script) : Except StoreError Nat × Script :=
  match script.counts with
  | [] => (.ok 1, script)
  | answer :: rest => (answer, { script with counts := rest })

def takeTransaction (script : Script) : TransactionScript × Script :=
  match script.transactions with
  | [] => ({}, script)
  | next :: rest => (next, { script with transactions := rest })

def clearLog (script : Script) : Script := { script with log := [] }

def entry : Call → LogEntry
  | .query sql parameters => .query sql parameters
  | .execute sql parameters => .execute sql parameters

def act : (request : Call) → Script → Except StoreError request.Answer × Script
  | .query _ _, script => script.takeRows
  | .execute _ _, script => script.takeCount

def perform (context : Context) (request : Call) (world : World Script) :
    Except StoreError request.Answer × World Script :=
  let noted : World Script := { world with store := world.store.note (entry request) }
  Connection.checked (I := interface) act context request noted

def noteIn (world : World Script) (entry : LogEntry) : World Script :=
  { world with store := world.store.note entry }

def transact {β : Type} (context : Context) (isolation : Isolation)
    (body : World Script → Outcome β × World Script) (world : World Script) :
    Outcome (Option β) × World Script :=
  let (plan, store) := (world.store.note (.begin isolation)).takeTransaction
  let world : World Script := { world with store }
  match context.check world.surroundings, plan.beginFailure with
  | .error error, _ => ((.error error, none), world)
  | .ok (), some error => ((.error error, none), world)
  | .ok (), none =>
      if plan.skipBody then ((.ok (), none), world)
      else
        match body world with
        | ((.error error, value), world) =>
            ((.error error, some value), noteIn world (.rollback error))
        | ((.ok (), value), world) =>
            match plan.commitFailure with
            | some error => ((.error error, some value), world)
            | none => ((.ok (), some value), noteIn world .commit)

end Script

/-- The connection that answers from a script. -/
def scripted : Connection interface Script where
  perform := Script.perform
  transact := Script.transact

end DataAccess.Sql
