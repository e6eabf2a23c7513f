import DataAccess.Proofs.Document.Refinement
import DataAccess.Proofs.Document.Writing
import DataAccess.Proofs.Transaction

namespace DataAccess

namespace Operation

variable {I : Interface} {S α β : Type} {connection : Connection I S} {operation : Operation I α}
variable {restore : S → S → S} {context : Context} {isolation : Isolation} {world : World S}

theorem direct_ofCall (context : Context) (request : I.Call) :
    (ofCall (.call context request .done)).run.Direct := fun _ => trivial

theorem direct_bind {next : α → Operation I β} (direct : operation.run.Direct)
    (continues : ∀ result, (next result).run.Direct) : (operation >>= next).run.Direct := by
  refine Program.direct_bind direct fun result => ?_
  cases result with
  | ok value => exact continues value
  | error error => trivial

theorem on_joined (direct : operation.run.Direct) (world : World S) :
    operation.on connection.joined world = operation.on connection world := by
  rw [on, ← Program.runJoined_eq_run, on, Program.run_eq_runJoined connection direct]

/-- An operation comes to the same in a transaction if it fails on a context that does not allow the
transaction, leaves the surroundings as they are, and where it fails leaves nothing to restore. -/
theorem on_inTransaction_eq
    (atomic : ∀ {β : Type} (body : World S → Outcome β × World S),
      connection.transact context isolation body = Connection.atomic restore context body)
    (direct : operation.run.Direct)
    (refused : ∀ error, context.check world.surroundings = .error error →
      operation.on connection world = (.error (.ofStore error), world))
    (around : (operation.on connection world).2.surroundings = world.surroundings)
    (restored : ∀ error, (operation.on connection world).1 = .error error →
      restore (operation.on connection world).2.store world.store =
        (operation.on connection world).2.store) :
    (inTransaction context isolation operation).on connection world =
      operation.on connection world := by
  rw [on_inTransaction, atomic]
  cases allowed : context.check world.surroundings with
  | error error =>
      simp only [Connection.atomic, allowed, refused error allowed]
      rfl
  | ok _ =>
      simp only [Connection.atomic, allowed, bodyOn, on_joined direct]
      rcases ran : operation.on connection world with ⟨result, after⟩
      rw [ran] at around restored
      cases result with
      | error error =>
          simp only [ending, settle, restored error rfl]
      | ok value =>
          rw [← around] at allowed
          simp only [ending, settle, allowed]

end Operation

/-- An insert that fails may have used up an id, and that is all. -/
theorem Document.Store.identify_snd (store : Store) (document : Record) :
    (store.identify document).2 = { store with ids := (store.identify document).2.ids } := by
  rw [identify]
  split <;> rfl

namespace DocumentDao

open Document (Store interface connection)

/-- How a search with an insert ends: nothing is done, at most an id is used up, or the document is
appended. -/
inductive Ends (context : Context) (storage : String) (document : Record) (world : World Store) :
    Except DaoError Nat × World Store → Prop
  | refused {error : StoreError} : context.check world.surroundings = .error error →
      Ends context storage document world (.error (.ofStore error), world)
  | failed {error : DaoError} (ids : Document.IdSupply) :
      context.check world.surroundings = .ok () →
      Ends context storage document world
        (.error error, { world with store := { world.store with ids } })
  | appended {added : Record} {id : Value} {after : Store} :
      context.check world.surroundings = .ok () →
      world.store.Appends storage document added id after →
      Ends context storage document world (.ok 1, { world with store := after })

variable {context : Context} {storage : String} {filter document : Record} {world : World Store}
variable {ended : Except DaoError Nat × World Store}

theorem direct_insertNew : (insertNew context storage filter document).run.Direct := by
  refine Operation.direct_bind (Operation.direct_ofCall _ _) fun found => ?_
  split
  · trivial
  · exact Operation.direct_bind (Operation.direct_ofCall _ _) fun _ => trivial

theorem ends_insert (allowed : context.check world.surroundings = .ok ()) :
    Ends context storage document world ((do
      let _ ← Operation.ofCall (Document.insertOne context storage document)
      return 1 : Operation interface Nat).on connection world) := by
  have called : (Operation.ofCall (Document.insertOne context storage document)).on connection world =
      (Operation.ofStore (world.store.insert storage document).1,
        { world with store := (world.store.insert storage document).2 }) :=
    Operation.on_call_live plainCalls allowed (.insertOne storage document)
  rcases inserted : world.store.insert storage document with ⟨error | id, after⟩
  · have used : after = { world.store with ids := after.ids } := by
      rcases world.store.insert_cases storage document with ⟨_, succeeded⟩ | ⟨_, refused⟩
      · cases inserted.symm.trans succeeded
      · cases inserted.symm.trans refused
        exact world.store.identify_snd document
    rw [inserted] at called
    rw [Operation.on_bind_error _ called, used]
    exact .failed after.ids allowed
  · obtain ⟨added, appends⟩ := Store.insert_eq_ok inserted
    rw [inserted] at called
    rw [Operation.on_bind_ok _ called]
    exact .appended allowed appends

theorem insertNew_refused {error : StoreError}
    (refused : context.check world.surroundings = .error error) :
    (insertNew context storage filter document).on connection world =
      (.error (.ofStore error), world) := by
  have called : (Operation.ofCall (Document.findOne context storage filter)).on connection world =
      (.error (.ofStore error), world) :=
    Operation.on_call_refused plainCalls refused (.findOne storage filter)
  rw [insertNew, Operation.on_bind_error _ called]

theorem ends_insertNew : Ends context storage document world
    ((insertNew context storage filter document).on connection world) := by
  cases allowed : context.check world.surroundings with
  | error error =>
      rw [insertNew_refused allowed]
      exact .refused allowed
  | ok _ =>
      have called : (Operation.ofCall (Document.findOne context storage filter)).on connection world =
          (Operation.ofStore (world.store.findOne storage filter), world) :=
        Operation.on_call_live plainCalls allowed (.findOne storage filter)
      cases found : world.store.findOne storage filter with
      | error error =>
          rw [found] at called
          rw [insertNew, Operation.on_bind_error _ called]
          exact .failed world.store.ids allowed
      | ok held =>
          rw [found] at called
          rw [insertNew, Operation.on_bind_ok _ called]
          cases held with
          | some old => exact .failed world.store.ids allowed
          | none => exact ends_insert allowed

theorem Ends.surroundings (ends : Ends context storage document world ended) :
    ended.2.surroundings = world.surroundings := by
  cases ends <;> rfl

theorem Ends.unwritten {error : DaoError} (ends : Ends context storage document world ended)
    (failed : ended.1 = .error error) :
    ended.2.store = { world.store with ids := ended.2.store.ids } := by
  cases ends with
  | refused _ => rfl
  | failed ids _ => rfl
  | appended _ _ => cases failed

theorem Ends.appends {count : Nat} (ends : Ends context storage document world ended)
    (succeeded : ended.1 = .ok count) :
    count = 1 ∧ ∃ added id, world.store.Appends storage document added id ended.2.store := by
  cases ends with
  | refused _ => cases succeeded
  | failed ids _ => cases succeeded
  | appended _ appends =>
      cases succeeded
      exact ⟨rfl, _, _, appends⟩

/-- Nothing that a failure leaves behind differs from what a transaction restores. -/
theorem on_transacted_insertNew (isolation : Isolation) :
    (Operation.inTransaction context isolation (insertNew context storage filter document)).on
        connection world = (insertNew context storage filter document).on connection world := by
  have ends := @ends_insertNew context storage filter document world
  exact Operation.on_inTransaction_eq (fun _ => rfl) direct_insertNew
    (fun _ refused => insertNew_refused refused) ends.surroundings
    fun _ failed => (ends.unwritten failed).symm

/-- In a transaction and without one, `create` has the same result and leaves the same store, down
to the ids that are used up. A failure leaves every collection as it was, and a success has appended
the row of the object to one. The context is asked before each call and at the end of a transaction;
in a run of `create` alone nothing happens to it. -/
theorem transactional_create_agrees (dao : DocumentDao) (isolation other : Isolation)
    (context : Context) (storage : String) (object : BusinessObject) (world : World Store) :
    let transacted := ({ dao with config := { transactionalCreate := true, isolation } }.create
      context storage object).on connection world
    let plain := ({ dao with config := { transactionalCreate := false, isolation := other } }.create
      context storage object).on connection world
    transacted = plain ∧
      (∀ error, plain.1 = .error error →
        ∀ name, plain.2.store.collection name = world.store.collection name) ∧
      ∀ count, plain.1 = .ok count → count = 1 ∧ ∃ document added id,
        dao.mapper.toRow storage object = .ok document ∧
          world.store.Appends storage document added id plain.2.store := by
  intro transacted plain
  -- Neither the query nor the row depends on how the object is to be created.
  have begun (config : DaoConfig) : (Operation.ofExcept (I := interface)
      ({ dao with config }.prepare storage object)).on connection world =
        (dao.prepare storage object, world) := Operation.on_ofExcept _ world
  cases prepared : dao.prepare storage object with
  | error error =>
      rw [prepared] at begun
      have ofTransacted : transacted = (.error error, world) := Operation.on_bind_error _ (begun _)
      have ofPlain : plain = (.error error, world) := Operation.on_bind_error _ (begun _)
      rw [ofTransacted, ofPlain]
      exact ⟨rfl, fun _ _ _ => rfl, nofun⟩
  | ok pair =>
      obtain ⟨filter, document⟩ := pair
      rw [prepared] at begun
      have ofTransacted : transacted = (Operation.inTransaction context isolation
          (insertNew context storage filter document)).on connection world :=
        Operation.on_bind_ok _ (begun _)
      have ofPlain : plain = (insertNew context storage filter document).on connection world :=
        Operation.on_bind_ok _ (begun _)
      have ends := @ends_insertNew context storage filter document world
      obtain ⟨_, _, mapped⟩ := bind_eq_ok.mp prepared
      obtain ⟨_, ofRow, paired⟩ := bind_eq_ok.mp mapped
      cases paired
      rw [ofTransacted, on_transacted_insertNew, ofPlain]
      refine ⟨rfl, ?_, ?_⟩
      · intro error failed name
        rw [ends.unwritten failed]
        rfl
      · intro count succeeded
        obtain ⟨one, added, id, appends⟩ := ends.appends succeeded
        exact ⟨one, document, added, id, ofRow, appends⟩

end DocumentDao

end DataAccess
