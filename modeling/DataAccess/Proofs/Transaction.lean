import DataAccess.Document.Store
import DataAccess.Proofs.Except
import DataAccess.Proofs.Program

/-!
# Transactions

A transaction that commits gives the answers and leaves the store that its calls give and leave when
they are made one after the other without any transaction; one that fails leaves the store as it
was. Transactions inside it are joined: what their bodies wrote stays even where they failed.
-/

namespace DataAccess

/-- A call together with its answer. -/
structure Exchange (I : Interface) where
  context : Context
  request : I.Call
  answer : Except StoreError (I.Answer request)

namespace Program

variable {I : Interface} {S α β : Type}

/-- The program with the bodies of transactions in their places, call by call. -/
def inlined : {α : Type} → Program I α → Program I α
  | _, .done result => .done result
  | _, .call context request next => .call context request fun answer => inlined (next answer)
  | _, .signal event next => .signal event (inlined next)
  | _, .transaction _ _ body next =>
      bind (inlined body) fun outcome => inlined (next (outcome.1, some outcome.2))

/-- The calls of a run in which transactions are joined, with their answers. -/
def exchanges (connection : Connection I S) :
    {α : Type} → Program I α → World S → List (Exchange I)
  | _, .done _, _ => []
  | _, .call context request next, world =>
      let (answer, after) := connection.perform context request world
      { context, request, answer } :: exchanges connection (next answer) after
  | _, .signal event next, world =>
      exchanges connection next { world with surroundings := world.surroundings.after event }
  | _, .transaction _ _ body next, world =>
      let ((ended, value), after) := runJoined connection body world
      exchanges connection body world ++ exchanges connection (next (ended, some value)) after

/-- A program that opens no transaction. -/
def Direct : {α : Type} → Program I α → Prop
  | _, .done _ => True
  | _, .call _ _ next => ∀ answer, Direct (next answer)
  | _, .signal _ next => Direct next
  | _, .transaction _ _ _ _ => False

theorem direct_bind {program : Program I α} {f : α → Program I β} (direct : program.Direct)
    (continues : ∀ result, (f result).Direct) : (bind program f).Direct := by
  induction program with
  | done result => exact continues result
  | call context request next ih => exact fun answer => ih answer (direct answer) continues
  | signal event next ih => exact ih direct continues
  | transaction context isolation body next _ _ => exact direct.elim

theorem direct_inlined (program : Program I α) : program.inlined.Direct := by
  induction program with
  | done result => trivial
  | call context request next ih => exact ih
  | signal event next ih => exact ih
  | transaction context isolation body next ofBody ofNext =>
      exact direct_bind ofBody fun outcome => ofNext _

variable (connection : Connection I S)

theorem runJoined_bind (program : Program I α) (f : α → Program I β) (world : World S) :
    (bind program f).runJoined connection world =
      (f (program.runJoined connection world).1).runJoined connection
        (program.runJoined connection world).2 := by
  simp only [runJoined_eq_run]
  exact run_bind connection.joined program f world

/-- Inside a transaction a program does what it does with its transactions inlined. -/
theorem runJoined_inlined (program : Program I α) (world : World S) :
    program.inlined.runJoined connection world = program.runJoined connection world := by
  induction program generalizing world with
  | done result => rfl
  | call context request next ih => exact ih _ _
  | signal event next ih => exact ih _
  | transaction context isolation body next ofBody ofNext =>
      -- Joined, the outcome of a body is handed on and none of its writes are taken back.
      rw [inlined, runJoined_bind, ofBody]
      exact ofNext _ _

theorem run_eq_runJoined {program : Program I α} (direct : program.Direct) (world : World S) :
    program.run connection world = program.runJoined connection world := by
  induction program generalizing world with
  | done result => rfl
  | call context request next ih => exact ih _ (direct _) _
  | signal event next ih => exact ih direct _
  | transaction context isolation body next _ _ => exact direct.elim

theorem run_inlined (program : Program I α) (world : World S) :
    program.inlined.run connection world = program.runJoined connection world := by
  rw [run_eq_runJoined connection (direct_inlined program), runJoined_inlined]

theorem exchanges_bind (program : Program I α) (f : α → Program I β) (world : World S) :
    (bind program f).exchanges connection world =
      program.exchanges connection world ++
        (f (program.runJoined connection world).1).exchanges connection
          (program.runJoined connection world).2 := by
  induction program generalizing world with
  | done result => rfl
  | call context request next ih => exact congrArg (List.cons _) (ih _ f _)
  | signal event next ih => exact ih f _
  | transaction context isolation body next _ ofNext =>
      simp only [bind, exchanges, runJoined, List.append_assoc]
      exact congrArg (List.append _) (ofNext _ f _)

theorem exchanges_inlined (program : Program I α) (world : World S) :
    program.inlined.exchanges connection world = program.exchanges connection world := by
  induction program generalizing world with
  | done result => rfl
  | call context request next ih => exact congrArg (List.cons _) (ih _ _)
  | signal event next ih => exact ih _
  | transaction context isolation body next ofBody ofNext =>
      rw [inlined, exchanges_bind, runJoined_inlined, ofBody]
      exact congrArg (List.append _) (ofNext _ _)

end Program

namespace Connection

variable {S β : Type} (restore : S → S → S) (context : Context)
variable (body : World S → Outcome β × World S) (world : World S)

/-- A transaction ends well when its context allows it before and after a body that ends well; else
the first of these three that fails says how. -/
theorem ended_atomic : (atomic restore context body world).1.1 = (do
    context.check world.surroundings
    (body world).1.1
    context.check (body world).2.surroundings) := by
  rcases ran : body world with ⟨⟨ended, value⟩, after⟩
  cases begun : context.check world.surroundings with
  | error error =>
      simp only [atomic, begun]
      rfl
  | ok _ =>
      cases ended with
      | error error =>
          simp only [atomic, begun, ran]
          rfl
      | ok _ =>
          cases finished : context.check after.surroundings <;>
            simp only [atomic, begun, ran, finished] <;> rfl

theorem atomic_of_committed (committed : (atomic restore context body world).1.1 = .ok ()) :
    atomic restore context body world = (((.ok (), some (body world).1.2)), (body world).2) := by
  rw [ended_atomic, then_eq_ok, then_eq_ok] at committed
  obtain ⟨begun, ended, finished⟩ := committed
  simp only [atomic, begun, ended, finished]

/-- A transaction that fails before its body has not touched the store. -/
theorem store_of_failed {error : StoreError}
    (failed : (atomic restore context body world).1.1 = .error error) :
    (atomic restore context body world).2.store = world.store ∨
      (atomic restore context body world).2.store = restore (body world).2.store world.store := by
  rcases ran : body world with ⟨⟨ended, value⟩, after⟩
  cases begun : context.check world.surroundings with
  | error reason =>
      left
      simp only [atomic, begun]
  | ok _ =>
      right
      cases ended with
      | error reason => simp only [atomic, begun, ran]
      | ok _ =>
          cases finished : context.check after.surroundings with
          | error reason => simp only [atomic, begun, ran, finished]
          | ok _ =>
              simp only [atomic, begun, ran, finished] at failed
              cases failed

end Connection

namespace Document

/-- A transaction ends as its body does when its calls are made directly on the store, provided that
the context allows it before and after. Committed, it has made the same calls with the same answers
and leaves the same world; failed, it leaves every collection as it was, and only ids are used up. -/
theorem transaction_commits_or_restores {β : Type} (context : Context) (isolation : Isolation)
    (body : Program interface (Outcome β)) (world : World Store) :
    let direct := body.inlined.run connection world
    let transacted := (Program.transaction context isolation body .done).run connection world
    body.inlined.Direct ∧
    transacted.1.1 = (do
      context.check world.surroundings
      direct.1.1
      context.check direct.2.surroundings) ∧
    (transacted.1.1 = .ok () →
      body.exchanges connection world = body.inlined.exchanges connection world ∧
      transacted.1.2 = some direct.1.2 ∧ transacted.2 = direct.2) ∧
    ∀ error, transacted.1.1 = .error error →
      transacted.2.store = { world.store with ids := transacted.2.store.ids } := by
  intro direct transacted
  have asJoined : direct = body.runJoined connection world := Program.run_inlined connection body world
  have asAtomic : transacted =
      Connection.atomic Store.rollback context (body.runJoined connection) world := rfl
  refine ⟨Program.direct_inlined body, ?_, ?_, ?_⟩
  · rw [asAtomic, asJoined]
    exact Connection.ended_atomic Store.rollback context _ world
  · intro committed
    rw [asAtomic] at committed ⊢
    rw [Connection.atomic_of_committed Store.rollback context _ world committed, asJoined]
    exact ⟨(Program.exchanges_inlined connection body world).symm, rfl, rfl⟩
  · intro error failed
    rw [asAtomic] at failed ⊢
    rcases Connection.store_of_failed Store.rollback context _ world failed with kept | restored
    · rw [kept]
    · rw [restored]
      rfl

/-- Two insertions, the second in a transaction of its own that fails. -/
def insertions : Program interface Unit := do
  let _ ← insertOne .background "people" [("_id", .string "1")]
  let _ ← (Program.transaction .background .snapshot (do
    let _ ← insertOne .background "people" [("_id", .string "2")]
    return (.error .timeout, ())) .done : Program interface (Outcome (Option Unit)))

example : ((Program.transaction .background .snapshot
    (insertions.bind fun _ => .done (.ok (), ())) .done).run connection
      { store := { ids := { name := toString } } }).2.store.count "people" = 2 := by
  decide

end Document

end DataAccess
