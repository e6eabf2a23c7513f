import DataAccess.Program

namespace DataAccess

variable {I : Interface} {S : Type}

namespace Program

variable {α β : Type}

instance : LawfulMonad (Program I) :=
  LawfulMonad.mk' (Program I) (fun program => bind_done program) (fun _ _ => rfl)
    fun program f g => bind_assoc program f g

theorem run_bind (connection : Connection I S) (program : Program I α) (f : α → Program I β)
    (world : World S) :
    (bind program f).run connection world =
      (f (program.run connection world).1).run connection (program.run connection world).2 := by
  induction program generalizing world with
  | done result => rfl
  | call context request next ih => exact ih _ f _
  | signal event next ih => exact ih f _
  | transaction context isolation body next _ ih => exact ih _ f _

end Program

/-- The connection inside a transaction, where further transactions are joined. -/
def Connection.joined (connection : Connection I S) : Connection I S where
  perform := connection.perform
  transact _ _ body world :=
    let ((ended, value), world) := body world
    ((ended, some value), world)

namespace Program

variable {α β : Type}

/-- A joined run depends on the answers to calls alone. -/
theorem runJoined_congr {left right : Connection I S} (same : left.perform = right.perform)
    (program : Program I α) (world : World S) :
    program.runJoined left world = program.runJoined right world := by
  induction program generalizing world with
  | done result => rfl
  | call context request next ih =>
      simp only [runJoined, same]
      exact ih _ _
  | signal event next ih => exact ih _
  | transaction context isolation body next ofBody ofNext =>
      simp only [runJoined, ofBody]
      exact ofNext _ _

theorem runJoined_eq_run (connection : Connection I S) (program : Program I α)
    (world : World S) : program.runJoined connection world = program.run connection.joined world := by
  induction program generalizing world with
  | done result => rfl
  | call context request next ih => exact ih _ _
  | signal event next ih => exact ih _
  | transaction context isolation body next _ ofNext =>
      have sameCalls : connection.joined.perform = connection.perform := rfl
      have inside : runJoined connection.joined body = runJoined connection body :=
        funext fun world => runJoined_congr sameCalls body world
      simp only [run, inside]
      exact ofNext _ _

end Program

/-- Calls and transactions keep a property of the store; for a transaction its body may be relied on
to keep it. -/
structure Connection.Keeps (connection : Connection I S) (kept : S → Prop) : Prop where
  perform : ∀ context request world, kept world.store →
    kept (connection.perform context request world).2.store
  transact : ∀ {β : Type} context isolation (body : World S → Outcome β × World S) world,
    (∀ world, kept world.store → kept (body world).2.store) → kept world.store →
      kept (connection.transact context isolation body world).2.store

namespace Program

variable {α : Type} {connection : Connection I S} {kept : S → Prop}

theorem runJoined_keeps (keeps : connection.Keeps kept) (program : Program I α)
    {world : World S} (before : kept world.store) :
    kept (program.runJoined connection world).2.store := by
  induction program generalizing world with
  | done result => exact before
  | call context request next ih => exact ih _ (keeps.perform context request world before)
  | signal event next ih => exact ih before
  | transaction context isolation body next ofBody ofNext => exact ofNext _ (ofBody before)

theorem run_keeps (keeps : connection.Keeps kept) (program : Program I α)
    {world : World S} (before : kept world.store) :
    kept (program.run connection world).2.store := by
  induction program generalizing world with
  | done result => exact before
  | call context request next ih => exact ih _ (keeps.perform context request world before)
  | signal event next ih => exact ih before
  | transaction context isolation body next _ ofNext =>
      exact ofNext _ (keeps.transact context isolation _ world
        (fun _ inside => runJoined_keeps keeps body inside) before)

end Program

section

variable {context : Context} {world : World S}

theorem Connection.checked_ok
    (act : (request : I.Call) → S → Except StoreError (I.Answer request) × S)
    (live : context.check world.surroundings = .ok ()) (request : I.Call) :
    Connection.checked act context request world =
      ((act request world.store).1, { world with store := (act request world.store).2 }) := by
  simp only [Connection.checked, live]

/-- A call that its context does not allow changes nothing. -/
theorem Connection.checked_error {error : StoreError}
    (act : (request : I.Call) → S → Except StoreError (I.Answer request) × S)
    (refused : context.check world.surroundings = .error error) (request : I.Call) :
    Connection.checked act context request world = (.error error, world) := by
  simp only [Connection.checked, refused]

variable {act : (request : I.Call) → S → Except StoreError (I.Answer request) × S}
variable {request : I.Call}

theorem Connection.checked_eq_ok {answer : I.Answer request} {after : World S} :
    Connection.checked act context request world = (.ok answer, after) ↔
      context.check world.surroundings = .ok () ∧
        act request world.store = (.ok answer, after.store) ∧
        after.surroundings = world.surroundings := by
  cases checks : context.check world.surroundings with
  | error refusal => simp [checked_error act checks]
  | ok _ =>
      obtain ⟨store, surroundings⟩ := after
      simp only [checked_ok act checks, Prod.ext_iff, World.mk.injEq, and_assoc, true_and, eq_comm]

/-- A call fails by its context, and changes nothing, or by what it does. -/
theorem Connection.checked_eq_error {error : StoreError}
    (failed : (Connection.checked act context request world).1 = .error error) :
    context.check world.surroundings = .error error ∧
        (Connection.checked act context request world).2 = world ∨
      context.check world.surroundings = .ok () ∧
        (act request world.store).1 = .error error ∧
        (Connection.checked act context request world).2.store = (act request world.store).2 := by
  cases checks : context.check world.surroundings with
  | error refusal =>
      rw [checked_error act checks] at failed ⊢
      cases failed
      exact .inl ⟨rfl, rfl⟩
  | ok _ =>
      rw [checked_ok act checks] at failed ⊢
      exact .inr ⟨rfl, failed, rfl⟩

end

/-- A store that acts alone and restores an earlier content keeps what both of these keep. -/
theorem Connection.keeps_of_act {kept : S → Prop}
    {act : (request : I.Call) → S → Except StoreError (I.Answer request) × S}
    {restore : S → S → S} (ofAct : ∀ request store, kept store → kept (act request store).2)
    (ofRestore : ∀ after before, kept before → kept (restore after before)) :
    Connection.Keeps { perform := Connection.checked act
                       transact := fun context _ => Connection.atomic restore context } kept where
  perform context request world before := by
    simp only [Connection.checked]
    split
    · exact before
    · exact ofAct request world.store before
  transact context isolation body world ofBody before := by
    simp only [Connection.atomic]
    split
    · exact before
    · split
      · exact ofRestore _ _ before
      · split
        · exact ofRestore _ _ before
        · exact ofBody world before

end DataAccess
