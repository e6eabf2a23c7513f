import DataAccess.Dao.Operation
import DataAccess.Proofs.Except
import DataAccess.Proofs.Program

namespace DataAccess

theorem Context.check_background (surroundings : Surroundings) :
    Context.background.check surroundings = .ok () := rfl

theorem Connection.checked_background {I : Interface} {S : Type}
    (act : (request : I.Call) → S → Except StoreError (I.Answer request) × S)
    (request : I.Call) (world : World S) :
    Connection.checked act .background request world =
      ((act request world.store).1, { world with store := (act request world.store).2 }) := rfl

namespace Operation

variable {I : Interface} {S α β : Type} {connection : Connection I S} {world after : World S}
variable {operation : Operation I α} {result : α} {error : DaoError}

/-- What an operation results in on a store, and the world after it. -/
def on (connection : Connection I S) (operation : Operation I α) (world : World S) :
    Except DaoError α × World S :=
  operation.run.run connection world

theorem on_pure (result : α) (world : World S) :
    (pure result : Operation I α).on connection world = (.ok result, world) := rfl

theorem on_ofExcept (result : Except DaoError α) (world : World S) :
    (ofExcept result : Operation I α).on connection world = (result, world) := rfl

theorem on_bind (operation : Operation I α) (next : α → Operation I β) (world : World S) :
    (operation >>= next).on connection world =
      match operation.on connection world with
      | (.ok result, after) => (next result).on connection after
      | (.error error, after) => (.error error, after) := by
  refine (Program.run_bind connection operation.run _ world).trans ?_
  simp only [on]
  rcases operation.run.run connection world with ⟨_ | _, _⟩ <;> rfl

theorem on_bind_ok (next : α → Operation I β)
    (ran : operation.on connection world = (.ok result, after)) :
    (operation >>= next).on connection world = (next result).on connection after := by
  rw [on_bind, ran]

theorem on_bind_error (next : α → Operation I β)
    (failed : operation.on connection world = (.error error, after)) :
    (operation >>= next).on connection world = (.error error, after) := by
  rw [on_bind, failed]

theorem on_bind_congr {first second : α → Operation I β}
    (same : ∀ result after, operation.on connection world = (.ok result, after) →
      (first result).on connection after = (second result).on connection after) :
    (operation >>= first).on connection world = (operation >>= second).on connection world := by
  rw [on_bind, on_bind]
  rcases ran : operation.on connection world with ⟨_ | result, after⟩
  · rfl
  · exact same result after ran

theorem on_bind_eq_ok {next : α → Operation I β} {final : β}
    (ran : (operation >>= next).on connection world = (.ok final, after)) :
    ∃ middle between, operation.on connection world = (.ok middle, between) ∧
      (next middle).on connection between = (.ok final, after) := by
  rw [on_bind] at ran
  rcases first : operation.on connection world with ⟨_ | middle, between⟩
  · rw [first] at ran
    cases ran
  · rw [first] at ran
    exact ⟨middle, between, rfl, ran⟩

theorem on_map {outcome : Except DaoError α} (f : α → β)
    (ran : operation.on connection world = (outcome, after)) :
    (f <$> operation).on connection world = (outcome.map f, after) := by
  rw [map_eq_pure_bind, on_bind, ran]
  cases outcome <;> rfl

theorem on_of_map (f : α → β) (ran : (f <$> operation).on connection world = (.ok (f result), after))
    (injective : ∀ other, f other = f result → other = result) :
    operation.on connection world = (.ok result, after) := by
  rcases original : operation.on connection world with ⟨_ | other, between⟩
  · rw [on_map f original] at ran
    cases ran
  · rw [on_map f original] at ran
    simp only [Except.map, Prod.mk.injEq, Except.ok.injEq] at ran
    rw [injective other ran.1, ran.2]

theorem on_call (context : Context) (request : I.Call) (world : World S) :
    (ofCall (.call context request .done)).on connection world =
      (ofStore (connection.perform context request world).1,
        (connection.perform context request world).2) := rfl

/-- A call acts on the store, in a transaction and outside of one. -/
theorem on_call_checked
    {act : (request : I.Call) → S → Except StoreError (I.Answer request) × S}
    (calls : connection.perform = Connection.checked act) (request : I.Call) (world : World S) :
    (ofCall (.call .background request .done)).on connection world =
      (ofStore (act request world.store).1,
        { world with store := (act request world.store).2 }) := by
  rw [on_call, calls, Connection.checked_background]

section

variable {act : (request : I.Call) → S → Except StoreError (I.Answer request) × S}
variable {context : Context}

theorem on_call_live (calls : connection.perform = Connection.checked act)
    (live : context.check world.surroundings = .ok ()) (request : I.Call) :
    (ofCall (.call context request .done)).on connection world =
      (ofStore (act request world.store).1,
        { world with store := (act request world.store).2 }) := by
  rw [on_call, calls, Connection.checked_ok act live]

theorem on_call_refused {refusal : StoreError}
    (calls : connection.perform = Connection.checked act)
    (refused : context.check world.surroundings = .error refusal) (request : I.Call) :
    (ofCall (.call context request .done)).on connection world = (.error (.ofStore refusal), world) := by
  rw [on_call, calls, Connection.checked_error act refused]
  rfl

end

/-- A call that was answered was let through by its context. -/
theorem on_call_answered {act : (request : I.Call) → S → Except StoreError (I.Answer request) × S}
    (calls : connection.perform = Connection.checked act) {context : Context} {request : I.Call}
    {answer : I.Answer request}
    (ran : (ofCall (.call context request .done)).on connection world = (.ok answer, after)) :
    context.check world.surroundings = .ok () ∧
      act request world.store = (.ok answer, after.store) ∧
      after.surroundings = world.surroundings := by
  rw [on_call, calls] at ran
  obtain ⟨answered, ended⟩ := Prod.mk.inj ran
  have performed : Connection.checked act context request world = (.ok answer, after) :=
    Prod.ext (mapError_eq_ok.mp answered) ended
  exact Connection.checked_eq_ok.mp performed

theorem on_call_eq_ok {act : (request : I.Call) → S → Except StoreError (I.Answer request) × S}
    (calls : connection.perform = Connection.checked act) {context : Context} {request : I.Call}
    {answer : I.Answer request}
    (ran : (ofCall (.call context request .done)).on connection world = (.ok answer, after)) :
    act request world.store = (.ok answer, after.store) :=
  (on_call_answered calls ran).2.1

/-- The body of a transaction around an operation, as the store runs it. -/
def bodyOn (connection : Connection I S) (operation : Operation I α) (world : World S) :
    Outcome (Except DaoError α) × World S :=
  let (result, after) := operation.on connection.joined world
  ((ending result, result), after)

theorem on_inTransaction (context : Context) (isolation : Isolation) (operation : Operation I α)
    (world : World S) :
    (inTransaction context isolation operation).on connection world =
      let (outcome, after) :=
        connection.transact context isolation (bodyOn connection operation) world
      (settle outcome.2 outcome.1, after) := by
  have body : Program.runJoined connection
      (operation.run.bind fun result => .done (ending result, result)) =
        bodyOn connection operation := by
    funext world
    rw [Program.runJoined_eq_run, Program.run_bind]
    rfl
  rw [← body]
  rfl

section

variable {restore : S → S → S} {isolation : Isolation}
variable (atomic : ∀ {β : Type} (body : World S → Outcome β × World S),
  connection.transact .background isolation body = Connection.atomic restore .background body)

include atomic

theorem on_inTransaction_ok (ran : operation.on connection.joined world = (.ok result, after)) :
    (inTransaction .background isolation operation).on connection world = (.ok result, after) := by
  rw [on_inTransaction, atomic]
  simp only [Connection.atomic, Context.check_background, bodyOn, ran]
  rfl

/-- On a private copy, a failure takes back what the operation wrote. -/
theorem on_inTransaction_error
    (failed : operation.on connection.joined world = (.error error, after)) :
    (inTransaction .background isolation operation).on connection world =
      (.error error, { after with store := restore after.store world.store }) := by
  rw [on_inTransaction, atomic]
  simp only [Connection.atomic, Context.check_background, bodyOn, failed]
  rfl

end

end Operation

end DataAccess
