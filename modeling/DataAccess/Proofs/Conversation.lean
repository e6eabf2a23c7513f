import DataAccess.Proofs.Operation
import DataAccess.Proofs.Transaction

/-!
# Conversations

A conversation of a program is a list of calls with some answers to them, together with the result
that the program ends with when it is answered so. What is true of all conversations is true of
every run on every connection. Of an operation that works in transactions only, the conversations of
the transactions' bodies tell what it does.
-/

namespace DataAccess

variable {I : Interface} {S α β : Type} {exchanges : List (Exchange I)}

namespace Program

/-- With these answers a program makes these calls and ends with this result, further transactions
being joined. -/
def Converses : {α : Type} → Program I α → List (Exchange I) → α → Prop
  | _, .done result, exchanges, final => exchanges = [] ∧ final = result
  | _, .call context request next, exchanges, final =>
      ∃ answer rest, exchanges = { context, request, answer } :: rest ∧
        Converses (next answer) rest final
  | _, .signal _ next, exchanges, final => Converses next exchanges final
  | _, .transaction _ _ body next, exchanges, final =>
      ∃ inside outcome rest, exchanges = inside ++ rest ∧ Converses body inside outcome ∧
        Converses (next (outcome.1, some outcome.2)) rest final

theorem converses_bind {program : Program I α} {f : α → Program I β} {final : β}
    (conversed : (bind program f).Converses exchanges final) :
    ∃ first middle rest, exchanges = first ++ rest ∧ program.Converses first middle ∧
      (f middle).Converses rest final := by
  induction program generalizing exchanges with
  | done result => exact ⟨[], result, exchanges, rfl, ⟨rfl, rfl⟩, conversed⟩
  | call context request next ih =>
      obtain ⟨answer, later, rfl, continued⟩ := conversed
      obtain ⟨first, middle, rest, rfl, ofFirst, ofRest⟩ := ih answer continued
      exact ⟨_ :: first, middle, rest, rfl, ⟨answer, first, rfl, ofFirst⟩, ofRest⟩
  | signal event next ih => exact ih conversed
  | transaction context isolation body next _ ofNext =>
      obtain ⟨inside, outcome, later, rfl, ofBody, continued⟩ := conversed
      obtain ⟨first, middle, rest, rfl, ofFirst, ofRest⟩ := ofNext _ continued
      exact ⟨inside ++ first, middle, rest, (List.append_assoc inside first rest).symm,
        ⟨inside, outcome, first, rfl, ofBody, ofFirst⟩, ofRest⟩

/-- A run on a connection is a conversation. -/
theorem converses_exchanges (connection : Connection I S) (program : Program I α)
    (world : World S) :
    program.Converses (program.exchanges connection world) (program.runJoined connection world).1 := by
  induction program generalizing world with
  | done result => exact ⟨rfl, rfl⟩
  | call context request next ih => exact ⟨_, _, rfl, ih _ _⟩
  | signal event next ih => exact ih _
  | transaction context isolation body next ofBody ofNext =>
      exact ⟨_, _, _, rfl, ofBody world, ofNext _ _⟩

/-- All calls are made in transactions, and what the body of one exchanges is allowed, whatever the
connection and the world are in which it runs. -/
def Transacts (allowed : List (Exchange I) → Prop) : {α : Type} → Program I α → Prop
  | _, .done _ => True
  | _, .call _ _ _ => False
  | _, .signal _ next => Transacts allowed next
  | _, .transaction _ _ body next =>
      (∀ (S : Type) (connection : Connection I S) (world : World S),
          allowed (body.exchanges connection world)) ∧
        ∀ outcome, Transacts allowed (next outcome)

end Program

namespace Operation

variable {operation : Operation I α} {allowed : List (Exchange I) → Prop}

def Converses (operation : Operation I α) (exchanges : List (Exchange I))
    (final : Except DaoError α) : Prop :=
  operation.run.Converses exchanges final

theorem converses_ofExcept {result final : Except DaoError α}
    (conversed : (ofExcept result : Operation I α).Converses exchanges final) :
    exchanges = [] ∧ final = result := conversed

theorem converses_pure {result : α} {final : Except DaoError α}
    (conversed : (pure result : Operation I α).Converses exchanges final) :
    exchanges = [] ∧ final = .ok result := conversed

theorem converses_call {context : Context} {request : I.Call}
    {final : Except DaoError (I.Answer request)}
    (conversed : (ofCall (.call context request .done)).Converses exchanges final) :
    ∃ answer, exchanges = [{ context, request, answer }] ∧ final = ofStore answer := by
  obtain ⟨answer, rest, rfl, rfl, rfl⟩ := conversed
  exact ⟨answer, rfl, rfl⟩

/-- What is bound is reached with a result and continues the conversation, or it is not reached. -/
theorem converses_bind {next : α → Operation I β} {final : Except DaoError β}
    (conversed : (operation >>= next).Converses exchanges final) :
    (∃ error, operation.Converses exchanges (.error error) ∧ final = .error error) ∨
      ∃ first middle rest, exchanges = first ++ rest ∧ operation.Converses first (.ok middle) ∧
        (next middle).Converses rest final := by
  obtain ⟨first, result, rest, rfl, ofFirst, ofRest⟩ := Program.converses_bind conversed
  cases result with
  | error error =>
      obtain ⟨rfl, rfl⟩ := ofRest
      rw [List.append_nil]
      exact .inl ⟨error, ofFirst, rfl⟩
  | ok middle => exact .inr ⟨first, middle, rest, rfl, ofFirst, ofRest⟩

theorem converses_ofExcept_bind {result : Except DaoError α} {next : α → Operation I β}
    {final : Except DaoError β}
    (conversed : (ofExcept result >>= next).Converses exchanges final) :
    (∃ error, result = .error error ∧ exchanges = [] ∧ final = .error error) ∨
      ∃ middle, result = .ok middle ∧ (next middle).Converses exchanges final := by
  rcases converses_bind conversed with ⟨error, failed, ended⟩ | ⟨_, middle, _, rfl, first, rest⟩
  · obtain ⟨none, failure⟩ := converses_ofExcept failed
    exact .inl ⟨error, failure.symm, none, ended⟩
  · obtain ⟨rfl, success⟩ := converses_ofExcept first
    exact .inr ⟨middle, success.symm, rest⟩

theorem transacts_ofExcept_bind {result : Except DaoError α} {next : α → Operation I β}
    (continues : ∀ value, result = .ok value → (next value).run.Transacts allowed) :
    (ofExcept result >>= next).run.Transacts allowed := by
  cases result with
  | error error => trivial
  | ok value => exact continues value rfl

theorem transacts_inTransaction {context : Context} {isolation : Isolation}
    (inside : ∀ exchanges result, operation.Converses exchanges result → allowed exchanges) :
    (inTransaction context isolation operation).run.Transacts allowed := by
  refine ⟨fun S connection world => ?_, fun _ => trivial⟩
  obtain ⟨first, result, rest, exchanged, ofBody, ended⟩ :=
    Program.converses_bind (Program.converses_exchanges connection _ world)
  rw [exchanged, ended.1, List.append_nil]
  exact inside first result ofBody

end Operation

end DataAccess
