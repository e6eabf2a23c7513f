import DataAccess.Proofs.Except
import DataAccess.Proofs.Operation

/-!
# Reported errors

A program plays against a connection that may answer anything to each call, and that runs the body
of a transaction at most once. What it ends with is compared with the first error that it was told
of, as long as it had not failed by itself before. Rules for each way of building an operation
follow.
-/

namespace DataAccess

/-- The first error of a cursor that is read as long as its answers allow to go on. -/
def Cursor.fault {α : Type} (goesOn : α → Bool) : Cursor α → Option StoreError
  | [] => none
  | .error error :: _ => some error
  | .ok item :: rest => if goesOn item then fault goesOn rest else none

/-- An error of a connection, and the call that it answers; that of a transaction itself answers
none. -/
structure Report (I : Interface) where
  origin : Option I.Call
  error : StoreError

variable {I : Interface} {S α β : Type}
variable {reached : (request : I.Call) → I.Answer request → Option StoreError}
variable {conditional : I.Call → Bool} {unmet : Option (Except DaoError α)}

namespace Report

/-- The error that a call reports, at once or while its answer is read. -/
def ofCall (reached : (request : I.Call) → I.Answer request → Option StoreError)
    (request : I.Call) : Except StoreError (I.Answer request) → Option (Report I)
  | .error error => some ⟨some request, error⟩
  | .ok answer => (reached request answer).map fun error => ⟨some request, error⟩

/-- The error of a transaction itself; after a body that failed it is of no account. -/
def ofTransaction : Except StoreError Unit → Except StoreError Unit → Option (Report I)
  | .ok (), .error error => some ⟨none, error⟩
  | _, _ => none

/-- Whether the condition of a conditional call has failed. -/
def isUnmet (conditional : I.Call → Bool) (report : Report I) : Bool :=
  match report.origin, report.error with
  | some request, .conditionFailed _ => conditional request
  | _, _ => false

theorem isUnmet_of_unconditional {request : I.Call} (unconditional : conditional request = false)
    (error : StoreError) :
    ({ origin := some request, error } : Report I).isUnmet conditional = false := by
  cases error with
  | conditionFailed storage => exact unconditional
  | _ => rfl

end Report

namespace Program

/-- What a program may end with, and the first error that it may have been told of. A call is answered
with anything; a transaction ends with anything, and has run its body once or not at all. -/
def Plays (reached : (request : I.Call) → I.Answer request → Option StoreError) :
    {α : Type} → Program I α → Option (Report I) → α → Prop
  | _, .done value, first, result => first = none ∧ result = value
  | _, .call _ request next, first, result =>
      ∃ answer later, Plays reached (next answer) later result ∧
        first = (Report.ofCall reached request answer).or later
  | _, .signal _ next, first, result => Plays reached next first result
  | _, .transaction _ _ body next, first, result =>
      ∃ ended later,
        (Plays reached (next (ended, none)) later result ∧
          first = (Report.ofTransaction (.ok ()) ended).or later) ∨
        ∃ ending value early, Plays reached body early (ending, value) ∧
          Plays reached (next (ended, some value)) later result ∧
          first = (early.or (Report.ofTransaction ending ended)).or later

theorem plays_bind {program : Program I α} {f : α → Program I β} {first : Option (Report I)}
    {result : β} (plays : (program.bind f).Plays reached first result) :
    ∃ middle early later, program.Plays reached early middle ∧
      (f middle).Plays reached later result ∧ first = early.or later := by
  induction program generalizing first with
  | done value => exact ⟨value, none, first, ⟨rfl, rfl⟩, plays, rfl⟩
  | call context request next ih =>
      obtain ⟨answer, rest, plays, rfl⟩ := plays
      obtain ⟨middle, early, later, ours, theirs, rfl⟩ := ih answer plays
      exact ⟨middle, _, later, ⟨answer, early, ours, rfl⟩, theirs, Option.or_assoc.symm⟩
  | signal event next ih => exact ih plays
  | transaction context isolation body next _ ih =>
      obtain ⟨ended, rest, ⟨plays, rfl⟩ | ⟨ending, value, inside, ran, plays, rfl⟩⟩ := plays
      · obtain ⟨middle, early, later, ours, theirs, rfl⟩ := ih _ plays
        exact ⟨middle, _, later, ⟨ended, early, .inl ⟨ours, rfl⟩⟩, theirs, Option.or_assoc.symm⟩
      · obtain ⟨middle, early, later, ours, theirs, rfl⟩ := ih _ plays
        exact ⟨middle, _, later, ⟨ended, early, .inr ⟨ending, value, inside, ran, ours, rfl⟩⟩,
          theirs, Option.or_assoc.symm⟩

end Program

/-- Transactions run their body once, in some world, or not at all. -/
def Connection.RunsBodyOnce (connection : Connection I S) : Prop :=
  ∀ {β : Type} context isolation (body : World S → Outcome β × World S) world,
    (connection.transact context isolation body world).1.2 = none ∨
      ∃ inside, (connection.transact context isolation body world).1.2 = some (body inside).1.2

namespace Program

variable {connection : Connection I S}

theorem plays_runJoined (program : Program I α) (world : World S) :
    ∃ first, program.Plays reached first (program.runJoined connection world).1 := by
  induction program generalizing world with
  | done value => exact ⟨none, rfl, rfl⟩
  | call context request next ih =>
      obtain ⟨later, plays⟩ := ih (connection.perform context request world).1
        (connection.perform context request world).2
      exact ⟨_, _, later, plays, rfl⟩
  | signal event next ih => exact ih _
  | transaction context isolation body next ofBody ofNext =>
      obtain ⟨early, ran⟩ := ofBody world
      obtain ⟨later, plays⟩ := ofNext ((body.runJoined connection world).1.1,
        some (body.runJoined connection world).1.2) (body.runJoined connection world).2
      exact ⟨_, _, later, .inr ⟨_, _, early, ran, plays, rfl⟩⟩

theorem plays_transaction {context : Context} {isolation : Isolation} {β : Type}
    {body : Program I (Outcome β)} {next : Outcome (Option β) → Program I α}
    {outcome : Outcome (Option β)} {later : Option (Report I)} {result : α}
    (ran : outcome.2 = none ∨ ∃ inside, outcome.2 = some (body.runJoined connection inside).1.2)
    (plays : (next outcome).Plays reached later result) :
    ∃ first, (Program.transaction context isolation body next).Plays reached first result := by
  obtain ⟨ended, recorded⟩ := outcome
  obtain rfl | ⟨inside, rfl⟩ := ran
  · exact ⟨_, ended, later, .inl ⟨plays, rfl⟩⟩
  · obtain ⟨early, played⟩ := body.plays_runJoined inside
    exact ⟨_, ended, later, .inr ⟨_, _, early, played, plays, rfl⟩⟩

theorem plays_run (once : connection.RunsBodyOnce) (program : Program I α) (world : World S) :
    ∃ first, program.Plays reached first (program.run connection world).1 := by
  induction program generalizing world with
  | done value => exact ⟨none, rfl, rfl⟩
  | call context request next ih =>
      obtain ⟨later, plays⟩ := ih (connection.perform context request world).1
        (connection.perform context request world).2
      exact ⟨_, _, later, plays, rfl⟩
  | signal event next ih => exact ih _
  | transaction context isolation body next _ ih =>
      have ran := once context isolation (body.runJoined connection) world
      obtain ⟨later, plays⟩ := ih _ _
      exact plays_transaction ran plays

end Program

/-- A violation of uniqueness does not show as the store's own error. -/
def Collapsed (result : Except DaoError α) : Prop :=
  ∀ fault, result ≠ .error (.store (.duplicateKey fault))

namespace Collapsed

theorem ok (value : α) : Collapsed (.ok value) := nofun

theorem error {error : DaoError} (other : ∀ fault, error ≠ .store (.duplicateKey fault)) :
    Collapsed (.error error : Except DaoError α) :=
  fun fault same => other fault (Except.error.inj same)

theorem ofStore (result : Except StoreError α) : Collapsed (Operation.ofStore result) := by
  intro fault same
  cases result with
  | ok value => cases same
  | error error =>
      cases error <;> cases same

theorem bind {result : Except DaoError α} {next : α → Except DaoError β}
    (first : Collapsed result) (rest : ∀ value, result = .ok value → Collapsed (next value)) :
    Collapsed (result >>= next) := by
  cases result with
  | ok value => exact rest value rfl
  | error error => exact fun fault same => first fault (congrArg _ (Except.error.inj same))

theorem mapM {f : α → Except DaoError β} {items : List α} (each : ∀ item, Collapsed (f item)) :
    Collapsed (items.mapM f) := by
  induction items with
  | nil => exact .ok _
  | cons item rest ih =>
      rw [List.mapM_cons]
      exact .bind (each item) fun _ _ => .bind ih fun _ _ => .ok _

end Collapsed

/-- What becomes of the first error: it is handed on, or the condition of a call has failed, and
this has a result of its own. -/
inductive Report.Means (conditional : I.Call → Bool) (unmet : Option (Except DaoError α))
    (report : Report I) : Except DaoError α → Prop
  | handed (met : report.isUnmet conditional = false) :
      Means conditional unmet report (.error (.ofStore report.error))
  | unmet {result : Except DaoError α} (failed : report.isUnmet conditional = true)
      (given : unmet = some result) : Means conditional unmet report result

namespace Operation

/-- Whatever is answered, an operation never shows a violation of uniqueness as the store's own
error, and the first error that it is told of decides its result. -/
structure Conveys (reached : (request : I.Call) → I.Answer request → Option StoreError)
    (conditional : I.Call → Bool) (unmet : Option (Except DaoError α))
    (operation : Operation I α) : Prop where
  collapsed : ∀ first result, operation.run.Plays reached first result → Collapsed result
  means : ∀ report result, operation.run.Plays reached (some report) result →
    report.Means conditional unmet result

variable {operation : Operation I α} {context : Context}

theorem conveys_ofExcept {result : Except DaoError α} (collapsed : Collapsed result) :
    (ofExcept result).Conveys reached conditional unmet where
  collapsed := by
    rintro _ _ ⟨-, rfl⟩
    exact collapsed
  means := by
    rintro _ _ ⟨absurd, -⟩
    cases absurd

theorem conveys_pure (value : α) : (pure value : Operation I α).Conveys reached conditional unmet :=
  conveys_ofExcept (.ok value)

theorem conveys_throw {error : DaoError} (other : ∀ fault, error ≠ .store (.duplicateKey fault)) :
    (throw error : Operation I α).Conveys reached conditional unmet :=
  conveys_ofExcept (.error other)

/-- Where no condition may fail, a first error is final. -/
theorem conveys_bind {unmet : Option (Except DaoError β)} {next : α → Operation I β}
    (conveys : operation.Conveys reached conditional none)
    (continues : ∀ value, (next value).Conveys reached conditional unmet) :
    (operation >>= next).Conveys reached conditional unmet where
  collapsed first result plays := by
    obtain ⟨middle, early, later, ours, theirs, -⟩ := Program.plays_bind plays
    cases middle with
    | ok value => exact (continues value).collapsed _ _ theirs
    | error error =>
        obtain ⟨-, rfl⟩ := theirs
        exact .error fun fault same => conveys.collapsed _ _ ours fault (congrArg _ same)
  means report result plays := by
    obtain ⟨middle, early, later, ours, theirs, first⟩ := Program.plays_bind plays
    cases early with
    | some other =>
        -- The operation has failed with this error, so nothing follows.
        cases Option.some.inj first
        cases conveys.means _ _ ours with
        | handed met =>
            obtain ⟨-, rfl⟩ := theirs
            exact .handed met
        | unmet failed given => cases given
    | none =>
        cases middle with
        | ok value => exact (continues value).means _ _ (first ▸ theirs)
        | error error =>
            obtain ⟨rfl, -⟩ := theirs
            cases first

theorem plays_map (f : α → β) {first : Option (Report I)} {result : Except DaoError β}
    (plays : (f <$> operation).run.Plays reached first result) :
    ∃ middle, operation.run.Plays reached first middle ∧ result = middle.map f := by
  obtain ⟨middle, early, later, ours, theirs, rfl⟩ := Program.plays_bind plays
  refine ⟨middle, ?_⟩
  cases middle <;>
    · obtain ⟨rfl, rfl⟩ := theirs
      rw [Option.or_none]
      exact ⟨ours, rfl⟩

theorem conveys_map (f : α → β) (conveys : operation.Conveys reached conditional unmet) :
    (f <$> operation).Conveys reached conditional (unmet.map (Except.map f)) where
  collapsed first result plays := by
    obtain ⟨middle, ours, rfl⟩ := plays_map f plays
    cases middle with
    | ok value => exact .ok _
    | error error => exact .error fun fault same => conveys.collapsed _ _ ours fault (congrArg _ same)
  means report result plays := by
    obtain ⟨middle, ours, rfl⟩ := plays_map f plays
    cases conveys.means _ _ ours with
    | handed met => exact .handed met
    | unmet failed given => exact .unmet failed (congrArg (Option.map (Except.map f)) given)

section

variable (request : I.Call) {next : I.Answer request → Operation I β}
variable (failing : ∀ answer error, reached request answer = some error →
  next answer = ofExcept (.error (.ofStore error)))

include failing

theorem plays_call_bind {first : Option (Report I)} {result : Except DaoError β}
    (plays : (ofCall (.call context request .done) >>= next).run.Plays reached first result) :
    (∃ error, first = some ⟨some request, error⟩ ∧ result = .error (.ofStore error)) ∨
      ∃ answer, reached request answer = none ∧ (next answer).run.Plays reached first result := by
  obtain ⟨answer, later, rest, rfl⟩ := plays
  cases answer with
  | error error =>
      obtain ⟨rfl, rfl⟩ := rest
      exact .inl ⟨error, rfl, rfl⟩
  | ok answer =>
      have continued : (next answer).run.Plays reached later result := rest
      cases read : reached request answer with
      | none =>
          refine .inr ⟨answer, read, ?_⟩
          simpa only [Report.ofCall, read, Option.map_none, Option.none_or] using continued
      | some error =>
          rw [failing answer error read] at continued
          obtain ⟨rfl, rfl⟩ := continued
          refine .inl ⟨error, ?_, rfl⟩
          simp only [Report.ofCall, read, Option.map_some, Option.or_none]

/-- A call whose answer may report an error when it is read. -/
theorem conveys_call_bind {unmet : Option (Except DaoError β)}
    (unconditional : conditional request = false)
    (going : ∀ answer, reached request answer = none →
      (next answer).Conveys reached conditional unmet) :
    (ofCall (.call context request .done) >>= next).Conveys reached conditional unmet where
  collapsed first result plays := by
    obtain ⟨error, -, rfl⟩ | ⟨answer, clear, rest⟩ := plays_call_bind request failing plays
    · exact .ofStore (.error error)
    · exact (going answer clear).collapsed _ _ rest
  means report result plays := by
    obtain ⟨error, told, rfl⟩ | ⟨answer, clear, rest⟩ := plays_call_bind request failing plays
    · cases told
      exact .handed (Report.isUnmet_of_unconditional unconditional error)
    · exact (going answer clear).means _ _ rest

end

theorem conveys_call (request : I.Call) {unmet : Option (Except DaoError (I.Answer request))}
    (unconditional : conditional request = false) (plain : ∀ answer, reached request answer = none) :
    (ofCall (.call context request .done)).Conveys reached conditional unmet := by
  rw [← bind_pure (ofCall _)]
  refine conveys_call_bind request (fun answer error found => ?_) unconditional fun answer _ =>
    conveys_pure answer
  rw [plain answer] at found
  cases found

theorem plays_inTransaction {isolation : Isolation} {first : Option (Report I)}
    {result : Except DaoError α}
    (plays : (inTransaction context isolation operation).run.Plays reached first result) :
    ∃ ended, (first = Report.ofTransaction (.ok ()) ended ∧ result = settle none ended) ∨
      ∃ early recorded, operation.run.Plays reached early recorded ∧
        first = early.or (Report.ofTransaction (ending recorded) ended) ∧
        result = settle (some recorded) ended := by
  obtain ⟨ended, later, ⟨⟨rfl, rfl⟩, rfl⟩ | ⟨ending, recorded, early, ran, ⟨rfl, rfl⟩, rfl⟩⟩ := plays
  · exact ⟨ended, .inl ⟨Option.or_none, rfl⟩⟩
  · obtain ⟨_, early, _, ours, ⟨rfl, same⟩, rfl⟩ := Program.plays_bind ran
    cases same
    refine ⟨ended, .inr ⟨early, recorded, ours, ?_, rfl⟩⟩
    rw [Option.or_none, Option.or_none]

theorem collapsed_settle {recorded : Option (Except DaoError α)}
    (collapsed : ∀ result ∈ recorded, Collapsed result) (ended : Except StoreError Unit) :
    Collapsed (settle recorded ended) := by
  cases recorded with
  | none =>
      cases ended with
      | error error => exact .ofStore (.error error)
      | ok _ => exact .error nofun
  | some result =>
      cases result with
      | error error => exact collapsed _ rfl
      | ok value =>
          cases ended with
          | error error => exact .ofStore (.error error)
          | ok _ => exact .ok value

/-- A failure to begin or to commit counts unless the operation has failed before. -/
theorem conveys_inTransaction {isolation : Isolation}
    (conveys : operation.Conveys reached conditional none) :
    (inTransaction context isolation operation).Conveys reached conditional unmet where
  collapsed first result plays := by
    obtain ⟨ended, ⟨-, rfl⟩ | ⟨early, recorded, ran, -, rfl⟩⟩ := plays_inTransaction plays
    · refine collapsed_settle ?_ ended
      rintro _ ⟨⟩
    · refine collapsed_settle ?_ ended
      rintro _ ⟨⟩
      exact conveys.collapsed _ _ ran
  means report result plays := by
    obtain ⟨ended, ⟨first, rfl⟩ | ⟨early, recorded, ran, first, rfl⟩⟩ := plays_inTransaction plays
    · cases ended with
      | ok _ => cases first
      | error error =>
          cases first
          exact .handed rfl
    · cases early with
      | some other =>
          cases Option.some.inj first
          cases conveys.means _ _ ran with
          | handed met => exact .handed met
          | unmet failed given => cases given
      | none =>
          cases recorded with
          -- It failed by itself, and what the transaction says then is no report.
          | error error => cases first
          | ok value =>
              cases ended with
              | ok _ => cases first
              | error error =>
                  cases first
                  exact .handed rfl

theorem Conveys.collapsed_on {connection : Connection I S}
    (conveys : operation.Conveys reached conditional unmet) (once : connection.RunsBodyOnce)
    (world : World S) : Collapsed (operation.on connection world).1 := by
  obtain ⟨first, plays⟩ := Program.plays_run once operation.run world
  exact conveys.collapsed first _ plays

end Operation

end DataAccess
