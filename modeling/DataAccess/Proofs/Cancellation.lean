import DataAccess.Proofs.Dict
import DataAccess.Proofs.Document.Creation
import DataAccess.Proofs.KeyValue.Creation
import DataAccess.Proofs.Transaction
import Mathlib.Data.List.Chain

/-!
# Cancelled runs

A token stays cancelled. In a run whose calls and transactions carry a cancelled token nothing is
written any more, wherever in the run it was cancelled: calls are refused, and a transaction in
progress does not commit, whatever its body does and answers.
-/

namespace DataAccess

variable {I : Interface} {S α : Type} {token : Nat}

/-- A call or a transaction that has ended: its context, the surroundings in which it began, and how
it ended. -/
structure Completion where
  context : Context
  before : Surroundings
  outcome : Except StoreError Unit

/-- A moment of a run: the world with the store as it is committed, and what has just ended. -/
structure Moment (S : Type) where
  world : World S
  ended : Option Completion := none

namespace Program

/-- The surroundings that a program passes through inside a transaction. -/
def passing (connection : Connection I S) :
    {α : Type} → Program I α → World S → List Surroundings
  | _, .done _, _ => []
  | _, .call context request next, world =>
      let (answer, after) := connection.perform context request world
      after.surroundings :: passing connection (next answer) after
  | _, .signal event next, world =>
      let after := { world with surroundings := world.surroundings.after event }
      after.surroundings :: passing connection next after
  | _, .transaction _ _ body next, world =>
      let ((ended, value), after) := runJoined connection body world
      passing connection body world ++ passing connection (next (ended, some value)) after

/-- The moments of a run. Until a transaction ends, the store is seen as it was when it began. -/
def course (connection : Connection I S) : {α : Type} → Program I α → World S → List (Moment S)
  | _, .done _, _ => []
  | _, .call context request next, world =>
      let (answer, after) := connection.perform context request world
      { world := after, ended := some ⟨context, world.surroundings, answer.map fun _ => ()⟩ } ::
        course connection (next answer) after
  | _, .signal event next, world =>
      let after := { world with surroundings := world.surroundings.after event }
      { world := after } :: course connection next after
  | _, .transaction context isolation body next, world =>
      let (outcome, after) := connection.transact context isolation (runJoined connection body) world
      let during := if outcome.2.isSome then passing connection body world else []
      during.map (fun surroundings => { world := { world with surroundings } }) ++
        { world := after, ended := some ⟨context, world.surroundings, outcome.1⟩ } ::
          course connection (next outcome) after

end Program

theorem Surroundings.cancelled_after {surroundings : Surroundings} (event : Event)
    (cancelled : token ∈ surroundings.cancelled) :
    token ∈ (surroundings.after event).cancelled := by
  cases event with
  | cancel other => exact List.mem_cons_of_mem other cancelled
  | elapse duration => exact cancelled

/-- A cancelled token stays cancelled and keeps the content of a store as it is. -/
def Frozen {C : Type} (token : Nat) (content : S → C) (earlier later : World S) : Prop :=
  token ∈ earlier.surroundings.cancelled →
    token ∈ later.surroundings.cancelled ∧ content later.store = content earlier.store

namespace Frozen

variable {C : Type} {content : S → C}

theorem refl (world : World S) : Frozen token content world world :=
  fun cancelled => ⟨cancelled, rfl⟩

theorem trans {first second third : World S} (before : Frozen token content first second)
    (after : Frozen token content second third) : Frozen token content first third := by
  intro cancelled
  obtain ⟨still, kept⟩ := before cancelled
  obtain ⟨later, keptAfter⟩ := after still
  exact ⟨later, keptAfter.trans kept⟩

instance : IsTrans (World S) (Frozen token content) := ⟨fun _ _ _ => trans⟩

theorem after (world : World S) (event : Event) :
    Frozen token content world
      { world with surroundings := world.surroundings.after event } :=
  fun cancelled => ⟨Surroundings.cancelled_after event cancelled, rfl⟩

end Frozen

namespace Moment

def Carries (token : Nat) (moment : Moment S) : Prop :=
  ∀ completion ∈ moment.ended, completion.context.token = some token

instance (moment : Moment S) : Decidable (moment.Carries token) :=
  inferInstanceAs (Decidable (∀ completion ∈ moment.ended, _))

/-- Once a token is cancelled, what begins is refused, and what ends does not end well. -/
structure Stopped (token : Nat) (moment : Moment S) : Prop where
  refused : ∀ completion ∈ moment.ended, token ∈ completion.before.cancelled →
    completion.outcome = .error .cancelled
  unfinished : ∀ completion ∈ moment.ended, token ∈ moment.world.surroundings.cancelled →
    completion.outcome ≠ .ok ()

theorem stopped_around (world : World S) : ({ world } : Moment S).Stopped token where
  refused _ absurd := nomatch absurd
  unfinished _ absurd := nomatch absurd

theorem stopped_of_completion {world : World S} {completion : Completion}
    (refused : token ∈ completion.before.cancelled → completion.outcome = .error .cancelled)
    (unfinished : token ∈ world.surroundings.cancelled → completion.outcome ≠ .ok ()) :
    ({ world, ended := some completion } : Moment S).Stopped token where
  refused _ same := Option.some.inj same ▸ refused
  unfinished _ same := Option.some.inj same ▸ unfinished

end Moment

/-- A call that carries a cancelled token says so, whatever its deadline. -/
theorem Context.check_of_cancelled {context : Context} {surroundings : Surroundings}
    (carried : context.token = some token) (cancelled : token ∈ surroundings.cancelled) :
    context.check surroundings = .error .cancelled := by
  have stopped : context.isCancelled surroundings = true := by
    simpa only [isCancelled, carried, List.contains_iff_mem] using cancelled
  simp only [check, stopped, if_true]

theorem isChain_joined {β : Type} {related : β → β → Prop} {start : β} {first second : List β}
    (leading : (start :: first).IsChain related)
    (following : (first.getLastD start :: second).IsChain related) :
    (start :: (first ++ second)).IsChain related := by
  induction first generalizing start with
  | nil => exact following
  | cons next rest ih =>
      rw [List.isChain_cons_cons] at leading
      rw [List.getLastD_cons] at following
      exact List.isChain_cons_cons.mpr ⟨leading.1, ih leading.2 following⟩

theorem getLastD_joined {β : Type} (first second : List β) (start : β) :
    (first ++ second).getLastD start = second.getLastD (first.getLastD start) := by
  simp only [List.getLastD_eq_getLast?, List.getLast?_append, Option.getD_or]

namespace Connection

variable {act : (request : I.Call) → S → Except StoreError (I.Answer request) × S}
variable {context : Context}

theorem surroundings_checked (request : I.Call) (world : World S) :
    (checked act context request world).2.surroundings = world.surroundings := by
  cases checks : context.check world.surroundings with
  | error error => rw [checked_error act checks]
  | ok _ => rw [checked_ok act checks]

variable {C : Type} {content : S → C}

theorem frozen_checked (carried : context.token = some token) (request : I.Call)
    (world : World S) : Frozen token content world (checked act context request world).2 := by
  intro cancelled
  rw [checked_error act (Context.check_of_cancelled carried cancelled)]
  exact ⟨cancelled, rfl⟩

theorem stopped_checked (carried : context.token = some token) (request : I.Call)
    (world : World S) :
    Moment.Stopped token
      { world := (checked act context request world).2
        ended := some ⟨context, world.surroundings,
          (checked act context request world).1.map fun _ => ()⟩ } := by
  have refused (cancelled : token ∈ world.surroundings.cancelled) :
      (checked act context request world).1.map (fun _ => ()) = .error .cancelled := by
    rw [checked_error act (Context.check_of_cancelled carried cancelled)]
    rfl
  refine Moment.stopped_of_completion refused fun cancelled succeeded => ?_
  rw [surroundings_checked] at cancelled
  cases (refused cancelled).symm.trans succeeded

section

variable (restore : S → S → S) {β : Type} (body : World S → Outcome β × World S)
variable {world : World S}

theorem atomic_refused {error : StoreError}
    (refused : context.check world.surroundings = .error error) :
    atomic restore context body world = ((.error error, none), world) := by
  simp only [atomic, refused]

theorem atomic_begun (begun : context.check world.surroundings = .ok ()) :
    (atomic restore context body world).1.2 = some (body world).1.2 ∧
      (atomic restore context body world).2.surroundings = (body world).2.surroundings := by
  rcases ran : body world with ⟨⟨_ | _, value⟩, after⟩
  · simp only [atomic, begun, ran, and_self]
  · cases finished : context.check after.surroundings <;>
      simp only [atomic, begun, ran, finished, and_self]

theorem atomic_unfinished (carried : context.token = some token)
    (cancelled : token ∈ (atomic restore context body world).2.surroundings.cancelled) :
    ∃ error, (atomic restore context body world).1.1 = .error error := by
  cases ended : (atomic restore context body world).1.1 with
  | error error => exact ⟨error, rfl⟩
  | ok _ =>
      rw [atomic_of_committed restore context body world ended] at cancelled
      rw [ended_atomic, then_eq_ok, then_eq_ok] at ended
      obtain ⟨_, _, finished⟩ := ended
      rw [Context.check_of_cancelled carried cancelled] at finished
      cases finished

theorem stopped_atomic (carried : context.token = some token) :
    Moment.Stopped token
      { world := (atomic restore context body world).2
        ended := some
          ⟨context, world.surroundings, (atomic restore context body world).1.1⟩ } := by
  refine Moment.stopped_of_completion (fun cancelled => ?_) fun cancelled committed => ?_
  · rw [atomic_refused restore body (Context.check_of_cancelled carried cancelled)]
  · obtain ⟨error, failed⟩ := atomic_unfinished restore body carried cancelled
    cases failed.symm.trans committed

end

end Connection

/-- Once a token is cancelled, the content of the store stays what it is for the rest of a course,
and nothing in it succeeds any more. -/
structure Freezes {C : Type} (token : Nat) (content : S → C) (start : World S)
    (course : List (Moment S)) : Prop where
  frozen : (start :: course.map Moment.world).Pairwise (Frozen token content)
  stopped : ∀ moment ∈ course, moment.Stopped token

namespace Freezes

variable {C : Type} {content : S → C} {start : World S}

theorem nil : Freezes token content start [] where
  frozen := List.pairwise_singleton _ start
  stopped _ absurd := nomatch absurd

theorem append {first second : List (Moment S)} (leading : Freezes token content start first)
    (following : Freezes token content ((first.map Moment.world).getLastD start) second) :
    Freezes token content start (first ++ second) where
  frozen := by
    rw [List.map_append, ← List.isChain_iff_pairwise]
    exact isChain_joined (List.isChain_iff_pairwise.mpr leading.frozen)
      (List.isChain_iff_pairwise.mpr following.frozen)
  stopped moment member := by
    rcases List.mem_append.mp member with first | second
    · exact leading.stopped moment first
    · exact following.stopped moment second

theorem cons {moment : Moment S} {rest : List (Moment S)}
    (step : Frozen token content start moment.world) (stopped : moment.Stopped token)
    (following : Freezes token content moment.world rest) :
    Freezes token content start (moment :: rest) where
  frozen := by
    rw [List.map_cons, ← List.isChain_iff_pairwise, List.isChain_cons_cons]
    exact ⟨step, List.isChain_iff_pairwise.mpr following.frozen⟩
  stopped := List.forall_mem_cons.mpr ⟨stopped, following.stopped⟩

/-- While only the surroundings change, they need only keep the token cancelled. -/
theorem surrounded {surroundings : List Surroundings}
    (lasting : (start.surroundings :: surroundings).IsChain
      fun earlier later => token ∈ earlier.cancelled → token ∈ later.cancelled) :
    Freezes token content start
      (surroundings.map fun passed => { world := { start with surroundings := passed } }) where
  frozen := by
    rw [List.map_map, ← List.isChain_iff_pairwise]
    show (List.map (fun passed => { start with surroundings := passed })
      (start.surroundings :: surroundings)).IsChain _
    exact (List.isChain_map _).mpr (lasting.imp fun _ _ stays cancelled => ⟨stays cancelled, rfl⟩)
  stopped moment member := by
    obtain ⟨_, _, rfl⟩ := List.mem_map.mp member
    exact Moment.stopped_around _

theorem getLastD_surrounded (surroundings : List Surroundings) (start : World S) :
    ((surroundings.map fun passed => ({ world := { start with surroundings := passed } } :
        Moment S)).map Moment.world).getLastD start =
      { start with surroundings := surroundings.getLastD start.surroundings } := by
  rw [List.map_map, List.getLastD_eq_getLast?, List.getLast?_map, List.getLastD_eq_getLast?]
  exact Option.getD_map _ start.surroundings _

end Freezes

namespace Program

variable {connection : Connection I S}
variable {act : (request : I.Call) → S → Except StoreError (I.Answer request) × S}

theorem getLastD_passing (program : Program I α) (world : World S) :
    (program.passing connection world).getLastD world.surroundings =
      (program.runJoined connection world).2.surroundings := by
  induction program generalizing world with
  | done result => rfl
  | call context request next ih =>
      rw [passing, List.getLastD_cons]
      exact ih _ _
  | signal event next ih =>
      rw [passing, List.getLastD_cons]
      exact ih _
  | transaction context isolation body next ofBody ofNext =>
      simp only [passing, runJoined, getLastD_joined, ofBody]
      exact ofNext _ _

theorem isChain_passing (calls : connection.perform = Connection.checked act)
    (program : Program I α) (world : World S) :
    (world.surroundings :: program.passing connection world).IsChain
      fun earlier later => token ∈ earlier.cancelled → token ∈ later.cancelled := by
  induction program generalizing world with
  | done result => exact .singleton _
  | call context request next ih =>
      have untouched : (connection.perform context request world).2.surroundings =
          world.surroundings := by
        rw [calls, Connection.surroundings_checked]
      exact List.isChain_cons_cons.mpr ⟨fun cancelled => untouched ▸ cancelled, ih _ _⟩
  | signal event next ih =>
      exact List.isChain_cons_cons.mpr ⟨Surroundings.cancelled_after event, ih _⟩
  | transaction context isolation body next ofBody ofNext =>
      refine isChain_joined (ofBody world) ?_
      rw [getLastD_passing]
      exact ofNext _ _

theorem getLastD_course (program : Program I α) (world : World S) :
    ((program.course connection world).map Moment.world).getLastD world =
      (program.run connection world).2 := by
  induction program generalizing world with
  | done result => rfl
  | call context request next ih =>
      rw [course, List.map_cons, List.getLastD_cons]
      exact ih _ _
  | signal event next ih =>
      rw [course, List.map_cons, List.getLastD_cons]
      exact ih _
  | transaction context isolation body next _ ih =>
      rw [course, List.map_append, List.map_cons, getLastD_joined, List.getLastD_cons]
      exact ih _ _

section

variable {C : Type} {content : S → C} {restore : S → S → S}
variable (calls : connection.perform = Connection.checked act)
variable (restores : ∀ after before, content (restore after before) = content before)

include calls restores

/-- The body of a transaction may go on after its token is cancelled, but it will be undone. -/
theorem freezes_transaction {β : Type} {context : Context} (carried : context.token = some token)
    (body : Program I (Outcome β)) (world : World S) :
    let (outcome, after) := Connection.atomic restore context (body.runJoined connection) world
    Freezes token content world
      ((if outcome.2.isSome then body.passing connection world else []).map
          (fun surroundings => { world := { world with surroundings } }) ++
        [{ world := after, ended := some ⟨context, world.surroundings, outcome.1⟩ }]) := by
  have stopped := @Connection.stopped_atomic S token context restore _
    (body.runJoined connection) world carried
  cases checks : context.check world.surroundings with
  | error error =>
      rw [Connection.atomic_refused restore _ checks] at stopped ⊢
      exact .cons (.refl world) stopped .nil
  | ok _ =>
      obtain ⟨ran, around⟩ := Connection.atomic_begun restore (body.runJoined connection) checks
      simp only [ran, Option.isSome_some, if_true]
      refine .append (.surrounded (isChain_passing calls body world)) (.cons ?_ stopped .nil)
      rw [Freezes.getLastD_surrounded, getLastD_passing]
      -- Whenever the body saw the token cancelled, it still is when the transaction would commit.
      intro cancelled
      have still : token ∈ (Connection.atomic restore context (body.runJoined connection)
          world).2.surroundings.cancelled := by
        rw [around]
        exact cancelled
      obtain ⟨error, failed⟩ := Connection.atomic_unfinished restore _ carried still
      refine ⟨still, ?_⟩
      rcases Connection.store_of_failed restore context _ world failed with kept | restored
      · rw [kept]
      · rw [restored, restores]

/-- A program that opens no transaction may run on a store whose transactions are not atomic. -/
theorem freezes_course {program : Program I α} {world : World S}
    (carries : ∀ moment ∈ program.course connection world, moment.Carries token)
    (served : program.Direct ∨ ∀ {β : Type} context isolation
      (body : World S → Outcome β × World S), connection.transact context isolation body =
        Connection.atomic restore context body) :
    Freezes token content world (program.course connection world) := by
  induction program generalizing world with
  | done result => exact .nil
  | call context request next ih =>
      obtain ⟨carried, later⟩ := List.forall_mem_cons.mp carries
      have holds : context.token = some token := carried _ rfl
      simp only [course, calls] at later ⊢
      exact .cons (Connection.frozen_checked holds request world)
        (Connection.stopped_checked holds request world) (ih _ later (served.imp_left (· _)))
  | signal event next ih =>
      obtain ⟨-, later⟩ := List.forall_mem_cons.mp carries
      exact .cons (.after world event) (Moment.stopped_around _) (ih later served)
  | transaction context isolation body next _ ih =>
      obtain direct | atomic := served
      · exact direct.elim
      · obtain ⟨-, carries⟩ := List.forall_mem_append.mp carries
        obtain ⟨carried, later⟩ := List.forall_mem_cons.mp carries
        have holds : context.token = some token := carried _ rfl
        simp only [course, atomic] at later ⊢
        rw [List.append_cons]
        refine .append (freezes_transaction calls restores holds body world) ?_
        rw [List.map_append, getLastD_joined]
        exact ih _ later (.inr atomic)

end

end Program

/-- A part of a run: a program, or a declaration, which takes no context. -/
inductive Stage (I : Interface) (D : Type) : Type 1
  | program {α : Type} (program : Program I α)
  | declaration (declared : D)

namespace Stage

variable {D : Type}

def Direct : Stage I D → Prop
  | .program found => found.Direct
  | .declaration _ => True

/-- The moments of a run part by part. -/
def course (connection : Connection I S) (declare : D → S → S) :
    List (Stage I D) → World S → List (Moment S)
  | [], _ => []
  | .program found :: rest, world =>
      found.course connection world ++
        course connection declare rest (found.run connection world).2
  | .declaration declared :: rest, world =>
      let after := { world with store := declare declared world.store }
      { world := after } :: course connection declare rest after

theorem freezes_course {C : Type} {connection : Connection I S} {declare : D → S → S}
    {act : (request : I.Call) → S → Except StoreError (I.Answer request) × S}
    {content : S → C} {restore : S → S → S}
    (calls : connection.perform = Connection.checked act)
    (restores : ∀ after before, content (restore after before) = content before)
    (declares : ∀ declared store, content (declare declared store) = content store)
    {stages : List (Stage I D)} {world : World S}
    (carries : ∀ moment ∈ course connection declare stages world, moment.Carries token)
    (served : (∀ stage ∈ stages, stage.Direct) ∨ ∀ {β : Type} context isolation
      (body : World S → Outcome β × World S), connection.transact context isolation body =
        Connection.atomic restore context body) :
    Freezes token content world (course connection declare stages world) := by
  induction stages generalizing world with
  | nil => exact .nil
  | cons stage rest ih =>
      have servedLater := served.imp_left fun direct => (List.forall_mem_cons.mp direct).2
      cases stage with
      | program found =>
          obtain ⟨carried, later⟩ := List.forall_mem_append.mp carries
          have servedNow := served.imp_left fun direct => direct (.program found) List.mem_cons_self
          refine .append (Program.freezes_course calls restores carried servedNow) ?_
          rw [Program.getLastD_course]
          exact ih later servedLater
      | declaration declared =>
          refine .cons (fun cancelled => ⟨cancelled, declares declared world.store⟩)
            (Moment.stopped_around _) (ih (List.forall_mem_cons.mp carries).2 servedLater)

end Stage

namespace Document

def Store.documents (store : Store) (name : String) : List Record :=
  (store.collection name).documents

def declare (declared : String × List String) (store : Store) : Store :=
  (store.createIndex declared.1 declared.2).2

theorem documents_declare (declared : String × List String) (store : Store) :
    (declare declared store).documents = store.documents := by
  funext name
  rw [declare, Store.createIndex]
  cases created : (store.collection declared.1).createIndex declared.1 declared.2 with
  | error error => rfl
  | ok collection =>
      by_cases same : declared.1 = name
      · subst name
        rw [Store.documents, Store.collection_put, Store.documents]
        simp only [Collection.createIndex] at created
        split at created
        · cases created
        · cases created
          rfl
      · simp only [Store.documents, Store.collection, Store.put,
          Dict.get?_insert_of_ne _ _ same]

end Document

namespace KeyValue

/-- Creates a table, unless it is there. -/
def declare (declared : String × TableSpec) (store : Store) : Store :=
  store.createTable declared.1 declared.2

theorem items_declare (declared : String × TableSpec) (store : Store) :
    (declare declared store).items = store.items := by
  funext name
  rw [declare]
  cases found : Dict.get? store.tables declared.1 with
  | some table => rw [Store.createTable_of_present found]
  | none =>
      rw [Store.createTable, Dict.insertNew_of_get?_eq_none found, Store.items, Store.items]
      by_cases same : declared.1 = name
      · subst name
        rw [Dict.get?_insert_self, found]
        rfl
      · rw [Dict.get?_insert_of_ne _ _ same]

end KeyValue

/-- In a run on the document store or the key/value store whose calls and transactions carry one
token, cancelling it is final, wherever it happens: the documents and items of the store stay what
they are, what begins is refused because of the token, and a transaction in progress does not
commit. The key/value store has no transactions. -/
theorem cancelled_runs_freeze (token : Nat) :
    (∀ (stages : List (Stage Document.interface (String × List String))) world,
      let course := Stage.course Document.connection Document.declare stages world
      (∀ moment ∈ course, moment.Carries token) →
        Freezes token Document.Store.documents world course) ∧
    ∀ (stages : List (Stage KeyValue.interface (String × KeyValue.TableSpec))) world,
      let course := Stage.course KeyValue.connection KeyValue.declare stages world
      (∀ stage ∈ stages, stage.Direct) → (∀ moment ∈ course, moment.Carries token) →
        Freezes token KeyValue.Store.items world course := by
  refine ⟨?_, ?_⟩
  · intro stages world course carries
    have calls : Document.connection.perform = Connection.checked Document.Store.act := rfl
    have restores (after before) :
        (Document.Store.rollback after before).documents = before.documents := rfl
    exact Stage.freezes_course calls restores Document.documents_declare carries
      (.inr fun _ _ _ => rfl)
  · intro stages world course direct carries
    have restores (_ before : KeyValue.Store) : before.items = before.items := rfl
    exact Stage.freezes_course KeyValue.perform_eq_checked restores KeyValue.items_declare carries
      (.inl direct)

namespace Document

def tokened : Context := { deadline := some 10, token := some 7 }

/-- The inner transaction fails, which the outer one ignores: it ends well by itself. -/
def interrupted : Program interface (Outcome (Option Unit)) :=
  .transaction tokened .snapshot
    ((insertOne tokened "people" [("_id", .string "2")]).bind fun _ =>
      .transaction tokened .snapshot
        (.signal (.cancel 7)
          ((insertOne tokened "people" [("_id", .string "3")]).bind fun _ =>
            .done (.error .cancelled, ())))
        fun _ => .done (.ok (), ()))
    .done

def interruption : List (Stage interface (String × List String)) :=
  [.program (insertOne tokened "people" [("_id", .string "1")]), .program interrupted,
    .declaration ("people", ["email"]),
    .program (.signal (.elapse 20) (findOne tokened "people" []))]

def interruptionCourse : List (Moment Store) :=
  Stage.course connection declare interruption { store := { ids := { name := toString } } }

end Document

namespace KeyValue

def interruption : List (Stage interface (String × TableSpec)) :=
  [.declaration ("people", { partitionKey := "id" }),
    .program ((putItem Document.tokened "people" [("id", .string "1")] none).bind fun _ =>
      .signal (.cancel 7) (deleteItem Document.tokened "people" [("id", .string "1")] none))]

def interruptionCourse : List (Moment Store) :=
  Stage.course connection declare interruption { store := {} }

end KeyValue

theorem interruptions_freeze :
    (Freezes 7 Document.Store.documents { store := { ids := { name := toString } } }
        Document.interruptionCourse ∧
      Document.interruptionCourse.filterMap (fun moment =>
          moment.ended.map fun completion => (completion.outcome, moment.world.store.count "people")) =
        [(.ok (), 1), (.error .cancelled, 1), (.error .cancelled, 1)]) ∧
    Freezes 7 KeyValue.Store.items { store := {} } KeyValue.interruptionCourse ∧
      KeyValue.interruptionCourse.filterMap (fun moment =>
          moment.ended.map fun completion =>
            (completion.outcome, moment.world.store.length "people")) =
        [(.ok (), 1), (.error .cancelled, 1)] := by
  obtain ⟨documents, items⟩ := cancelled_runs_freeze 7
  have direct : ∀ stage ∈ KeyValue.interruption, stage.Direct :=
    List.forall_mem_cons.mpr ⟨trivial, List.forall_mem_singleton.mpr fun _ _ => trivial⟩
  exact ⟨⟨documents Document.interruption _ (by decide), by decide⟩,
    items KeyValue.interruption _ direct (by decide), by decide⟩

end DataAccess
