import DataAccess.Dao.Document
import DataAccess.Dao.Relational
import DataAccess.Proofs.Operation
import DataAccess.Sql.Database

/-!
# Writes and commits

A connection keeps its word about transactions when it runs a body at most once, reports success
only where it has committed what the body left, and otherwise leaves its lasting content alone. On
such a connection a write that takes place in a transaction succeeds exactly when the transaction
committed, with what its body computed. An error of the body comes before one of the connection.
-/

namespace DataAccess

/-- What becomes of a transaction: it does not begin, or its body runs in some world, and nothing or
all that it left is committed. -/
inductive Course (S : Type)
  | refused (error : StoreError)
  | undone (inside : World S) (error : StoreError)
  | committed (inside : World S)

variable {I : Interface} {S C α β : Type}

namespace Course

/-- The world in which the body ran. -/
def inside? : Course S → Option (World S)
  | .refused _ => none
  | .undone inside _ => some inside
  | .committed inside => some inside

/-- Why nothing was committed. -/
def failure? : Course S → Option StoreError
  | .refused error => some error
  | .undone _ error => some error
  | .committed _ => none

/-- A transaction ends as its course says. What lasts is told apart from what is seen inside of a
transaction, which a commit makes the lasting content. -/
def Fits (lasting pending : S → C) (body : World S → Outcome β × World S) (before : World S)
    (ended : Outcome (Option β) × World S) : Course S → Prop
  | .refused error =>
      ended.1 = (.error error, none) ∧ lasting ended.2.store = lasting before.store
  | .undone inside error =>
      ended.1 = (.error error, some (body inside).1.2) ∧
        lasting ended.2.store = lasting before.store
  | .committed inside =>
      (body inside).1.1 = .ok () ∧ ended.1 = (.ok (), some (body inside).1.2) ∧
        lasting ended.2.store = pending (body inside).2.store

end Course

namespace Connection

variable {connection : Connection I S}

/-- Each transaction ends as one of the courses says. -/
def KeepsWord (connection : Connection I S) (lasting pending : S → C) : Prop :=
  ∀ {β : Type} context isolation (body : World S → Outcome β × World S) world,
    ∃ course : Course S, course.Fits lasting pending body world
      (connection.transact context isolation body world)

theorem keepsWord_of_atomic {content : S → C} (restore : S → S → S)
    (atomic : ∀ {β : Type} context isolation (body : World S → Outcome β × World S),
      connection.transact context isolation body = Connection.atomic restore context body)
    (restores : ∀ after before, content (restore after before) = content before) :
    connection.KeepsWord content content := by
  intro β context isolation body world
  rw [atomic]
  cases begun : context.check world.surroundings with
  | error error =>
      refine ⟨.refused error, ?_⟩
      simp only [Connection.atomic, begun, Course.Fits, and_self]
  | ok _ =>
      rcases ran : body world with ⟨⟨ended, value⟩, after⟩
      cases ended with
      | error error =>
          refine ⟨.undone world error, ?_⟩
          simp only [Connection.atomic, begun, Course.Fits, ran]
          exact ⟨trivial, restores _ _⟩
      | ok _ =>
          cases finished : context.check after.surroundings with
          | error error =>
              refine ⟨.undone world error, ?_⟩
              simp only [Connection.atomic, begun, Course.Fits, ran, finished]
              exact ⟨trivial, restores _ _⟩
          | ok _ =>
              refine ⟨.committed world, ?_⟩
              simp only [Connection.atomic, begun, Course.Fits, ran, finished, and_self]

end Connection

theorem Document.connection_keepsWord :
    Document.connection.KeepsWord Document.Store.collections Document.Store.collections :=
  Connection.keepsWord_of_atomic Document.Store.rollback (fun _ _ _ => rfl) fun _ _ => rfl

theorem Sql.inMemory_keepsWord :
    Sql.inMemory.KeepsWord Sql.Database.tables Sql.Database.tables :=
  Connection.keepsWord_of_atomic
    (fun after before => { before with changed := after.changed }) (fun _ _ _ => rfl) fun _ _ => rfl

namespace Operation

variable {connection : Connection I S} {lasting pending : S → C} {world : World S}
variable {context : Context} {isolation : Isolation}

/-- A write tells what became of the transaction around its body. -/
structure Tells (connection : Connection I S) (lasting pending : S → C) (body : Operation I α)
    (before : World S) (course : Course S) (ended : Except DaoError α × World S) : Prop where
  succeeds : ∀ value, ended.1 = .ok value ↔
    ∃ inside, course = .committed inside ∧ (body.on connection.joined inside).1 = .ok value
  /-- The body of a committed transaction has computed the result, and what it left lasts. -/
  lasts : ∀ inside, course = .committed inside →
    (∃ value, (body.on connection.joined inside).1 = .ok value ∧ ended.1 = .ok value) ∧
      lasting ended.2.store = pending (body.on connection.joined inside).2.store
  /-- The error of a body is handed on as it is. -/
  failed : ∀ inside error, course.inside? = some inside →
    (body.on connection.joined inside).1 = .error error →
      ended.1 = .error error ∧ lasting ended.2.store = lasting before.store
  /-- The error of the connection counts where the body has none, whether or not it ran. -/
  unfinished : ∀ error, course.failure? = some error →
    (∀ inside, course.inside? = some inside →
      ∃ value, (body.on connection.joined inside).1 = .ok value) →
        ended.1 = .error (.ofStore error) ∧ lasting ended.2.store = lasting before.store

theorem tells_inTransaction (body : Operation I α) {course : Course S}
    (fits : course.Fits lasting pending (bodyOn connection body) world
      (connection.transact context isolation (bodyOn connection body) world)) :
    Tells connection lasting pending body world course
      ((inTransaction context isolation body).on connection world) := by
  rw [on_inTransaction]
  generalize connection.transact context isolation (bodyOn connection body) world = ended at fits ⊢
  obtain ⟨outcome, after⟩ := ended
  cases course with
  | refused error =>
      obtain ⟨rfl, kept⟩ := fits
      refine { succeeds := fun value => ?_, lasts := fun _ other => ?_,
               failed := fun _ _ ran => ?_, unfinished := fun _ known _ => ?_ }
      · simp [settle]
      · cases other
      · cases ran
      · cases Option.some.inj known
        exact ⟨rfl, kept⟩
  | undone inside error =>
      obtain ⟨rfl, kept⟩ := fits
      cases result : (body.on connection.joined inside).1 with
      | error reason =>
          have recorded : (bodyOn connection body inside).1.2 = .error reason := result
          refine { succeeds := fun value => ?_, lasts := fun _ other => ?_,
                   failed := fun _ _ ran failed => ?_, unfinished := fun _ _ worked => ?_ }
          · simp [settle, recorded]
          · cases other
          · cases Option.some.inj ran
            cases result.symm.trans failed
            exact ⟨by simp only [settle, recorded], kept⟩
          · obtain ⟨value, other⟩ := worked inside rfl
            cases result.symm.trans other
      | ok value =>
          have recorded : (bodyOn connection body inside).1.2 = .ok value := result
          refine { succeeds := fun value => ?_, lasts := fun _ other => ?_,
                   failed := fun _ _ ran failed => ?_, unfinished := fun _ known _ => ?_ }
          · simp [settle, recorded]
          · cases other
          · cases Option.some.inj ran
            cases result.symm.trans failed
          · cases Option.some.inj known
            exact ⟨by simp only [settle, recorded], kept⟩
  | committed inside =>
      obtain ⟨ended, rfl, left⟩ := fits
      cases result : (body.on connection.joined inside).1 with
      | error reason =>
          have ending : (bodyOn connection body inside).1.1 = ending (.error reason) :=
            congrArg ending result
          cases ending.symm.trans ended
      | ok value =>
          have recorded : (bodyOn connection body inside).1.2 = .ok value := result
          refine { succeeds := fun value => ?_, lasts := fun _ same => ?_,
                   failed := fun _ _ ran failed => ?_, unfinished := fun _ known _ => ?_ }
          · simp [settle, recorded, result]
          · cases same
            exact ⟨⟨value, result, by simp only [settle, recorded]⟩, left⟩
          · cases Option.some.inj ran
            cases result.symm.trans failed
          · cases known

/-- A write that cannot be prepared begins no transaction, and any other tells what became of the one
around its body. -/
structure TellsCommits (connection : Connection I S) (lasting pending : S → C)
    (context : Context) (isolation : Isolation) (prepared : Except DaoError β)
    (body : β → Operation I α) (write : Operation I α) : Prop where
  unprepared : ∀ error, prepared = .error error →
    ∀ world, write.on connection world = (.error error, world)
  transacted : ∀ parts, prepared = .ok parts → ∀ world, ∃ course : Course S,
    course.Fits lasting pending (bodyOn connection (body parts)) world
      (connection.transact context isolation (bodyOn connection (body parts)) world) ∧
    Tells connection lasting pending (body parts) world course (write.on connection world)

theorem tellsCommits_inTransaction (keeps : connection.KeepsWord lasting pending)
    (context : Context) (isolation : Isolation) (prepared : Except DaoError β)
    (body : β → Operation I α) :
    TellsCommits connection lasting pending context isolation prepared body
      (ofExcept prepared >>= fun parts => inTransaction context isolation (body parts)) where
  unprepared := by
    rintro error rfl world
    rw [on_bind, on_ofExcept]
  transacted := by
    rintro parts rfl world
    obtain ⟨course, fits⟩ := keeps context isolation (bodyOn connection (body parts)) world
    refine ⟨course, fits, ?_⟩
    rw [on_bind, on_ofExcept]
    exact tells_inTransaction (body parts) fits

end Operation

open Operation

/-- On connections that keep their word, the writes that take place in a transaction succeed exactly
when it committed, with what their bodies computed, and else hand on the error of the body or that
of the connection. -/
theorem writes_tell_commits :
    (∀ (dao : RelationalDao) {S C : Type} (connection : Connection Sql.interface S)
      (lasting pending : S → C), connection.KeepsWord lasting pending →
      ∀ context storage object,
        TellsCommits connection lasting pending context dao.config.isolation
          (dao.prepare storage object)
          (fun (filter, row) => dao.replace context storage filter row)
          (dao.update context storage object) ∧
        TellsCommits connection lasting pending context dao.config.isolation
          (dao.prepare storage object)
          (fun (filter, row) => dao.replaceOrInsert context storage filter row)
          (dao.save context storage object) ∧
        (dao.config.transactionalCreate = true →
          TellsCommits connection lasting pending context dao.config.isolation
            (dao.prepare storage object)
            (fun (filter, row) => dao.insertNew context storage filter row)
            (dao.create context storage object))) ∧
    ∀ (dao : DocumentDao) {S C : Type} (connection : Connection Document.interface S)
      (lasting pending : S → C), connection.KeepsWord lasting pending →
      ∀ context storage object, dao.config.transactionalCreate = true →
        TellsCommits connection lasting pending context dao.config.isolation
          (dao.prepare storage object)
          (fun (filter, document) => DocumentDao.insertNew context storage filter document)
          (dao.create context storage object) := by
  refine ⟨?_, ?_⟩
  · intro dao S C connection lasting pending keeps context storage object
    refine ⟨tellsCommits_inTransaction keeps _ _ _ _, tellsCommits_inTransaction keeps _ _ _ _, ?_⟩
    intro transactional
    simp only [RelationalDao.create, transactional, ↓reduceIte]
    exact tellsCommits_inTransaction keeps _ _ _ _
  · intro dao S C connection lasting pending keeps context storage object transactional
    simp only [DocumentDao.create, transactional, ↓reduceIte]
    exact tellsCommits_inTransaction keeps _ _ _ _

def guest : BusinessObject := { root := .map [("id", .string "1")] }

def guestBook : DocumentDao := { key := PrimaryKey.filter { fields := ["id"] } }

def guestTable : RelationalDao where
  flavor := .sqlite
  key := PrimaryKey.filter { fields := ["id"] }

def signing : Operation Document.interface Nat := guestBook.create .background "guests" guest

def entering : Operation Document.interface Nat :=
  DocumentDao.insertNew .background "guests" [("id", .map [("$eq", .string "1")])]
    [("id", .string "1")]

def signed : Except DaoError Nat × World Document.Store :=
  signing.on Document.connection { store := { ids := { name := toString } } }

def signedLate : Except DaoError Nat × World Sql.Database :=
  (guestTable.save (.withDeadline 0) "guests" guest).on Sql.inMemory { store := {} }

/-- The first entry is committed, the second is not, and no transaction begins after its deadline. -/
theorem guest_signs_once :
    guestBook.config.transactionalCreate = true ∧
      (∃ inside, (entering.on Document.connection.joined inside).1 = .ok 1 ∧
        signed.1 = .ok 1 ∧
        signed.2.store.collections =
          (entering.on Document.connection.joined inside).2.store.collections) ∧
      (signing.on Document.connection signed.2).1 = .error .duplicateEntry ∧
      signedLate.1 = .error (.ofStore .timeout) ∧ signedLate.2.store.tables = [] := by
  obtain ⟨relational, documents⟩ := writes_tell_commits
  have creates := documents guestBook Document.connection _ _ Document.connection_keepsWord
    .background "guests" guest rfl
  have saves := (relational guestTable Sql.inMemory _ _ Sql.inMemory_keepsWord
    (.withDeadline 0) "guests" guest).2.1
  refine ⟨rfl, ?_, rfl, ?_⟩
  · obtain ⟨course, -, tells⟩ := creates.transacted _ rfl { store := { ids := { name := toString } } }
    have success : signed.1 = .ok 1 := rfl
    obtain ⟨inside, committed, computed⟩ := (tells.succeeds 1).mp success
    exact ⟨inside, computed, success, (tells.lasts inside committed).2⟩
  · obtain ⟨course, fits, tells⟩ := saves.transacted _ rfl { store := {} }
    cases course with
    | refused error =>
        have late : Except.error StoreError.timeout = Except.error error :=
          congrArg Prod.fst fits.1
        cases late
        exact tells.unfinished .timeout rfl fun _ ran => nomatch ran
    | undone inside error => cases congrArg Prod.snd fits.1
    | committed inside => cases congrArg Prod.snd fits.2.1

end DataAccess
