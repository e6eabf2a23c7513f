import DataAccess.Dao.Document
import DataAccess.Dao.KeyValue
import DataAccess.Dao.Relational
import DataAccess.Proofs.Reports
import DataAccess.Sql.Scripted

/-!
# Duplicates

Whatever a store answers, a violation of uniqueness reaches the caller as a duplicate entry and in
no other way, and any other first error reaches it unchanged. Only where the conditional write of an
item finds its condition not to hold has this a meaning of its own.
-/

namespace DataAccess

theorem Collapsed.compiled {α : Type} (result : Except Filter.Fault α) :
    Collapsed (Operation.compiled result) := by
  cases result with
  | error fault => exact .error nofun
  | ok value => exact .ok value

namespace RowMapper

variable (mapper : RowMapper) (storage : String)

theorem collapsed_relationalRow (columns : Columns) (renamed : Record) :
    Collapsed (relationalRow storage columns renamed) := by
  unfold relationalRow
  split
  · exact .ok _
  · split
    · exact .ok _
    · exact .error nofun

theorem collapsed_toRow (object : BusinessObject) : Collapsed (mapper.toRow storage object) := by
  refine .bind ?_ fun renamed _ => ?_
  · unfold Mapping.toColumns
    split
    · exact .ok _
    · exact .ok _
    · exact .error nofun
  · cases mapper.kind with
    | relational => exact collapsed_relationalRow storage _ renamed
    | _ => exact .ok _

theorem collapsed_decodeColumn (mapping : Mapping) (column : String) (value : Value) :
    Collapsed (decodeColumn mapping storage column value) := by
  unfold decodeColumn
  split
  · split
    · split
      · exact .ok _
      · exact .error nofun
    · exact .ok _
  · exact .ok _

theorem collapsed_relationalFields (mapping : Mapping) (row : Record) :
    Collapsed (relationalFields mapping storage row) := by
  fun_induction relationalFields mapping storage row with
  | case1 => exact .ok _
  | case2 _ rest ih => exact ih
  | case3 column value rest _ ih =>
      exact .bind (collapsed_decodeColumn storage mapping column value) fun _ _ =>
        .bind ih fun _ _ => .ok _

theorem collapsed_toObject (row : Record) : Collapsed (mapper.toObject storage row) := by
  unfold toObject
  split
  · exact .ok _
  · exact .ok _
  · exact .ok _
  · exact .bind (collapsed_relationalFields storage mapper.mapping row) fun _ _ => .ok _

theorem collapsed_toObject? (row : Option Record) : Collapsed (mapper.toObject? storage row) := by
  cases row with
  | none => exact .ok _
  | some row =>
      rw [toObject?, map_eq_pure_bind]
      exact .bind (mapper.collapsed_toObject storage row) fun _ _ => .ok _

theorem collapsed_decodeAll (rows : Cursor Record) : Collapsed (mapper.decodeAll storage rows) := by
  induction rows with
  | nil => exact .ok _
  | cons row rest ih =>
      cases row with
      | error error => exact .ofStore (.error error)
      | ok row =>
          exact .bind (mapper.collapsed_toObject storage row) fun _ _ => .bind ih fun _ _ => .ok _

end RowMapper

theorem Collapsed.filter {key : KeyFilter} {storage : String} {object : BusinessObject}
    (collapsed : Collapsed (key storage object)) : Collapsed (key.filter storage object) := by
  refine .bind collapsed fun filter _ => ?_
  cases filter.validate with
  | error fault => exact .error nofun
  | ok _ => exact .ok _

theorem PrimaryKey.collapsed_filter (key : PrimaryKey) (storage : String)
    (object : BusinessObject) : Collapsed (key.filter storage object) := by
  refine .bind (.mapM fun field => ?_) fun clauses _ => ?_
  · unfold clause
    split
    · exact .ok _
    · exact .error nofun
    · exact .error nofun
  · split
    · exact .error nofun
    · exact .ok _
    · exact .ok _

theorem KeyValueDao.collapsed_keyOf (storage : String) (spec : KeyValue.TableSpec) (item : Record) :
    Collapsed (KeyValueDao.keyOf storage spec item) := by
  unfold keyOf
  split
  · exact .ok _
  · exact .error nofun

namespace Cursor

variable {α : Type} {cursor : Cursor α} {error : StoreError}

theorem first_of_fault (found : cursor.fault (fun _ => false) = some error) :
    cursor.first = .error error := by
  cases cursor with
  | nil => cases found
  | cons row rest =>
      cases row with
      | error reason => exact congrArg _ (Option.some.inj found)
      | ok item => cases found

theorem collect_of_fault (found : cursor.fault (fun _ => true) = some error) :
    cursor.collect = .error error := by
  induction cursor with
  | nil => cases found
  | cons row rest ih =>
      cases row with
      | error reason => exact congrArg _ (Option.some.inj found)
      | ok item =>
          rw [collect, ih found]
          rfl

end Cursor

/-- Whether a row can be decoded. -/
def RowMapper.decodes (mapper : RowMapper) (storage : String) (row : Record) : Bool :=
  (mapper.toObject storage row).isOk

theorem RowMapper.decodeAll_of_fault {mapper : RowMapper} {storage : String} {rows : Cursor Record}
    {error : StoreError} (found : rows.fault (mapper.decodes storage) = some error) :
    mapper.decodeAll storage rows = .error (.ofStore error) := by
  induction rows with
  | nil => cases found
  | cons row rest ih =>
      cases row with
      | error reason =>
          cases Option.some.inj found
          rfl
      | ok row =>
          rw [Cursor.fault] at found
          split at found
          · rename_i decodes
            cases decoded : mapper.toObject storage row with
            | error reason =>
                rw [RowMapper.decodes, decoded] at decodes
                cases decodes
            | ok object =>
                rw [decodeAll, decoded, ih found]
                rfl
          · cases found

open Operation

/-- No operation of a store shows a violation of uniqueness as the store's own error, and the first
error of the connection decides the result. The results of failed conditions are those of `create`,
`update` and `delete`. A fetch of many records reads rows as long as `goesOn` says, any other
operation reads one row. -/
structure Dao.Conveys {I : Interface} (dao : Dao I)
    (reached : (Record → Bool) → (request : I.Call) → I.Answer request → Option StoreError)
    (conditional : I.Call → Bool) (goesOn : String → Record → Bool) : Prop where
  keyFilter : ∀ storage object, Collapsed (dao.keyFilter storage object)
  create : ∀ context storage object, (dao.create context storage object).Conveys
    (reached fun _ => false) conditional (some (.error .duplicateEntry))
  update : ∀ context storage object, (dao.update context storage object).Conveys
    (reached fun _ => false) conditional (some (.ok 0))
  save : ∀ context storage object, (dao.save context storage object).Conveys
    (reached fun _ => false) conditional none
  delete : ∀ context storage object, (dao.delete context storage object).Conveys
    (reached fun _ => false) conditional (some (.ok 0))
  fetchOne : ∀ context storage filter, (dao.fetchOne context storage filter).Conveys
    (reached fun _ => false) conditional none
  fetchMany : ∀ context storage filter sorting offset limit,
    (dao.fetchMany context storage filter sorting offset limit).Conveys
      (reached (goesOn storage)) conditional none

/-- The error that a query reports as its rows are read. -/
def Sql.reached (goesOn : Record → Bool) :
    (request : Sql.interface.Call) → Sql.interface.Answer request → Option StoreError
  | .query _ _, rows => Cursor.fault goesOn rows
  | .execute _ _, _ => none

namespace RelationalDao

variable (dao : RelationalDao) (context : Context) (storage : String)

theorem execute_conveys (goesOn : Record → Bool) (statement : Sql.Statement)
    {unmet : Option (Except DaoError Nat)} :
    (dao.execute context statement).Conveys (Sql.reached goesOn) (fun _ => false) unmet :=
  conveys_call (I := Sql.interface) (.execute _ _) rfl fun _ => rfl

theorem firstRow_conveys (projection : Sql.Statement) (filter : Option Filter) :
    (dao.firstRow context storage projection filter).Conveys
      (Sql.reached fun _ => false) (fun _ => false) none := by
  refine conveys_bind (conveys_ofExcept (.compiled _)) fun condition => ?_
  refine conveys_call_bind (I := Sql.interface) (.query _ _) (fun rows error found => ?_) rfl
    fun rows _ => ?_
  · rw [Cursor.first_of_fault found]
    rfl
  · exact conveys_ofExcept (.ofStore _)

theorem replacement_conveys (filter : Filter) (row : Record) :
    (dao.replacement context storage filter row).Conveys
      (Sql.reached fun _ => false) (fun _ => false) none := by
  unfold replacement
  split
  · exact conveys_pure _
  · exact conveys_bind (dao.firstRow_conveys context storage _ _) fun _ => conveys_pure _

theorem replace_conveys (filter : Filter) (row : Record) :
    (dao.replace context storage filter row).Conveys
      (Sql.reached fun _ => false) (fun _ => false) none := by
  refine conveys_bind (dao.replacement_conveys context storage filter row) fun replacement => ?_
  cases replacement with
  | none => exact conveys_pure _
  | some padded =>
      dsimp only
      split
      · exact conveys_pure _
      · exact conveys_bind (conveys_ofExcept (.compiled _)) fun _ =>
          dao.execute_conveys context _ _

theorem insertNew_conveys (filter : Filter) (row : Record)
    {unmet : Option (Except DaoError Nat)} :
    (dao.insertNew context storage filter row).Conveys
      (Sql.reached fun _ => false) (fun _ => false) unmet := by
  refine conveys_bind (dao.firstRow_conveys context storage _ _) fun found => ?_
  split
  · exact conveys_throw nofun
  · exact dao.execute_conveys context _ _

theorem replaceOrInsert_conveys (filter : Filter) (row : Record) :
    (dao.replaceOrInsert context storage filter row).Conveys
      (Sql.reached fun _ => false) (fun _ => false) none := by
  refine conveys_bind (dao.replace_conveys context storage filter row) fun replaced => ?_
  split
  · exact dao.execute_conveys context _ _
  · exact conveys_pure _

theorem operations_conveys (collapsed : ∀ storage object, Collapsed (dao.key storage object)) :
    dao.operations.Conveys Sql.reached (fun _ => false) dao.mapper.decodes := by
  have keyFilter (storage : String) (object : BusinessObject) :
      Collapsed (dao.key.filter storage object) := .filter (collapsed storage object)
  have prepare (storage : String) (object : BusinessObject) :
      Collapsed (dao.prepare storage object) :=
    .bind (keyFilter storage object) fun _ _ =>
      .bind (dao.mapper.collapsed_toRow storage object) fun _ _ => .ok _
  constructor
  case keyFilter => exact keyFilter
  case create =>
    intro context storage object
    refine conveys_bind (conveys_ofExcept (prepare storage object)) fun (filter, row) => ?_
    dsimp only
    split
    · exact conveys_inTransaction (dao.insertNew_conveys context storage filter row)
    · exact dao.insertNew_conveys context storage filter row
  case update =>
    intro context storage object
    exact conveys_bind (conveys_ofExcept (prepare storage object)) fun (filter, row) =>
      conveys_inTransaction (dao.replace_conveys context storage filter row)
  case save =>
    intro context storage object
    exact conveys_bind (conveys_ofExcept (prepare storage object)) fun (filter, row) =>
      conveys_inTransaction (dao.replaceOrInsert_conveys context storage filter row)
  case delete =>
    intro context storage object
    exact conveys_bind (conveys_ofExcept (keyFilter storage object)) fun _ =>
      conveys_bind (conveys_ofExcept (.compiled _)) fun _ => dao.execute_conveys context _ _
  case fetchOne =>
    intro context storage filter
    exact conveys_bind (dao.firstRow_conveys context storage _ filter) fun row =>
      conveys_ofExcept (dao.mapper.collapsed_toObject? storage row)
  case fetchMany =>
    intro context storage filter sorting offset limit
    refine conveys_bind (conveys_ofExcept (.compiled _)) fun condition => ?_
    refine conveys_call_bind (I := Sql.interface) (.query _ _) (fun rows error found => ?_) rfl
      fun rows _ => ?_
    · rw [RowMapper.decodeAll_of_fault found]
    · exact conveys_ofExcept (dao.mapper.collapsed_decodeAll storage rows)

end RelationalDao

/-- The error that a search reports as its documents are read. -/
def Document.reached (goesOn : Record → Bool) :
    (request : Document.interface.Call) → Document.interface.Answer request → Option StoreError
  | .find _ _ _, found => Cursor.fault goesOn found
  | .findOne _ _, _ | .insertOne _ _, _ | .replaceOne _ _ _ _, _ | .deleteOne _ _, _
  | .deleteMany _ _, _ => none

namespace DocumentDao

variable (dao : DocumentDao) (context : Context) (storage : String)

theorem findOne_conveys (filter : Record) :
    (ofCall (Document.findOne context storage filter)).Conveys
      (Document.reached fun _ => false) (fun _ => false) none :=
  conveys_call (I := Document.interface) (.findOne _ _) rfl fun _ => rfl

theorem insertNew_conveys (filter document : Record) {unmet : Option (Except DaoError Nat)} :
    (insertNew context storage filter document).Conveys
      (Document.reached fun _ => false) (fun _ => false) unmet := by
  refine conveys_bind (findOne_conveys context storage filter) fun found => ?_
  split
  · exact conveys_throw nofun
  · exact conveys_bind (conveys_call (I := Document.interface) (.insertOne _ _) rfl fun _ => rfl)
      fun _ => conveys_pure 1

theorem operations_conveys (collapsed : ∀ storage object, Collapsed (dao.key storage object)) :
    dao.operations.Conveys Document.reached (fun _ => false) dao.mapper.decodes := by
  have keyFilter (storage : String) (object : BusinessObject) :
      Collapsed (dao.key.filter storage object) := .filter (collapsed storage object)
  have keyQuery (storage : String) (object : BusinessObject) :
      Collapsed (dao.keyQuery storage object) :=
    .bind (keyFilter storage object) fun _ _ => .compiled _
  have prepare (storage : String) (object : BusinessObject) :
      Collapsed (dao.prepare storage object) :=
    .bind (keyQuery storage object) fun _ _ =>
      .bind (dao.mapper.collapsed_toRow storage object) fun _ _ => .ok _
  have replace (context : Context) (storage : String) (upsert : Bool) (object : BusinessObject) :
      (dao.replace context storage upsert object).Conveys
        (Document.reached fun _ => false) (fun _ => false) none :=
    conveys_bind (conveys_ofExcept (prepare storage object)) fun (_, _) =>
      conveys_call (I := Document.interface) (.replaceOne _ _ _ _) rfl fun _ => rfl
  constructor
  case keyFilter => exact keyFilter
  case create =>
    intro context storage object
    refine conveys_bind (conveys_ofExcept (prepare storage object)) fun (filter, document) => ?_
    dsimp only
    split
    · exact conveys_inTransaction (insertNew_conveys context storage filter document)
    · exact insertNew_conveys context storage filter document
  case update =>
    intro context storage object
    exact conveys_bind (replace context storage false object) fun _ => conveys_pure _
  case save =>
    intro context storage object
    exact conveys_bind (replace context storage true object) fun _ => conveys_pure _
  case delete =>
    intro context storage object
    exact conveys_bind (conveys_ofExcept (keyQuery storage object)) fun _ =>
      conveys_call (I := Document.interface) (.deleteOne _ _) rfl fun _ => rfl
  case fetchOne =>
    intro context storage filter
    exact conveys_bind (conveys_ofExcept (.compiled _)) fun query =>
      conveys_bind (findOne_conveys context storage query) fun found =>
        conveys_ofExcept (dao.mapper.collapsed_toObject? storage found)
  case fetchMany =>
    intro context storage filter sorting offset limit
    refine conveys_bind (conveys_ofExcept (.compiled _)) fun query => ?_
    refine conveys_call_bind (I := Document.interface) (.find _ _ _)
      (fun found error faulty => ?_) rfl fun found _ => ?_
    · rw [RowMapper.decodeAll_of_fault faulty]
    · exact conveys_ofExcept (dao.mapper.collapsed_decodeAll storage found)

end DocumentDao

namespace KeyValue

/-- The error that a scan reports as its items are read. -/
def reached (goesOn : Record → Bool) :
    (request : interface.Call) → interface.Answer request → Option StoreError
  | .scan _ _, found => Cursor.fault goesOn found
  | .describeTable _, _ | .getItem _ _, _ | .putItem _ _ _, _ | .deleteItem _ _ _, _ => none

/-- Whether a call is a write under a condition. -/
def Call.isConditional : Call → Bool
  | .putItem _ _ condition | .deleteItem _ _ condition => condition.isSome
  | .describeTable _ | .getItem _ _ | .scan _ _ => false

end KeyValue

namespace KeyValueDao

open KeyValue (Call)

variable (dao : KeyValueDao) (context : Context) (storage : String)

section

variable {α : Type} (goesOn : Record → Bool) (request : KeyValue.interface.Call)
variable {answered : Except StoreError (KeyValue.interface.Answer request) → Except StoreError α}
variable {unmet : Except DaoError α}
variable (plain : ∀ answer, KeyValue.reached goesOn request answer = none)
variable (failing : ∀ error, answered (.error error) = .error error)
variable (passing : ∀ answer, ∃ value, answered (.ok answer) = .ok value)

include plain failing passing

theorem plays_orUnmet {first : Option (Report KeyValue.interface)} {result : Except DaoError α}
    (plays : (orUnmet unmet (.call context request fun answer =>
      .done (answered answer))).run.Plays (KeyValue.reached goesOn) first result) :
    (∃ value, first = none ∧ result = .ok value) ∨
      (∃ name, first = some ⟨some request, .conditionFailed name⟩ ∧ result = unmet) ∨
      ∃ error, first = some ⟨some request, error⟩ ∧ (∀ name, error ≠ .conditionFailed name) ∧
        result = .error (.ofStore error) := by
  obtain ⟨answer, later, rest, rfl⟩ := plays
  simp only [Program.bind] at rest
  cases answer with
  | ok answer =>
      obtain ⟨value, same⟩ := passing answer
      rw [same] at rest
      obtain ⟨rfl, rfl⟩ := rest
      refine .inl ⟨value, ?_, rfl⟩
      rw [Report.ofCall, plain]
      rfl
  | error error =>
      rw [failing] at rest
      cases error with
      | conditionFailed name =>
          obtain ⟨rfl, rfl⟩ := rest
          exact .inr (.inl ⟨name, rfl, rfl⟩)
      | _ =>
          obtain ⟨rfl, rfl⟩ := rest
          refine .inr (.inr ⟨_, rfl, ?_, rfl⟩)
          rintro name ⟨⟩

/-- A write under a condition, whose failure has a result of its own. -/
theorem orUnmet_conveys (writes : Call.isConditional request = true) (collapsed : Collapsed unmet) :
    (orUnmet unmet (.call context request fun answer => .done (answered answer))).Conveys
      (KeyValue.reached goesOn) Call.isConditional (some unmet) where
  collapsed first result plays := by
    obtain ⟨value, -, rfl⟩ | ⟨name, -, rfl⟩ | ⟨error, -, -, rfl⟩ :=
      plays_orUnmet context goesOn request plain failing passing plays
    · exact .ok value
    · exact collapsed
    · exact .ofStore (.error error)
  means report result plays := by
    obtain ⟨value, told, -⟩ | ⟨name, told, rfl⟩ | ⟨error, told, other, rfl⟩ :=
      plays_orUnmet context goesOn request plain failing passing plays
    · cases told
    · cases told
      exact .unmet writes rfl
    · cases told
      refine .handed ?_
      cases error with
      | conditionFailed name => exact absurd rfl (other name)
      | _ => rfl

end

theorem putNew_conveys (spec : KeyValue.TableSpec) (item : Record) :
    (putNew context storage spec item).Conveys (KeyValue.reached fun _ => false)
      Call.isConditional (some (.error .duplicateEntry)) := by
  have duplicate : Collapsed (.error .duplicateEntry : Except DaoError Unit) := .error nofun
  exact conveys_map (fun _ => 1) (orUnmet_conveys context _ (.putItem _ _ (some _))
    (fun _ => rfl) (fun _ => rfl) (fun answer => ⟨answer, rfl⟩) rfl duplicate)

theorem describeTable_conveys (goesOn : Record → Bool) :
    (ofCall (KeyValue.describeTable context storage)).Conveys (KeyValue.reached goesOn)
      Call.isConditional none :=
  conveys_call (I := KeyValue.interface) (.describeTable _) rfl fun _ => rfl

theorem scanFirst_conveys {α : Type} {next : Option Record → Operation KeyValue.interface α}
    {unmet : Option (Except DaoError α)} (condition : Option KeyValue.Condition)
    (continues : ∀ first, (next first).Conveys (KeyValue.reached fun _ => false)
      Call.isConditional unmet) :
    (ofCall (KeyValue.scan context storage condition) >>= fun found =>
      Operation.ofExcept (ofStore found.first) >>= next).Conveys
        (KeyValue.reached fun _ => false) Call.isConditional unmet := by
  refine conveys_call_bind (I := KeyValue.interface) (.scan _ _)
    (fun found error faulty => ?_) rfl fun found _ => ?_
  · rw [Cursor.first_of_fault faulty]
    rfl
  · exact conveys_bind (conveys_ofExcept (.ofStore _)) continues

theorem taken_conveys (filter : Filter) :
    (dao.taken context storage filter).Conveys (KeyValue.reached fun _ => false)
      Call.isConditional none :=
  conveys_bind (conveys_ofExcept (.compiled _)) fun condition =>
    scanFirst_conveys context storage condition fun _ => conveys_pure _

theorem operations_conveys (collapsed : ∀ storage object, Collapsed (dao.key storage object)) :
    dao.operations.Conveys KeyValue.reached Call.isConditional fun _ _ => true := by
  have keyFilter (storage : String) (object : BusinessObject) :
      Collapsed (dao.key.filter storage object) := .filter (collapsed storage object)
  have item (storage : String) (spec : KeyValue.TableSpec) (object : BusinessObject) :
      Collapsed (dao.item storage spec object) :=
    .bind (dao.mapper.collapsed_toRow storage object) fun _ _ =>
      .bind (collapsed_keyOf storage spec _) fun _ _ => .ok _
  have existing (storage : String) (spec : KeyValue.TableSpec) (object : BusinessObject) :
      Collapsed (dao.existing storage spec object) := by
    refine .bind (keyFilter storage object) fun filter _ => .bind (.compiled _) fun matching _ => ?_
    cases matching <;> exact .ok _
  constructor
  case keyFilter => exact keyFilter
  case create =>
    intro context storage object
    refine conveys_bind (describeTable_conveys context storage _) fun spec => ?_
    refine conveys_bind (conveys_ofExcept (item storage spec object)) fun (put, _) => ?_
    refine conveys_bind (conveys_ofExcept (keyFilter storage object)) fun filter => ?_
    have rest (taken : Bool) :
        (if taken then throw .duplicateEntry else putNew context storage spec put).Conveys
          (KeyValue.reached fun _ => false) Call.isConditional (some (.error .duplicateEntry)) := by
      split
      · exact conveys_throw nofun
      · exact putNew_conveys context storage spec put
    dsimp only
    split
    · exact rest false
    · exact conveys_bind (dao.taken_conveys context storage filter) rest
  case update =>
    intro context storage object
    refine conveys_bind (describeTable_conveys context storage _) fun spec => ?_
    refine conveys_bind (conveys_ofExcept (item storage spec object)) fun (put, _) => ?_
    refine conveys_bind (conveys_ofExcept (existing storage spec object)) fun condition => ?_
    exact orUnmet_conveys context _ (.putItem _ _ (some _)) (fun _ => rfl) (fun _ => rfl)
      (fun _ => ⟨1, rfl⟩) rfl (.ok 0)
  case save =>
    intro context storage object
    refine conveys_bind (describeTable_conveys context storage _) fun spec => ?_
    refine conveys_bind (conveys_ofExcept (item storage spec object)) fun (put, _) => ?_
    exact conveys_bind (conveys_call (I := KeyValue.interface) (.putItem _ _ none) rfl fun _ => rfl)
      fun _ => conveys_pure 1
  case delete =>
    intro context storage object
    refine conveys_bind (describeTable_conveys context storage _) fun spec => ?_
    refine conveys_bind (conveys_ofExcept (item storage spec object)) fun (_, key) => ?_
    refine conveys_bind (conveys_ofExcept (existing storage spec object)) fun condition => ?_
    exact conveys_map Bool.toNat (orUnmet_conveys context _ (.deleteItem _ _ (some _))
      (fun _ => rfl) (fun _ => rfl) (fun answer => ⟨answer, rfl⟩) rfl (.ok false))
  case fetchOne =>
    intro context storage filter
    exact conveys_bind (conveys_ofExcept (.compiled _)) fun condition =>
      scanFirst_conveys context storage condition fun first =>
        conveys_ofExcept (dao.mapper.collapsed_toObject? storage first)
  case fetchMany =>
    intro context storage filter sorting offset limit
    refine conveys_bind (conveys_ofExcept (.compiled _)) fun condition => ?_
    refine conveys_call_bind (I := KeyValue.interface) (.scan _ _)
      (fun found error faulty => ?_) rfl fun found _ => ?_
    · rw [Cursor.collect_of_fault faulty]
      rfl
    · exact conveys_bind (conveys_ofExcept (.ofStore _)) fun items =>
        conveys_ofExcept (dao.mapper.collapsed_decodeAll storage _)

end KeyValueDao

/-- Whatever relational databases, document stores and key/value stores answer to data access, and
whether or not they run the bodies of transactions, a violation of uniqueness is a duplicate entry,
and the first error that is reported decides the result. A condition may fail only in a write of
`create`, where this is a duplicate entry, or of `update` and `delete`, which then find nothing. -/
theorem duplicate_entry_is_the_only_uniqueness_error :
    (∀ dao : RelationalDao, (∀ storage object, Collapsed (dao.key storage object)) →
      dao.operations.Conveys Sql.reached (fun _ => false) dao.mapper.decodes) ∧
    (∀ dao : DocumentDao, (∀ storage object, Collapsed (dao.key storage object)) →
      dao.operations.Conveys Document.reached (fun _ => false) dao.mapper.decodes) ∧
    ∀ dao : KeyValueDao, (∀ storage object, Collapsed (dao.key storage object)) →
      dao.operations.Conveys KeyValue.reached KeyValue.Call.isConditional fun _ _ => true :=
  ⟨RelationalDao.operations_conveys, DocumentDao.operations_conveys,
    KeyValueDao.operations_conveys⟩

theorem Sql.scripted_runsBodyOnce : Sql.scripted.RunsBodyOnce := by
  intro β context isolation body world
  simp only [Sql.scripted, Script.transact]
  split
  · exact .inl rfl
  · exact .inl rfl
  · split
    · exact .inl rfl
    · refine .inr ⟨{ world with
        store := (world.store.note (.begin isolation)).takeTransaction.2 }, ?_⟩
      generalize body _ = ran
      obtain ⟨⟨_ | _, value⟩, after⟩ := ran
      · rfl
      · dsimp only
        split <;> rfl

namespace RelationalDao

def members : RelationalDao where
  flavor := .sqlite
  key := PrimaryKey.filter { fields := ["id"] }

def newcomer : BusinessObject := { root := .map [("id", .string "1")] }

/-- Nobody has the key when `create` looks, and somebody has when it inserts. -/
def race : World Sql.Script where
  store := { counts := [.error (.duplicateKey (.violated "members" ["id"]))] }

def raced : Except DaoError Nat :=
  ((members.create .background "members" newcomer).on Sql.scripted race).1

def refusal : Report Sql.interface where
  origin := some
    (.execute ((Sql.insert "members" [("id", .string "1")]).sql .sqlite) [.string "1"])
  error := .duplicateKey (.violated "members" ["id"])

theorem plays_raced : (members.create .background "members" newcomer).run.Plays
    (Sql.reached fun _ => false) (some refusal) raced := by
  refine ⟨.error (.aborted .operationFailed), none, .inr
    ⟨.error (.aborted .operationFailed), .error .duplicateEntry, some refusal, ?_, ?_, rfl⟩⟩
  · exact ⟨.ok [], some refusal, ⟨.error refusal.error, none, ⟨rfl, rfl⟩, rfl⟩, rfl⟩
  · exact ⟨rfl, rfl⟩

theorem race_ends_as_duplicate :
    (∀ storage object, Collapsed (members.key storage object)) ∧
      raced = .error .duplicateEntry ∧ Collapsed raced ∧
      refusal.Means (fun _ => false) (some (.error .duplicateEntry)) raced := by
  have collapsed : ∀ storage object, Collapsed (members.key storage object) :=
    PrimaryKey.collapsed_filter { fields := ["id"] }
  obtain ⟨relational, -, -⟩ := duplicate_entry_is_the_only_uniqueness_error
  have conveys := (relational members collapsed).create .background "members" newcomer
  exact ⟨collapsed, rfl, conveys.collapsed_on Sql.scripted_runsBodyOnce race,
    conveys.means refusal raced plays_raced⟩

end RelationalDao

end DataAccess
