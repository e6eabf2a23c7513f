import DataAccess.Dao.Relational
import DataAccess.Proofs.Compilation
import DataAccess.Proofs.Dict
import DataAccess.Proofs.Operation
import DataAccess.Proofs.Sends
import DataAccess.Proofs.Sql.Alignment
import DataAccess.Sql.Scripted

namespace DataAccess

namespace Sql

variable {flavor : Flavor} {pairs : List (String × Value)}

/-- A query whose parameters are the values of these columns. -/
def Asks (flavor : Flavor) (pairs : List (String × Value)) (call : Call) : Prop :=
  ∃ sql parameters, call = .query sql parameters ∧ Aligned flavor sql parameters pairs

/-- Another statement whose parameters are the values of these columns. -/
def Writes (flavor : Flavor) (pairs : List (String × Value)) (call : Call) : Prop :=
  ∃ sql parameters, call = .execute sql parameters ∧ Aligned flavor sql parameters pairs

end Sql

namespace RelationalDao

open Operation Sql

variable (dao : RelationalDao) (context : Context) (storage : String)
variable {projection condition statement : Statement} {pairs : List (String × Value)}

/-- The literals of a filter with the columns that they are compared with. -/
def literals (filter : Option Filter) : List (String × Value) :=
  (filter.toList.flatMap Filter.literals).map fun pair =>
    (dao.mapper.columnOf storage pair.1, pair.2)

theorem binds_condition {filter : Option Filter}
    (compiled : dao.condition storage filter = .ok condition) :
    Statement.Binds condition (dao.literals storage filter) := by
  cases filter with
  | none =>
      cases compiled
      exact Statement.binds_nil
  | some filter =>
      simp only [RelationalDao.condition, Operation.compiled, Option.map_some, condition?] at compiled
      cases result : Sql.condition (filter.rename (dao.mapper.columnOf storage)) with
      | error fault =>
          rw [result] at compiled
          cases compiled
      | ok statement =>
          rw [result] at compiled
          cases compiled
          have binds := Sql.binds_condition result
          rw [Filter.literals_rename] at binds
          simpa [literals] using binds

theorem exists_condition {filter : Option Filter}
    (valid : ∀ found ∈ filter, found.validate = .ok ()) :
    ∃ condition, dao.condition storage filter = .ok condition := by
  cases filter with
  | none => exact ⟨[], rfl⟩
  | some filter =>
      obtain ⟨statement, compiled⟩ :=
        compiles.exists_result (dao.mapper.columnOf storage) (valid filter rfl)
      refine ⟨statement, ?_⟩
      rw [RelationalDao.condition, Option.map_some, condition?, compiled]
      rfl

theorem binds_projection : Statement.Binds (dao.projection storage) [] := by
  unfold RelationalDao.projection
  split
  · exact Statement.binds_text (by decide) Statement.binds_nil
  · exact binds_identifiers _

theorem binds_columnless (text : String) (free : Statement.Free text) :
    Statement.Binds [.text text] [] :=
  Statement.binds_text free Statement.binds_nil

theorem query_sends
    (aligned : Aligned dao.flavor (statement.sql dao.flavor) statement.parameters pairs) :
    (dao.query context statement).SendsOnly (Asks dao.flavor pairs) :=
  sends_call (I := interface) ⟨_, _, rfl, aligned⟩

theorem execute_sends
    (aligned : Aligned dao.flavor (statement.sql dao.flavor) statement.parameters pairs) :
    (dao.execute context statement).SendsOnly (Writes dao.flavor pairs) :=
  sends_call (I := interface) ⟨_, _, rfl, aligned⟩

theorem firstRow_sends (filter : Option Filter) (ofProjection : Statement.Binds projection []) :
    (dao.firstRow context storage projection filter).SendsOnly
      (Asks dao.flavor (dao.literals storage filter)) := by
  refine sends_ofExcept_bind fun condition compiled => ?_
  refine sends_bind (dao.query_sends context ?_) fun rows _ => sends_ofExcept fun _ _ => trivial
  exact aligned_select dao.flavor storage [] 0 1 ofProjection (dao.binds_condition storage compiled)

theorem insert_sends (row : Record) :
    (dao.insert context storage row).SendsOnly (Writes dao.flavor row) :=
  dao.execute_sends context (aligned_insert dao.flavor storage row)

theorem padRow_eq_append (row existing : Record) :
    ∃ missing : List String, padRow row existing = row ++ missing.map fun column => (column, .null) := by
  unfold padRow
  induction Dict.keys existing generalizing row with
  | nil => exact ⟨[], by simp⟩
  | cons column rest ih =>
      obtain ⟨missing, padded⟩ := ih (Dict.insertNew row column .null)
      rw [List.foldl_cons, padded]
      by_cases present : Dict.contains row column = true
      · exact ⟨missing, by rw [Dict.insertNew_of_contains present]⟩
      · exact ⟨column :: missing, by simp [Dict.insertNew, present]⟩

/-- The parameters of an update: a row, a null for each further column, and the literals of a
filter. -/
def Overwrites (filter : Filter) (row : Record) (call : Call) : Prop :=
  ∃ missing : List String, Writes dao.flavor
    (row ++ missing.map (fun column => (column, .null)) ++ dao.literals storage (some filter)) call

theorem replacement_sends (filter : Filter) (row : Record) :
    (dao.replacement context storage filter row).Sends
      (Asks dao.flavor (dao.literals storage (some filter)))
      fun replacement => ∀ padded, replacement = some padded →
        ∃ missing : List String, padded = row ++ missing.map fun column => (column, .null) := by
  unfold replacement
  split
  · exact sends_pure fun padded same => ⟨[], by simpa using (Option.some.inj same).symm⟩
  · refine sends_bind (dao.firstRow_sends context storage (some filter)
      (binds_columnless "*" (by decide))) fun existing _ => sends_pure fun padded same => ?_
    obtain ⟨found, _, rfl⟩ := Option.map_eq_some_iff.mp same
    exact padRow_eq_append row found

theorem replace_sends (filter : Filter) (row : Record) :
    (dao.replace context storage filter row).SendsOnly fun call =>
      Asks dao.flavor (dao.literals storage (some filter)) call ∨
        dao.Overwrites storage filter row call := by
  refine sends_bind (sends_mono (dao.replacement_sends context storage filter row)
    (fun _ asks => .inl asks) fun _ ended => ended) fun replacement ended => ?_
  cases replacement with
  | none => exact sends_pure trivial
  | some padded =>
      obtain ⟨missing, rfl⟩ := ended padded rfl
      dsimp only
      split
      · exact sends_pure trivial
      · refine sends_ofExcept_bind fun condition compiled => ?_
        refine sendsOnly_mono (dao.execute_sends context ?_) fun _ writes => .inr ⟨missing, writes⟩
        exact aligned_update dao.flavor storage _ (dao.binds_condition storage compiled)

theorem insertNew_sends (filter : Filter) (row : Record) :
    (dao.insertNew context storage filter row).SendsOnly fun call =>
      Asks dao.flavor (dao.literals storage (some filter)) call ∨ Writes dao.flavor row call := by
  refine sends_bind (sendsOnly_mono (dao.firstRow_sends context storage (some filter)
    (binds_columnless "1" (by decide))) fun _ asks => .inl asks) fun found _ => ?_
  split
  · exact sends_throw _
  · exact sendsOnly_mono (dao.insert_sends context storage row) fun _ writes => .inr writes

theorem firstRow_calls (projection : Statement) {filter : Option Filter}
    (valid : ∀ found ∈ filter, found.validate = .ok ()) :
    (dao.firstRow context storage projection filter).Calls := by
  obtain ⟨condition, compiled⟩ := dao.exists_condition storage valid
  exact calls_ofExcept_bind compiled (calls_bind calls_call _)

theorem keyFilter_valid {key : KeyFilter} {object : BusinessObject} {filter : Filter}
    (filtered : key.filter storage object = .ok filter) :
    ∀ found ∈ Option.some filter, found.validate = .ok () := by
  rintro _ ⟨⟩
  exact (KeyFilter.filter_eq_ok.mp filtered).2

theorem mapping_columns_ne_nil {mapping : Mapping} {names : List String}
    (columns : mapping.columns storage = .listed names) : names ≠ [] := by
  rintro rfl
  unfold Mapping.columns at columns
  split at columns
  · cases columns
  · rename_i nonempty
    exact nonempty (Columns.listed.inj columns)

/-- Where columns are listed there is at least one, so a row of them is not empty. -/
theorem row_ne_nil {object : BusinessObject} {row : Record} {names : List String}
    (mapped : dao.mapper.toRow storage object = .ok row)
    (columns : dao.mapper.columns storage = .listed names) : row ≠ [] := by
  obtain ⟨renamed, _, mapped⟩ := bind_eq_ok.mp mapped
  obtain ⟨column, rest, rfl⟩ := List.exists_cons_of_ne_nil (mapping_columns_ne_nil storage columns)
  have mapped : RowMapper.relationalRow storage (.listed (column :: rest)) renamed = .ok row := by
    rw [← columns]
    exact mapped
  simp only [RowMapper.relationalRow, RowMapper.takeColumns] at mapped
  split at mapped
  · rename_i taken
    cases mapped
    exact (Prod.mk.inj taken).1 ▸ List.cons_ne_nil _ _
  · cases mapped

theorem replace_calls {filter : Filter} {row : Record}
    (valid : ∀ found ∈ Option.some filter, found.validate = .ok ())
    (filled : ∀ names, dao.mapper.columns storage = .listed names → row ≠ []) :
    (dao.replace context storage filter row).Calls := by
  unfold RelationalDao.replace replacement
  cases columns : dao.mapper.columns storage with
  | all => exact calls_bind (calls_bind (dao.firstRow_calls context storage _ valid) _) _
  | listed names =>
      obtain ⟨condition, compiled⟩ := dao.exists_condition storage valid
      -- An empty row would be left unsent, but columns are listed, so there is no such row.
      have kept : row.isEmpty = false := by simpa using filled names columns
      refine calls_pure_bind ?_
      dsimp only
      rw [kept]
      exact calls_ofExcept_bind compiled calls_call

section

variable {object : BusinessObject} {prepared : Filter × Record}

theorem prepare_parts (ready : dao.prepare storage object = .ok prepared) :
    dao.key.filter storage object = .ok prepared.1 ∧
      dao.mapper.toRow storage object = .ok prepared.2 := by
  obtain ⟨key, filtered, rest⟩ := bind_eq_ok.mp ready
  obtain ⟨row, mapped, same⟩ := bind_eq_ok.mp rest
  cases pure_eq_ok.mp same
  exact ⟨filtered, mapped⟩

theorem create_calls (ready : dao.prepare storage object = .ok prepared) :
    (dao.create context storage object).Calls := by
  have valid := keyFilter_valid storage (dao.prepare_parts storage ready).1
  have body : (dao.insertNew context storage prepared.1 prepared.2).Calls :=
    calls_bind (dao.firstRow_calls context storage _ valid) _
  refine calls_ofExcept_bind ready ?_
  dsimp only
  split
  · exact calls_inTransaction body
  · exact body

theorem prepared_replace_calls (ready : dao.prepare storage object = .ok prepared) :
    (dao.replace context storage prepared.1 prepared.2).Calls := by
  obtain ⟨filtered, mapped⟩ := dao.prepare_parts storage ready
  exact dao.replace_calls context storage (keyFilter_valid storage filtered) fun _ columns =>
    dao.row_ne_nil storage mapped columns

theorem update_calls (ready : dao.prepare storage object = .ok prepared) :
    (dao.update context storage object).Calls :=
  calls_ofExcept_bind ready (calls_inTransaction (dao.prepared_replace_calls context storage ready))

theorem save_calls (ready : dao.prepare storage object = .ok prepared) :
    (dao.save context storage object).Calls :=
  calls_ofExcept_bind ready
    (calls_inTransaction (calls_bind (dao.prepared_replace_calls context storage ready) _))

theorem delete_calls {key : Filter} (filtered : dao.key.filter storage object = .ok key) :
    (dao.delete context storage object).Calls := by
  obtain ⟨condition, compiled⟩ := dao.exists_condition storage (keyFilter_valid storage filtered)
  exact calls_ofExcept_bind filtered (calls_ofExcept_bind compiled calls_call)

theorem fetchMany_calls {filter : Option Filter}
    (valid : ∀ found ∈ filter, found.validate = .ok ()) (sorting : Sorting) (offset limit : Nat) :
    (dao.fetchMany context storage filter sorting offset limit).Calls := by
  obtain ⟨condition, compiled⟩ := dao.exists_condition storage valid
  exact calls_ofExcept_bind compiled (calls_bind calls_call _)

end

variable (object : BusinessObject) (filter : Option Filter)

theorem create_sends :
    (dao.create context storage object).SendsOnly fun call =>
      ∃ key row, dao.prepare storage object = .ok (key, row) ∧
        (Asks dao.flavor (dao.literals storage (some key)) call ∨ Writes dao.flavor row call) := by
  refine sends_ofExcept_bind fun ⟨key, row⟩ prepared => ?_
  have body := dao.insertNew_sends context storage key row
  dsimp only
  split
  · exact sends_inTransaction (sendsOnly_mono body fun _ sent => ⟨key, row, prepared, sent⟩)
  · exact sendsOnly_mono body fun _ sent => ⟨key, row, prepared, sent⟩

theorem update_sends :
    (dao.update context storage object).SendsOnly fun call =>
      ∃ key row, dao.prepare storage object = .ok (key, row) ∧
        (Asks dao.flavor (dao.literals storage (some key)) call ∨
          dao.Overwrites storage key row call) := by
  refine sends_ofExcept_bind fun ⟨key, row⟩ prepared => sends_inTransaction ?_
  exact sendsOnly_mono (dao.replace_sends context storage key row)
    fun _ sent => ⟨key, row, prepared, sent⟩

theorem save_sends :
    (dao.save context storage object).SendsOnly fun call =>
      ∃ key row, dao.prepare storage object = .ok (key, row) ∧
        ((Asks dao.flavor (dao.literals storage (some key)) call ∨
          dao.Overwrites storage key row call) ∨ Writes dao.flavor row call) := by
  refine sends_ofExcept_bind fun ⟨key, row⟩ prepared => sends_inTransaction ?_
  refine sends_bind (sendsOnly_mono (dao.replace_sends context storage key row)
    fun _ sent => ⟨key, row, prepared, .inl sent⟩) fun replaced _ => ?_
  split
  · exact sendsOnly_mono (dao.insert_sends context storage row)
      fun _ sent => ⟨key, row, prepared, .inr sent⟩
  · exact sends_pure trivial

theorem delete_sends :
    (dao.delete context storage object).SendsOnly fun call =>
      ∃ key, dao.key.filter storage object = .ok key ∧
        Writes dao.flavor (dao.literals storage (some key)) call := by
  refine sends_ofExcept_bind fun key filtered => sends_ofExcept_bind fun condition compiled => ?_
  have aligned := aligned_delete dao.flavor storage (dao.binds_condition storage compiled)
  exact sendsOnly_mono (dao.execute_sends context aligned) fun _ sent => ⟨key, filtered, sent⟩

theorem fetchOne_sends :
    (dao.fetchOne context storage filter).SendsOnly
      (Asks dao.flavor (dao.literals storage filter)) :=
  sends_bind (dao.firstRow_sends context storage filter (dao.binds_projection storage))
    fun _ _ => sends_ofExcept fun _ _ => trivial

theorem fetchMany_sends (sorting : Sorting) (offset limit : Nat) :
    (dao.fetchMany context storage filter sorting offset limit).SendsOnly
      (Asks dao.flavor (dao.literals storage filter)) := by
  refine sends_ofExcept_bind fun condition compiled => ?_
  refine sends_bind (dao.query_sends context ?_) fun rows _ => sends_ofExcept fun _ _ => trivial
  exact aligned_select dao.flavor storage _ offset limit (dao.binds_projection storage)
    (dao.binds_condition storage compiled)

/-- Every statement is aligned with its parameters, those of a created, updated, saved or deleted
object being its row and the literals of its key filter; and with an object that has a key and a
row, or a valid filter, an operation begins with a statement. -/
theorem statements_align (sorting : Sorting) (offset limit : Nat) :
    ((dao.create context storage object).SendsOnly fun call =>
      ∃ key row, dao.prepare storage object = .ok (key, row) ∧
        (Asks dao.flavor (dao.literals storage (some key)) call ∨ Writes dao.flavor row call)) ∧
    ((dao.update context storage object).SendsOnly fun call =>
      ∃ key row, dao.prepare storage object = .ok (key, row) ∧
        (Asks dao.flavor (dao.literals storage (some key)) call ∨
          dao.Overwrites storage key row call)) ∧
    ((dao.save context storage object).SendsOnly fun call =>
      ∃ key row, dao.prepare storage object = .ok (key, row) ∧
        ((Asks dao.flavor (dao.literals storage (some key)) call ∨
          dao.Overwrites storage key row call) ∨ Writes dao.flavor row call)) ∧
    ((dao.delete context storage object).SendsOnly fun call =>
      ∃ key, dao.key.filter storage object = .ok key ∧
        Writes dao.flavor (dao.literals storage (some key)) call) ∧
    (dao.fetchOne context storage filter).SendsOnly
      (Asks dao.flavor (dao.literals storage filter)) ∧
    (dao.fetchMany context storage filter sorting offset limit).SendsOnly
      (Asks dao.flavor (dao.literals storage filter)) ∧
    (∀ prepared, dao.prepare storage object = .ok prepared →
      (dao.create context storage object).Calls ∧ (dao.update context storage object).Calls ∧
        (dao.save context storage object).Calls) ∧
    (∀ key, dao.key.filter storage object = .ok key →
      (dao.delete context storage object).Calls) ∧
    ((∀ found ∈ filter, found.validate = .ok ()) →
      (dao.fetchOne context storage filter).Calls ∧
        (dao.fetchMany context storage filter sorting offset limit).Calls) :=
  ⟨dao.create_sends context storage object,
    dao.update_sends context storage object,
    dao.save_sends context storage object,
    dao.delete_sends context storage object,
    dao.fetchOne_sends context storage filter,
    dao.fetchMany_sends context storage filter sorting offset limit,
    fun _ ready => ⟨dao.create_calls context storage ready, dao.update_calls context storage ready,
      dao.save_calls context storage ready⟩,
    fun _ filtered => dao.delete_calls context storage filtered,
    fun valid => ⟨calls_bind (dao.firstRow_calls context storage _ valid) _,
      dao.fetchMany_calls context storage valid sorting offset limit⟩⟩

/-- A table, a column and a value whose names read like placeholders. -/
def numbered : RelationalDao :=
  { flavor := .postgreSql, key := PrimaryKey.filter { fields := ["$1"] } }

def numberedObject : BusinessObject := { root := .map [("$1", .string "$2"), ("?", .null)] }

/-- Names that read like placeholders are quoted, so those beside them are the only ones. -/
theorem numbered_names_align :
    (numbered.create .background "$3" numberedObject).Calls ∧
      ((numbered.create .background "$3" numberedObject).on scripted
          { store := {} }).2.store.log =
        [.begin .snapshot,
          .query "SELECT 1 FROM \"$3\" WHERE \"$1\" = $1 LIMIT 1 OFFSET 0" [.string "$2"],
          .execute "INSERT INTO \"$3\" (\"$1\", \"?\") VALUES ($1, $2)" [.string "$2", .null],
          .commit] := by
  have calls := (numbered.statements_align .background "$3" numberedObject none [] 0 0).2.2.2.2.2.2.1
  exact ⟨(calls _ rfl).1, rfl⟩

end RelationalDao

end DataAccess
