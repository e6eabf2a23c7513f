import DataAccess.Dao.Document
import DataAccess.Proofs.Document.Keyed
import DataAccess.Proofs.RowMapper

namespace DataAccess

namespace DocumentDao

/-- Data access to a collection whose `_id` is the field `id`. -/
def keyed (storage : String) (declared : ColumnUse) (config : DaoConfig) : DocumentDao where
  mapping := [(storage, [{ use := declared, field := "id", column := "_id" }])]
  key := idKey
  config := config

variable {storage : String} {declared : ColumnUse} {config : DaoConfig}

theorem table_keyed : (keyed storage declared config).mapping.table storage =
    [{ use := declared, field := "id", column := "_id" }] := by
  simp [keyed, Mapping.table, Dict.get?]

theorem columnOf_keyed (field : String) :
    (keyed storage declared config).mapper.columnOf storage field = idColumn field := by
  simp [RowMapper.columnOf, mapper, Mapping.columnOf, table_keyed, TableMapping.columnOf, idColumn,
    eq_comm]

theorem fieldOf_keyed (column : String) :
    (keyed storage declared config).mapper.fieldOf storage column =
      if column = "_id" then "id" else column := by
  simp [RowMapper.fieldOf, mapper, Mapping.fieldOf, table_keyed, TableMapping.fieldOf, eq_comm]

theorem returns_keyed {field : String} (unclaimed : field ≠ "_id") :
    (keyed storage declared config).mapper.Returns storage field := by
  rw [RowMapper.Returns, columnOf_keyed, fieldOf_keyed, idColumn]
  by_cases same : field = "id"
  · simp [same]
  · simp [same, unclaimed]

theorem query_keyed (key : String) :
    (keyed storage declared config).query storage (some (keyFilter key)) =
      .ok (Document.idQuery key) := by
  simp only [query, Option.map_some, keyFilter, Filter.rename, columnOf_keyed]
  rfl

section

variable (entry : Entry)

theorem entry_returns : ∀ name ∈ Dict.keys entry.fields,
    (keyed storage declared config).mapper.Returns storage name :=
  fun _ member => returns_keyed fun same => entry.unclaimed (same ▸ member)

theorem renamed_keyed :
    (keyed storage declared config).mapper.renamed storage entry.fields = entry.document := by
  simp only [RowMapper.renamed, columnOf_keyed, Entry.document]

theorem toRow_keyed :
    (keyed storage declared config).mapper.toRow storage entry.object = .ok entry.document := by
  rw [← renamed_keyed entry]
  exact RowMapper.toRow_document (entry_returns entry) entry.distinct rfl rfl

theorem toObject_keyed :
    (keyed storage declared config).mapper.toObject storage entry.document = .ok entry.object := by
  have keeps : (keyed storage declared config).mapper.keepsId storage = true := by
    simp [RowMapper.keepsId, fieldOf_keyed]
  have back : (keyed storage declared config).mapper.mapping.toFields storage entry.document =
      entry.fields := by
    rw [← renamed_keyed entry]
    exact RowMapper.toFields_renamed (entry_returns entry) entry.distinct
  have document : (keyed storage declared config).mapper.kind = .document := rfl
  simp only [RowMapper.toObject, document, keeps, ↓reduceIte, back]
  rfl

theorem keyQuery_keyed :
    (keyed storage declared config).keyQuery storage entry.object =
      .ok (Document.idQuery entry.key) :=
  bind_eq_ok.mpr ⟨keyFilter entry.key, filter_idKey storage entry, query_keyed entry.key⟩

theorem prepare_keyed :
    (keyed storage declared config).prepare storage entry.object =
      .ok (Document.idQuery entry.key, entry.document) :=
  bind_eq_ok.mpr ⟨_, keyQuery_keyed entry, bind_eq_ok.mpr ⟨_, toRow_keyed entry, rfl⟩⟩

end

/-- The store holds the records of the map. -/
def Represents (storage : String) (store : Document.Store) (registry : Registry) : Prop :=
  ∃ entries, store.Holds storage entries ∧ registry.Lists (· ∈ entries)

section

variable {connection : Connection Document.interface Document.Store}
variable {world : World Document.Store} {filter document old : Record}
variable (calls : connection.perform = Connection.checked Document.Store.act)

include calls

theorem insertNew_taken (found : world.store.findOne storage filter = .ok (some old)) :
    (insertNew .background storage filter document).on connection world =
      (.error .duplicateEntry, world) := by
  have answered := Operation.on_call_checked calls (.findOne storage filter) world
  simp only [Document.Store.act, found] at answered
  exact Operation.on_bind_ok _ answered

theorem insertNew_free {id : Value} {after : Document.Store}
    (missing : world.store.findOne storage filter = .ok none)
    (inserted : world.store.insert storage document = (.ok id, after)) :
    (insertNew .background storage filter document).on connection world =
      (.ok 1, { world with store := after }) := by
  have answered := Operation.on_call_checked calls (.findOne storage filter) world
  simp only [Document.Store.act, missing] at answered
  have written := Operation.on_call_checked calls (.insertOne storage document) world
  simp only [Document.Store.act, inserted] at written
  exact (Operation.on_bind_ok _ answered).trans (Operation.on_bind_ok _ written)

end

section

variable {world : World Document.Store} {entry : Entry} {entries : List Entry}
variable {registry : Registry}

theorem plainCalls :
    Document.connection.perform = Connection.checked Document.Store.act := rfl

theorem joinedCalls :
    Document.connection.joined.perform = Connection.checked Document.Store.act := rfl

theorem on_prepare (world : World Document.Store) (entry : Entry) :
    (Operation.ofExcept (I := Document.interface)
      ((keyed storage declared config).prepare storage entry.object)).on Document.connection world =
      (.ok (Document.idQuery entry.key, entry.document), world) := by
  rw [Operation.on_ofExcept, prepare_keyed]

theorem on_create (world : World Document.Store) (entry : Entry) :
    ((keyed storage declared config).create .background storage entry.object).on
        Document.connection world =
      (if config.transactionalCreate then
        Operation.inTransaction .background config.isolation
          (insertNew .background storage (Document.idQuery entry.key) entry.document)
      else insertNew .background storage (Document.idQuery entry.key) entry.document).on
        Document.connection world :=
  Operation.on_bind_ok _ (on_prepare world entry)

theorem create_taken {old : Record}
    (found : world.store.findOne storage (Document.idQuery entry.key) = .ok (some old)) :
    ((keyed storage declared config).create .background storage entry.object).on
      Document.connection world = (.error .duplicateEntry, world) := by
  rw [on_create]
  split
  · exact Operation.on_inTransaction_error (fun _ => rfl) (insertNew_taken joinedCalls found)
  · exact insertNew_taken plainCalls found

theorem create_free {id : Value} {after : Document.Store}
    (missing : world.store.findOne storage (Document.idQuery entry.key) = .ok none)
    (inserted : world.store.insert storage entry.document = (.ok id, after)) :
    ((keyed storage declared config).create .background storage entry.object).on
      Document.connection world = (.ok 1, { world with store := after }) := by
  rw [on_create]
  split
  · exact Operation.on_inTransaction_ok (fun _ => rfl) (insertNew_free joinedCalls missing inserted)
  · exact insertNew_free plainCalls missing inserted

theorem replace_keyed {upsert : Bool} {outcome : Document.ReplaceOutcome} {after : Document.Store}
    (replaced : world.store.replace storage (Document.idQuery entry.key) entry.document upsert =
      (.ok outcome, after)) :
    ((keyed storage declared config).replace .background storage upsert entry.object).on
      Document.connection world = (.ok outcome, { world with store := after }) := by
  have answered := Operation.on_call_checked plainCalls
    (Document.Call.replaceOne storage (Document.idQuery entry.key) entry.document upsert) world
  simp only [Document.Store.act, replaced] at answered
  exact (Operation.on_bind_ok _ (on_prepare world entry)).trans answered

theorem delete_keyed {removed : Nat} {after : Document.Store}
    (deleted : world.store.delete storage (Document.idQuery entry.key) false = (.ok removed, after)) :
    ((keyed storage declared config).delete .background storage entry.object).on
      Document.connection world = (.ok removed, { world with store := after }) := by
  have answered := Operation.on_call_checked plainCalls
    (Document.Call.deleteOne storage (Document.idQuery entry.key)) world
  simp only [Document.Store.act, deleted] at answered
  have asked : (Operation.ofExcept (I := Document.interface)
      ((keyed storage declared config).keyQuery storage entry.object)).on Document.connection world =
      (.ok (Document.idQuery entry.key), world) := by
    rw [Operation.on_ofExcept, keyQuery_keyed]
  exact (Operation.on_bind_ok _ asked).trans answered

theorem fetchOne_keyed {key : String} {found : Option Entry}
    (located : world.store.findOne storage (Document.idQuery key) =
      .ok (found.map Entry.document)) :
    ((keyed storage declared config).fetchOne .background storage (some (keyFilter key))).on
      Document.connection world = (.ok (found.map Entry.object), world) := by
  have answered := Operation.on_call_checked plainCalls
    (Document.Call.findOne storage (Document.idQuery key)) world
  simp only [Document.Store.act, located] at answered
  have asked : (Operation.ofExcept (I := Document.interface)
      ((keyed storage declared config).query storage (some (keyFilter key)))).on
        Document.connection world = (.ok (Document.idQuery key), world) := by
    rw [Operation.on_ofExcept, query_keyed]
  refine (Operation.on_bind_ok _ asked).trans ((Operation.on_bind_ok _ answered).trans ?_)
  rw [Operation.on_ofExcept]
  cases found with
  | none => rfl
  | some entry =>
      simp only [Option.map_some, RowMapper.toObject?, toObject_keyed]
      rfl

end

section

variable {world : World Document.Store} {entries : List Entry} {registry : Registry}

theorem represents_appended {store : Document.Store} {entry : Entry}
    (holds : store.Holds storage entries) (lists : registry.Lists (· ∈ entries))
    (fresh : ∀ other ∈ entries, other.key ≠ entry.key) :
    Represents storage
      (store.put storage { documents := (entries ++ [entry]).map Entry.document })
      (registry.insert entry.key entry.object) := by
  have distinct : ((entries ++ [entry]).map Entry.key).Nodup := by
    simpa [List.nodup_append, holds.distinct] using fresh
  refine ⟨entries ++ [entry], Document.Store.holds_put store storage distinct, ?_⟩
  refine Registry.lists_insert lists fun other => ?_
  rw [List.mem_append, List.mem_singleton, or_comm]
  exact or_congr_right (and_iff_left_of_imp (fresh other)).symm

theorem represents_replaced {store : Document.Store} {entry : Entry} {position : Nat}
    (holds : store.Holds storage entries) (lists : registry.Lists (· ∈ entries))
    (located : entries.findIdx? (·.key == entry.key) = some position) :
    Represents storage
      (store.put storage { documents := (entries.set position entry).map Entry.document })
      (registry.insert entry.key entry.object) := by
  obtain ⟨inside, atPosition, _⟩ := List.findIdx?_eq_some_iff_getElem.mp located
  have old : entries[position]? = some entries[position] := List.getElem?_eq_getElem inside
  have same : entries[position].key = entry.key := beq_iff_eq.mp atPosition
  refine ⟨entries.set position entry, Document.Store.holds_put store storage
    (Entry.nodup_set holds.distinct old same), ?_⟩
  exact Registry.lists_insert lists fun other => Entry.mem_set_iff holds.distinct old same

theorem locate_held (lists : registry.Lists (· ∈ entries)) {key : String} {object : BusinessObject}
    (found : registry.lookup key = some object) :
    ∃ position, entries.findIdx? (·.key == key) = some position := by
  obtain ⟨old, member, same, _⟩ := (lists key object).mp found
  cases located : entries.findIdx? (·.key == key) with
  | some position => exact ⟨position, rfl⟩
  | none =>
      have different := List.findIdx?_eq_none_iff.mp located old member
      simp [same] at different

theorem find?_eq_lookup (holds : world.store.Holds storage entries)
    (lists : registry.Lists (· ∈ entries)) (key : String) :
    (entries.find? (·.key == key)).map Entry.object = registry.lookup key := by
  cases found : registry.lookup key with
  | some object =>
      obtain ⟨old, member, rfl, rfl⟩ := (lists key object).mp found
      rw [Entry.find?_key holds.distinct member, Option.map_some]
  | none =>
      have fresh := Registry.free_of_lookup lists found
      have missing : entries.find? (·.key == key) = none := by simpa using fresh
      rw [missing, Option.map_none]

end

section

variable (storage) (declared) (config)

theorem create_refines (entry : Entry) :
    (keyed storage declared config).operations.RefinesAt Document.connection storage
      (Represents storage) (.create entry) := by
  rintro world registry ⟨entries, holds, lists⟩
  have located := Document.Store.findOne_eq holds entry.key
  cases found : registry.lookup entry.key with
  | some object =>
      have answered : registry.answer (.create entry) = (.error .duplicateEntry, registry) := by
        simp only [Registry.answer, found]
      obtain ⟨old, member, same, _⟩ := (lists entry.key object).mp found
      rw [← same, Entry.find?_key holds.distinct member, same] at located
      rw [answered]
      exact ⟨world, Operation.on_map Answer.count (create_taken located), entries, holds, lists⟩
  | none =>
      have answered : registry.answer (.create entry) =
          (.ok (.count 1), registry.insert entry.key entry.object) := by
        simp only [Registry.answer, found]
      have fresh := Registry.free_of_lookup lists found
      have missing : entries.find? (·.key == entry.key) = none := by simpa using fresh
      rw [missing] at located
      rw [answered]
      exact ⟨_, Operation.on_map Answer.count
        (create_free located (Document.Store.insert_eq holds fresh)),
        represents_appended holds lists fresh⟩

theorem update_refines (entry : Entry) :
    (keyed storage declared config).operations.RefinesAt Document.connection storage
      (Represents storage) (.update entry) := by
  rintro world registry ⟨entries, holds, lists⟩
  cases found : registry.lookup entry.key with
  | some object =>
      have answered : registry.answer (.update entry) =
          (.ok (.count 1), registry.insert entry.key entry.object) := by
        simp only [Registry.answer, found]
      obtain ⟨position, located⟩ := locate_held lists found
      obtain ⟨modified, replaced⟩ := Document.Store.replace_held holds located false
      rw [answered]
      exact ⟨_, Operation.on_map Answer.count (Operation.on_bind_ok _ (replace_keyed replaced)),
        represents_replaced holds lists located⟩
  | none =>
      have answered : registry.answer (.update entry) = (.ok (.count 0), registry) := by
        simp only [Registry.answer, found]
      have fresh := Registry.free_of_lookup lists found
      have replaced := Document.Store.replace_free holds fresh
      rw [answered]
      exact ⟨_, Operation.on_map Answer.count (Operation.on_bind_ok _ (replace_keyed replaced)),
        entries, holds, lists⟩

theorem save_refines (entry : Entry) :
    (keyed storage declared config).operations.RefinesAt Document.connection storage
      (Represents storage) (.save entry) := by
  rintro world registry ⟨entries, holds, lists⟩
  cases found : registry.lookup entry.key with
  | some object =>
      obtain ⟨position, located⟩ := locate_held lists found
      obtain ⟨modified, replaced⟩ := Document.Store.replace_held holds located true
      exact ⟨_, Operation.on_map Answer.count (Operation.on_bind_ok _ (replace_keyed replaced)),
        represents_replaced holds lists located⟩
  | none =>
      have fresh := Registry.free_of_lookup lists found
      have inserted := Document.Store.upsert_free holds fresh
      exact ⟨_, Operation.on_map Answer.count (Operation.on_bind_ok _ (replace_keyed inserted)),
        represents_appended holds lists fresh⟩

theorem delete_refines (entry : Entry) :
    (keyed storage declared config).operations.RefinesAt Document.connection storage
      (Represents storage) (.delete entry) := by
  rintro world registry ⟨entries, holds, lists⟩
  obtain ⟨after, deleted, left⟩ := Document.Store.delete_eq holds entry.key
  have removed : ∀ other, other ∈ entries.filter (·.key != entry.key) ↔
      other ∈ entries ∧ other.key ≠ entry.key := by simp
  cases found : registry.lookup entry.key with
  | some object =>
      have answered : registry.answer (.delete entry) =
          (.ok (.count 1), registry.erase entry.key) := by
        simp only [Registry.answer, found]
      obtain ⟨old, member, same, _⟩ := (lists entry.key object).mp found
      have present : entries.any (·.key == entry.key) = true :=
        List.any_eq_true.mpr ⟨old, member, beq_iff_eq.mpr same⟩
      rw [present] at deleted
      rw [answered]
      exact ⟨_, Operation.on_map Answer.count (delete_keyed deleted), _, left,
        Registry.lists_erase lists removed⟩
  | none =>
      have answered : registry.answer (.delete entry) = (.ok (.count 0), registry) := by
        simp only [Registry.answer, found]
      have fresh := Registry.free_of_lookup lists found
      have absent : entries.any (·.key == entry.key) = false := by simpa using fresh
      have kept : entries.filter (·.key != entry.key) = entries := by simpa using fresh
      rw [absent] at deleted
      rw [kept] at left
      rw [answered]
      exact ⟨_, Operation.on_map Answer.count (delete_keyed deleted), entries, left, lists⟩

theorem fetchOne_refines (key : String) :
    (keyed storage declared config).operations.RefinesAt Document.connection storage
      (Represents storage) (.fetchOne key) := by
  rintro world registry ⟨entries, holds, lists⟩
  refine ⟨world, ?_, entries, holds, lists⟩
  rw [Registry.answer, ← find?_eq_lookup holds lists]
  exact Operation.on_map Answer.found (fetchOne_keyed (Document.Store.findOne_eq holds key))

theorem refines : ∀ request, (keyed storage declared config).operations.RefinesAt
    Document.connection storage (Represents storage) request
  | .create entry => create_refines storage declared config entry
  | .update entry => update_refines storage declared config entry
  | .save entry => save_refines storage declared config entry
  | .delete entry => delete_refines storage declared config entry
  | .fetchOne key => fetchOne_refines storage declared config key

theorem represents_fresh (ids : Document.IdSupply) (store : StoreConfig) :
    Represents storage { ids, config := store } ∅ := by
  refine ⟨[], ⟨rfl, List.nodup_nil⟩, Registry.lists_empty ?_⟩
  intro entry member
  cases member

end

end DocumentDao

end DataAccess
