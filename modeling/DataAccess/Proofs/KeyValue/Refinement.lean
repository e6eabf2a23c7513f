import DataAccess.Dao.KeyValue
import DataAccess.Proofs.KeyValue.Keyed
import DataAccess.Proofs.RowMapper

namespace DataAccess

namespace KeyValueDao

open KeyValue (idSpec hasKey existingKey unused stringKey)

/-- Data access that keeps the names of fields, with the key `id`. -/
def keyed (config : DaoConfig) : KeyValueDao := { key := idKey, config }

variable {config : DaoConfig} {storage : String}

theorem columnOf_keyed (field : String) :
    (keyed config).mapper.columnOf storage field = field := rfl

theorem returns_keyed (fields : Record) :
    ∀ name ∈ Dict.keys fields, (keyed config).mapper.Returns storage name := fun _ _ => rfl

theorem renamed_keyed (fields : Record) : (keyed config).mapper.renamed storage fields = fields := by
  simp only [RowMapper.renamed, columnOf_keyed, Prod.mk.eta, List.map_id']

theorem toRow_keyed (entry : Entry) :
    (keyed config).mapper.toRow storage entry.object = .ok entry.fields := by
  have present : Dict.filterValues (!·.isNull) entry.fields = entry.fields :=
    Dict.filterValues_eq_self fun value member => by simp [entry.noNulls value member]
  have row : (keyed config).mapper.toRow storage entry.object = .ok (Dict.filterValues (!·.isNull)
      ((keyed config).mapper.renamed storage entry.fields)) :=
    RowMapper.toRow_keyValue (returns_keyed entry.fields) entry.distinct rfl rfl
  rw [row, renamed_keyed, present]

theorem toObject_keyed (entry : Entry) :
    (keyed config).mapper.toObject storage entry.fields = .ok entry.object := by
  have back : (keyed config).mapper.mapping.toFields storage
      ((keyed config).mapper.renamed storage entry.fields) = entry.fields :=
    RowMapper.toFields_renamed (returns_keyed entry.fields) entry.distinct
  rw [renamed_keyed] at back
  have keyValue : (keyed config).mapper.kind = .keyValue := rfl
  simp only [RowMapper.toObject, keyValue, back]
  rfl

theorem item_keyed (entry : Entry) :
    (keyed config).item storage idSpec entry.object =
      .ok (entry.fields, [("id", .string entry.key)]) := by
  have key : idSpec.keyOf? entry.fields = some [("id", .string entry.key)] := by
    have attributes : idSpec.keyAttributes = ["id"] := rfl
    simp only [KeyValue.TableSpec.keyOf?, attributes, List.mapM_cons, List.mapM_nil, entry.keyed]
    rfl
  have found : keyOf storage idSpec entry.fields = .ok [("id", .string entry.key)] := by
    simp only [keyOf, key]
  exact bind_eq_ok.mpr ⟨_, toRow_keyed entry, bind_eq_ok.mpr ⟨_, found, rfl⟩⟩

theorem existing_keyed (entry : Entry) :
    (keyed config).existing storage idSpec entry.object = .ok (existingKey entry.key) :=
  bind_eq_ok.mpr ⟨_, filter_idKey storage entry, rfl⟩

theorem isTableKey_keyed (key : String) :
    (keyed config).isTableKey storage idSpec (keyFilter key) = true := by
  have fields : equalityFields (keyFilter key) = some ["id"] := rfl
  have attributes : idSpec.keyAttributes = ["id"] := rfl
  simp [isTableKey, fields, attributes, columnOf_keyed]

/-- The store holds the records of the map. -/
def Represents (storage : String) (store : KeyValue.Store) (registry : Registry) : Prop :=
  ∃ table, store.Holds storage table ∧ registry.Lists table.Has

section

variable {α : Type} {unmet : Except DaoError α} {world after : World KeyValue.Store}
variable {write : Program KeyValue.interface (Except StoreError α)}

theorem on_orUnmet_ok {result : α}
    (written : write.run KeyValue.connection world = (.ok result, after)) :
    (orUnmet unmet write).on KeyValue.connection world = (.ok result, after) := by
  refine (Program.run_bind KeyValue.connection write _ world).trans ?_
  rw [written]
  rfl

theorem on_orUnmet_failed {name : String}
    (failed : write.run KeyValue.connection world = (.error (.conditionFailed name), after)) :
    (orUnmet unmet write).on KeyValue.connection world = (unmet, after) := by
  refine (Program.run_bind KeyValue.connection write _ world).trans ?_
  rw [failed]
  rfl

end

section

variable {world : World KeyValue.Store} {table : KeyValue.Table} {entry : Entry}
variable {condition : Option KeyValue.Condition}

theorem run_put (storage : String) (world : World KeyValue.Store) (item : Record)
    (condition : Option KeyValue.Condition) :
    (KeyValue.putItem .background storage item condition).run KeyValue.connection world =
      ((world.store.putItem storage item condition).1,
        { world with store := (world.store.putItem storage item condition).2 }) := rfl

theorem run_delete (storage : String) (world : World KeyValue.Store) (key : Record)
    (condition : Option KeyValue.Condition) :
    (KeyValue.deleteItem .background storage key condition).run KeyValue.connection world =
      ((world.store.deleteItem storage key condition).1,
        { world with store := (world.store.deleteItem storage key condition).2 }) := rfl

theorem calls : KeyValue.connection.perform = Connection.checked KeyValue.Store.act := rfl

theorem on_item (world : World KeyValue.Store) (entry : Entry) :
    (Operation.ofExcept (I := KeyValue.interface)
      ((keyed config).item storage idSpec entry.object)).on KeyValue.connection world =
      (.ok (entry.fields, [("id", .string entry.key)]), world) := by
  rw [Operation.on_ofExcept, item_keyed]

theorem on_existing (world : World KeyValue.Store) (entry : Entry) :
    (Operation.ofExcept (I := KeyValue.interface)
      ((keyed config).existing storage idSpec entry.object)).on KeyValue.connection world =
      (.ok (existingKey entry.key), world) := by
  rw [Operation.on_ofExcept, existing_keyed]

variable (holds : world.store.Holds storage table)

include holds

theorem on_describe :
    (Operation.ofCall (KeyValue.describeTable .background storage)).on KeyValue.connection world =
      (.ok idSpec, world) := by
  have answered := Operation.on_call_checked calls (KeyValue.Call.describeTable storage) world
  simp only [KeyValue.Store.act, KeyValue.Store.table_eq holds, Except.map, holds.spec] at answered
  exact answered

/-- The key of the table is the key of records, so nothing is looked for before the put. -/
theorem on_create (entry : Entry) :
    ((keyed config).create .background storage entry.object).on KeyValue.connection world =
      (putNew .background storage idSpec entry.fields).on KeyValue.connection world := by
  have filter : (Operation.ofExcept (I := KeyValue.interface)
      ((keyed config).key.filter storage entry.object)).on KeyValue.connection world =
      (.ok (keyFilter entry.key), world) := by
    rw [Operation.on_ofExcept]
    exact congrArg (·, world) (filter_idKey storage entry)
  have untaken : (if (keyed config).isTableKey storage idSpec (keyFilter entry.key) then pure false
      else (keyed config).taken .background storage (keyFilter entry.key)).on
        KeyValue.connection world = (.ok false, world) := by
    rw [if_pos (isTableKey_keyed entry.key), Operation.on_pure]
  refine (Operation.on_bind_ok _ (on_describe holds)).trans ?_
  refine (Operation.on_bind_ok _ (on_item world entry)).trans ?_
  refine (Operation.on_bind_ok _ filter).trans ?_
  exact Operation.on_bind_ok _ untaken

theorem on_update (entry : Entry) :
    ((keyed config).update .background storage entry.object).on KeyValue.connection world =
      (orUnmet (.ok 0) ((KeyValue.putItem .background storage entry.fields
        (some (existingKey entry.key))).bind fun answer => .done (answer.map fun _ => 1))).on
          KeyValue.connection world := by
  refine (Operation.on_bind_ok _ (on_describe holds)).trans ?_
  refine (Operation.on_bind_ok _ (on_item world entry)).trans ?_
  exact Operation.on_bind_ok _ (on_existing world entry)

theorem on_save (entry : Entry) :
    ((keyed config).save .background storage entry.object).on KeyValue.connection world =
      (do
        Operation.ofCall (KeyValue.putItem .background storage entry.fields none)
        return 1 : Operation KeyValue.interface Nat).on KeyValue.connection world := by
  refine (Operation.on_bind_ok _ (on_describe holds)).trans ?_
  exact Operation.on_bind_ok _ (on_item world entry)

theorem on_delete (entry : Entry) :
    ((keyed config).delete .background storage entry.object).on KeyValue.connection world =
      (do
        let removed ← orUnmet (.ok false) (KeyValue.deleteItem .background storage
          [("id", .string entry.key)] (some (existingKey entry.key)))
        return removed.toNat : Operation KeyValue.interface Nat).on KeyValue.connection world := by
  refine (Operation.on_bind_ok _ (on_describe holds)).trans ?_
  refine (Operation.on_bind_ok _ (on_item world entry)).trans ?_
  exact Operation.on_bind_ok _ (on_existing world entry)

theorem fetchOne_keyed {key : String} {found : Option Entry}
    (located : (table.scan (some (hasKey key))).head? = found.map Entry.fields) :
    ((keyed config).fetchOne .background storage (some (keyFilter key))).on
      KeyValue.connection world = (.ok (found.map Entry.object), world) := by
  have answered := Operation.on_call_checked calls
    (KeyValue.Call.scan storage (some (hasKey key))) world
  simp only [KeyValue.Store.act, KeyValue.Store.scan, KeyValue.Store.table_eq holds] at answered
  have first : (Operation.ofExcept (I := KeyValue.interface) (Operation.ofStore
      (Cursor.ofList (table.scan (some (hasKey key)))).first)).on KeyValue.connection world =
      (.ok (found.map Entry.fields), world) := by
    rw [Operation.on_ofExcept, Cursor.first_ofList, located]
    rfl
  have asked : (Operation.ofExcept (I := KeyValue.interface)
      ((keyed config).condition storage (some (keyFilter key)))).on KeyValue.connection world =
      (.ok (some (hasKey key)), world) := rfl
  refine (Operation.on_bind_ok _ asked).trans ?_
  refine (Operation.on_bind_ok _ answered).trans ?_
  refine (Operation.on_bind_ok _ first).trans ?_
  rw [Operation.on_ofExcept]
  cases found with
  | none => rfl
  | some entry =>
      simp only [Option.map_some, RowMapper.toObject?, toObject_keyed]
      rfl

theorem represents_put {registry : Registry} (lists : registry.Lists table.Has) (entry : Entry) :
    Represents storage
      (world.store.withTable storage (table.put (stringKey entry.key) entry.fields))
      (registry.insert entry.key entry.object) :=
  ⟨_, KeyValue.Store.holds_put holds entry,
    Registry.lists_insert lists (KeyValue.Store.has_put_iff holds entry)⟩

theorem represents_erased {registry : Registry} (lists : registry.Lists table.Has) (key : String) :
    Represents storage (world.store.withTable storage (table.erase (stringKey key)))
      (registry.erase key) :=
  ⟨_, KeyValue.Store.holds_erase holds key,
    Registry.lists_erase lists (KeyValue.Store.has_erase_iff key)⟩

end

section

variable (config) (storage)

theorem create_refines (entry : Entry) :
    (keyed config).operations.RefinesAt KeyValue.connection storage (Represents storage)
      (.create entry) := by
  rintro world registry ⟨table, holds, lists⟩
  have put := run_put storage world entry.fields (some unused)
  cases found : registry.lookup entry.key with
  | some object =>
      have answered : registry.answer (.create entry) = (.error .duplicateEntry, registry) := by
        simp only [Registry.answer, found]
      obtain ⟨old, member, same, _⟩ := (lists entry.key object).mp found
      have unmet := KeyValue.Store.unused_held holds member
      rw [same] at unmet
      rw [KeyValue.Store.putItem_unmet holds unmet] at put
      have refused : (putNew .background storage idSpec entry.fields).on KeyValue.connection world =
          (.error .duplicateEntry, world) := Operation.on_bind_error _ (on_orUnmet_failed put)
      rw [answered]
      exact ⟨world, Operation.on_map Answer.count ((on_create holds entry).trans refused),
        table, holds, lists⟩
  | none =>
      have answered : registry.answer (.create entry) =
          (.ok (.count 1), registry.insert entry.key entry.object) := by
        simp only [Registry.answer, found]
      have met := KeyValue.Store.unused_free holds (Registry.free_of_lookup lists found)
      rw [KeyValue.Store.putItem_ok holds met] at put
      have written : (putNew .background storage idSpec entry.fields).on KeyValue.connection world =
          (.ok 1, _) := Operation.on_bind_ok _ (on_orUnmet_ok put)
      rw [answered]
      exact ⟨_, Operation.on_map Answer.count ((on_create holds entry).trans written),
        represents_put holds lists entry⟩

theorem update_refines (entry : Entry) :
    (keyed config).operations.RefinesAt KeyValue.connection storage (Represents storage)
      (.update entry) := by
  rintro world registry ⟨table, holds, lists⟩
  have put := Program.run_bind KeyValue.connection
    (KeyValue.putItem .background storage entry.fields (some (existingKey entry.key)))
    (fun answer => .done (answer.map fun _ => 1)) world
  rw [run_put] at put
  cases found : registry.lookup entry.key with
  | some object =>
      have answered : registry.answer (.update entry) =
          (.ok (.count 1), registry.insert entry.key entry.object) := by
        simp only [Registry.answer, found]
      obtain ⟨old, member, same, _⟩ := (lists entry.key object).mp found
      have met := KeyValue.Store.existing_held holds member
      rw [same] at met
      rw [KeyValue.Store.putItem_ok holds met] at put
      rw [answered]
      exact ⟨_, Operation.on_map Answer.count ((on_update holds entry).trans (on_orUnmet_ok put)),
        represents_put holds lists entry⟩
  | none =>
      have answered : registry.answer (.update entry) = (.ok (.count 0), registry) := by
        simp only [Registry.answer, found]
      have unmet := KeyValue.Store.existing_free holds (Registry.free_of_lookup lists found)
      rw [KeyValue.Store.putItem_unmet holds unmet] at put
      rw [answered]
      exact ⟨_, Operation.on_map Answer.count
        ((on_update holds entry).trans (on_orUnmet_failed put)), table, holds, lists⟩

theorem save_refines (entry : Entry) :
    (keyed config).operations.RefinesAt KeyValue.connection storage (Represents storage)
      (.save entry) := by
  rintro world registry ⟨table, holds, lists⟩
  have met : KeyValue.Store.checkCondition storage (table.get? (stringKey entry.key)) none =
      .ok () := rfl
  have put := Operation.on_call_checked calls (KeyValue.Call.putItem storage entry.fields none) world
  simp only [KeyValue.Store.act, KeyValue.Store.putItem_ok holds met] at put
  have saved : ((keyed config).save .background storage entry.object).on KeyValue.connection world =
      (.ok 1, _) := (on_save holds entry).trans (Operation.on_bind_ok _ put)
  exact ⟨_, Operation.on_map Answer.count saved, represents_put holds lists entry⟩

theorem delete_refines (entry : Entry) :
    (keyed config).operations.RefinesAt KeyValue.connection storage (Represents storage)
      (.delete entry) := by
  rintro world registry ⟨table, holds, lists⟩
  have delete := run_delete storage world [("id", .string entry.key)]
    (some (existingKey entry.key))
  cases found : registry.lookup entry.key with
  | some object =>
      have answered : registry.answer (.delete entry) =
          (.ok (.count 1), registry.erase entry.key) := by
        simp only [Registry.answer, found]
      obtain ⟨old, member, same, _⟩ := (lists entry.key object).mp found
      have present := KeyValue.Store.get?_held holds member
      have met := KeyValue.Store.existing_held holds member
      rw [same] at present met
      rw [KeyValue.Store.deleteItem_ok holds met, present] at delete
      have deleted : ((keyed config).delete .background storage entry.object).on
          KeyValue.connection world = (.ok 1, _) :=
        (on_delete holds entry).trans (Operation.on_bind_ok _ (on_orUnmet_ok delete))
      rw [answered]
      exact ⟨_, Operation.on_map Answer.count deleted, represents_erased holds lists entry.key⟩
  | none =>
      have answered : registry.answer (.delete entry) = (.ok (.count 0), registry) := by
        simp only [Registry.answer, found]
      have unmet := KeyValue.Store.existing_free holds (Registry.free_of_lookup lists found)
      rw [KeyValue.Store.deleteItem_unmet holds unmet] at delete
      have kept : ((keyed config).delete .background storage entry.object).on
          KeyValue.connection world = (.ok 0, world) :=
        (on_delete holds entry).trans (Operation.on_bind_ok _ (on_orUnmet_failed delete))
      rw [answered]
      exact ⟨_, Operation.on_map Answer.count kept, table, holds, lists⟩

theorem fetchOne_refines (key : String) :
    (keyed config).operations.RefinesAt KeyValue.connection storage (Represents storage)
      (.fetchOne key) := by
  rintro world registry ⟨table, holds, lists⟩
  obtain ⟨found, located, same⟩ := KeyValue.Store.head?_scan holds lists key
  refine ⟨world, ?_, table, holds, lists⟩
  rw [Registry.answer, ← same]
  exact Operation.on_map Answer.found (fetchOne_keyed holds located)

theorem refines : ∀ request,
    (keyed config).operations.RefinesAt KeyValue.connection storage (Represents storage) request
  | .create entry => create_refines config storage entry
  | .update entry => update_refines config storage entry
  | .save entry => save_refines config storage entry
  | .delete entry => delete_refines config storage entry
  | .fetchOne key => fetchOne_refines config storage key

theorem represents_fresh (store : StoreConfig) :
    Represents storage (({ config := store } : KeyValue.Store).createTable storage idSpec) ∅ := by
  refine ⟨{ spec := idSpec }, ⟨?_, rfl, List.Pairwise.nil, ?_⟩, Registry.lists_empty ?_⟩
  · simp [KeyValue.Store.createTable, Dict.insertNew, Dict.contains, Dict.get?]
  · intro item member
    cases member
  · intro entry member
    cases member

end

end KeyValueDao

end DataAccess
