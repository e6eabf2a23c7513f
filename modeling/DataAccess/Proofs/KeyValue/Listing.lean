import DataAccess.Proofs.KeyValue.Agreement
import DataAccess.Proofs.KeyValue.Refinement
import DataAccess.Proofs.Listing

namespace DataAccess

namespace KeyValue

theorem Store.Holds.exists_entries {store : Store} {storage : String} {table : Table}
    (holds : store.Holds storage table) :
    ∃ entries : List Entry,
      table.items = entries.map (fun entry => (stringKey entry.key, entry.fields)) ∧
      (entries.map Entry.key).Nodup ∧ ∀ entry, table.Has entry ↔ entry ∈ entries := by
  obtain ⟨entries, items⟩ : ∃ entries : List Entry,
      table.items = entries.map fun entry => (stringKey entry.key, entry.fields) := by
    have listed := holds.listed
    generalize table.items = items at listed
    induction items with
    | nil => exact ⟨[], rfl⟩
    | cons item rest ih =>
        obtain ⟨entry, rfl⟩ := listed item List.mem_cons_self
        obtain ⟨entries, rfl⟩ := ih fun other later => listed other (List.mem_cons_of_mem _ later)
        exact ⟨entry :: entries, rfl⟩
  refine ⟨entries, items, ?_, fun entry => ?_⟩
  · have sorted := holds.sorted
    rw [items, Table.Sorted, List.pairwise_map] at sorted
    refine List.pairwise_map.mpr (sorted.imp ?_)
    exact fun before same => ne_of_keyOrder_lt before (congrArg stringKey same.symm)
  · rw [Table.Has, items, List.mem_map]
    constructor
    · rintro ⟨other, member, same⟩
      rwa [← Entry.eq_of_fields (Prod.mk.inj same).2]
    · exact fun member => ⟨entry, member, rfl⟩

end KeyValue

namespace KeyValueDao

open KeyValue (stringKey)

variable {storage : String} {config : DaoConfig} {entries : List Entry}
variable {filter : Filter} {sorting : Sorting} {name : String}

theorem faithful_keyed (plain : Path.Plain name) :
    (keyed config).mapper.Faithful storage name where
  plain := plain
  returns := rfl
  undotted := plain.undotted

theorem settled_of_document {object : BusinessObject} {test : Filter}
    (settled : DocumentDao.Settled object test) : Settled object test := by
  cases test with
  | compare field op value => exact settled.2
  | compareFields left op right => exact fun _ => settled
  | _ => trivial

theorem item_eq (entry : Entry) :
    Dict.filterValues (!·.isNull) ((keyed config).mapper.renamed storage entry.fields) =
      entry.fields := by
  rw [renamed_keyed]
  exact Dict.filterValues_eq_self fun value member => by simp [entry.noNulls value member]

theorem exists_condition_keyed (storage : String) (config : DaoConfig)
    (listable : Listable entries filter sorting) :
    ∃ condition, (keyed config).condition storage (some filter) = .ok (some condition) ∧
      ∀ entry ∈ entries, condition.evaluate entry.fields = filter.evaluate entry.object := by
  obtain ⟨condition, asked, evaluated⟩ :=
    @exists_condition (keyed config) storage filter listable.valid
  refine ⟨condition, asked, fun entry member => ?_⟩
  rw [evaluated, Filter.evaluate_eq_combine]
  refine Filter.combine_congr fun test atTest => ?_
  have returns : ∀ name ∈ Dict.keys entry.fields, (keyed config).mapper.Returns storage name :=
    returns_keyed entry.fields
  have faithful : ∀ name ∈ test.testFields, (keyed config).mapper.Faithful storage name :=
    fun name atName =>
      faithful_keyed (listable.read name (Filter.fields_of_mem atTest atName)).toPlain
  have agrees := testHolds_eq_evaluate rfl entry.distinct returns (Filter.isTest_of_mem atTest)
    faithful (settled_of_document (listable.settled entry member test atTest))
  rw [item_eq] at agrees
  exact agrees

theorem sortRows_keyed (listable : Listable entries filter sorting) :
    (keyed config).mapper.sortRows storage sorting
        ((entries.filter fun entry => filter.evaluate entry.object).map Entry.fields) =
      (Entry.selected filter sorting entries).map Entry.fields := by
  refine Entry.sort_map (fun entry _ key listed => ?_) fun entry member => ?_
  · have plain := (listable.sorted key listed).toPlain
    rw [columnOf_keyed, Record.field?_undotted plain.undotted, Entry.attribute?_eq entry plain]
  · exact listable.sortable entry (List.mem_filter.mp member).1

/-- A search finds the selected entries of a table, cut to a page. -/
theorem fetchMany_keyed {world : World KeyValue.Store} {table : KeyValue.Table}
    (holds : world.store.Holds storage table)
    (items : table.items = entries.map fun entry => (stringKey entry.key, entry.fields))
    (listable : Listable entries filter sorting) (offset limit : Nat) :
    ((keyed config).fetchMany .background storage (some filter) sorting offset limit).on
        KeyValue.connection world =
      (.ok ((page (Entry.selected filter sorting entries) offset limit).map Entry.object),
        world) := by
  obtain ⟨condition, asked, agrees⟩ := exists_condition_keyed storage config listable
  have scanned : table.scan (some condition) =
      (entries.filter fun entry => filter.evaluate entry.object).map Entry.fields := by
    rw [KeyValue.Table.scan, items, List.map_map, List.filter_map]
    exact congrArg _ (List.filter_congr agrees)
  have queried : (Operation.ofExcept (I := KeyValue.interface)
      ((keyed config).condition storage (some filter))).on KeyValue.connection world =
      (.ok (some condition), world) := by
    rw [Operation.on_ofExcept, asked]
  have answered := Operation.on_call_checked calls
    (KeyValue.Call.scan storage (some condition)) world
  simp only [KeyValue.Store.act, KeyValue.Store.scan, KeyValue.Store.table_eq holds] at answered
  have collected : (Operation.ofExcept (I := KeyValue.interface) (Operation.ofStore
      (Cursor.ofList (table.scan (some condition))).collect)).on KeyValue.connection world =
      (.ok (table.scan (some condition)), world) := by
    rw [Operation.on_ofExcept, Cursor.collect_ofList]
    rfl
  refine (Operation.on_bind_ok _ queried).trans ?_
  refine (Operation.on_bind_ok _ answered).trans ?_
  refine (Operation.on_bind_ok _ collected).trans ?_
  rw [Operation.on_ofExcept, scanned, sortRows_keyed listable, page_map,
    RowMapper.decodeAll_map toObject_keyed]

end KeyValueDao

end DataAccess
