import DataAccess.Proofs.Document.Refinement
import DataAccess.Proofs.Document.Sorting
import DataAccess.Proofs.Listing

namespace DataAccess

namespace DocumentDao

variable {storage : String} {declared : ColumnUse} {config : DaoConfig} {entries : List Entry}
variable {filter : Filter} {sorting : Sorting} {name : String}

theorem faithful_keyed (ordinary : Path.Ordinary name) :
    (keyed storage declared config).mapper.Faithful storage name where
  plain := ordinary.toPlain
  returns := returns_keyed ordinary.unclaimed
  undotted := by
    rw [columnOf_keyed, idColumn]
    split
    · decide
    · exact ordinary.undotted

theorem isOperator_columnOf_keyed (ordinary : Path.Ordinary name) :
    Document.isOperator ((keyed storage declared config).mapper.columnOf storage name) = false := by
  rw [columnOf_keyed, idColumn]
  split
  · decide
  · exact ordinary.ordinary

theorem field?_document (entry : Entry) (ordinary : Path.Ordinary name) :
    Record.field? entry.document ((keyed storage declared config).mapper.columnOf storage name) =
      entry.object.attribute? name := by
  rw [← renamed_keyed entry, RowMapper.field?_renamed (entry_returns entry)
    (faithful_keyed ordinary), Entry.attribute?_eq entry ordinary.toPlain]

theorem exists_query_keyed (storage : String) (declared : ColumnUse) (config : DaoConfig)
    (listable : Listable entries filter sorting) :
    ∃ query, ∃ test : Record → Bool,
      (keyed storage declared config).query storage (some filter) = .ok query ∧
      (∀ row, Document.matches? row query = .ok (test row)) ∧
      ∀ entry ∈ entries, test entry.document = filter.evaluate entry.object := by
  obtain ⟨query, asked, decided⟩ := @exists_query (keyed storage declared config) storage filter
    listable.valid fun name member => isOperator_columnOf_keyed (listable.read name member)
  refine ⟨query, _, asked, decided, fun entry member => ?_⟩
  rw [Filter.evaluate_eq_combine]
  refine Filter.combine_congr fun test atTest => ?_
  rw [← renamed_keyed entry]
  exact testHolds_eq_evaluate rfl (entry_returns entry) (Filter.isTest_of_mem atTest)
    (fun name atName => faithful_keyed (listable.read name (Filter.fields_of_mem atTest atName)))
    (listable.settled entry member test atTest)

theorem nodup_columns (listable : Listable entries filter sorting) :
    (((keyed storage declared config).mapper.sortKeys storage sorting).map
      SortKey.field).Nodup := by
  have columns :
      ((keyed storage declared config).mapper.sortKeys storage sorting).map SortKey.field =
        (sorting.map SortKey.field).map ((keyed storage declared config).mapper.columnOf storage) := by
    simp [RowMapper.sortKeys, Function.comp_def]
  have returns : ∀ name ∈ sorting.map SortKey.field,
      (keyed storage declared config).mapper.Returns storage name :=
    List.forall_mem_map.mpr fun key member => returns_keyed (listable.sorted key member).unclaimed
  rw [columns]
  refine List.Nodup.map_on ?_ listable.distinct
  exact fun name member other otherMember same =>
    RowMapper.columnOf_injective (returns other otherMember) (returns name member) same

theorem find_keyed {store : Document.Store} {query : Record} {test : Record → Bool}
    (holds : store.Holds storage entries) (listable : Listable entries filter sorting)
    (decided : ∀ row, Document.matches? row query = .ok (test row))
    (agrees : ∀ entry ∈ entries, test entry.document = filter.evaluate entry.object)
    (offset limit : Nat) :
    store.find storage query
        ((keyed storage declared config).options storage sorting offset limit) =
      .ok ((page (Entry.selected filter sorting entries) offset limit).map Entry.document) := by
  have matched : (entries.map Entry.document).filter test =
      (entries.filter fun entry => filter.evaluate entry.object).map Entry.document := by
    rw [List.filter_map]
    exact congrArg _ (List.filter_congr agrees)
  have found : Document.Collection.matching query (store.collection storage).documents =
      .ok ((entries.filter fun entry => filter.evaluate entry.object).map Entry.document) := by
    rw [holds.collection, ← matched]
    exact Document.Collection.matching_eq fun document _ => decided document
  have sorted : ((keyed storage declared config).mapper.sortKeys storage sorting).sort
      ((entries.filter fun entry => filter.evaluate entry.object).map Entry.document) =
        (Entry.selected filter sorting entries).map Entry.document := by
    refine Entry.sort_map (fun entry _ key listed => ?_) fun entry member => ?_
    · exact field?_document entry (listable.sorted key listed)
    · exact listable.sortable entry (List.mem_filter.mp member).1
  rw [find_options _ found, Sorting.collapsed_of_distinct (nodup_columns listable), sorted, page_map]

/-- A search finds the selected entries of a collection, cut to a page. -/
theorem fetchMany_keyed {world : World Document.Store} (holds : world.store.Holds storage entries)
    (listable : Listable entries filter sorting) (offset limit : Nat) :
    ((keyed storage declared config).fetchMany .background storage (some filter) sorting offset
        limit).on Document.connection world =
      (.ok ((page (Entry.selected filter sorting entries) offset limit).map Entry.object),
        world) := by
  obtain ⟨query, test, asked, decided, agrees⟩ :=
    exists_query_keyed storage declared config listable
  have queried : (Operation.ofExcept (I := Document.interface)
      ((keyed storage declared config).query storage (some filter))).on Document.connection world =
      (.ok query, world) := by
    rw [Operation.on_ofExcept, asked]
  have answered := Operation.on_call_checked plainCalls (Document.Call.find storage query
    ((keyed storage declared config).options storage sorting offset limit)) world
  simp only [Document.Store.act, find_keyed holds listable decided agrees offset limit] at answered
  refine (Operation.on_bind_ok _ queried).trans ((Operation.on_bind_ok _ answered).trans ?_)
  rw [Operation.on_ofExcept, RowMapper.decodeAll_map toObject_keyed]

end DocumentDao

end DataAccess
