import DataAccess.Proofs.Document.Listing
import DataAccess.Proofs.KeyValue.Listing
import Mathlib.Data.List.Permutation

namespace DataAccess

variable {created : List Entry} {filter : Filter} {sorting : Sorting}

theorem DocumentDao.createAndList_keyed (storage : String) (declared : ColumnUse)
    (config : DaoConfig) (ids : Document.IdSupply) (stores : StoreConfig)
    (surroundings : Surroundings) (distinct : (created.map Entry.key).Nodup)
    (listable : Listable created filter sorting) (offset limit : Nat) :
    (((keyed storage declared config).operations.createAndList storage created filter sorting
        offset limit).on Document.connection
          { store := { ids, config := stores }, surroundings }).1 =
      .ok ((page (Entry.selected filter sorting created) offset limit).map Entry.object) := by
  obtain ⟨after, full, ran, ⟨held, holds, lists⟩, listsCreated⟩ :=
    Dao.createAll_fresh (create_refines storage declared config) distinct
      { store := { ids, config := stores }, surroundings } (represents_fresh storage ids stores)
  have rearranged := Registry.perm_of_lists listsCreated lists distinct holds.distinct
  rw [Dao.createAndList, Operation.on_bind_ok _ ran,
    Entry.selected_eq_of_perm listable.byId distinct rearranged]
  exact congrArg Prod.fst (fetchMany_keyed holds (listable.perm rearranged) offset limit)

theorem KeyValueDao.createAndList_keyed (storage : String) (config : DaoConfig)
    (stores : StoreConfig) (surroundings : Surroundings) (distinct : (created.map Entry.key).Nodup)
    (listable : Listable created filter sorting) (offset limit : Nat) :
    (((keyed config).operations.createAndList storage created filter sorting offset limit).on
        KeyValue.connection
          { store := ({ config := stores } : KeyValue.Store).createTable storage
              { partitionKey := "id" }
            surroundings }).1 =
      .ok ((page (Entry.selected filter sorting created) offset limit).map Entry.object) := by
  obtain ⟨after, full, ran, ⟨table, holds, lists⟩, listsCreated⟩ :=
    Dao.createAll_fresh (create_refines config storage) distinct
      { store := ({ config := stores } : KeyValue.Store).createTable storage KeyValue.idSpec
        surroundings } (represents_fresh storage stores)
  -- Items stand in the order of their keys, which rearranges what was created.
  obtain ⟨held, items, heldDistinct, same⟩ := holds.exists_entries
  have listsHeld : full.Lists (· ∈ held) := (funext fun entry => propext (same entry)) ▸ lists
  have rearranged := Registry.perm_of_lists listsCreated listsHeld distinct heldDistinct
  rw [Dao.createAndList]
  refine (congrArg Prod.fst (Operation.on_bind_ok _ ran)).trans ?_
  rw [Entry.selected_eq_of_perm listable.byId distinct rearranged]
  exact congrArg Prod.fst (fetchMany_keyed holds items (listable.perm rearranged) offset limit)

/-- However objects with different ids are created, in documents and in items, both stores give the
same list of those that satisfy a filter: sorted by the keys of the sorting in the order of their
priority, without the first `offset` objects and cut to `limit` of them, unless that is 0. -/
theorem stores_list_alike {entries documents items : List Entry}
    (distinct : (entries.map Entry.key).Nodup) (inDocuments : entries.Perm documents)
    (inItems : entries.Perm items) (listable : Listable entries filter sorting)
    (offset limit : Nat) (storage : String) (declared : ColumnUse) (config : DaoConfig)
    (ids : Document.IdSupply) (stores : StoreConfig) (surroundings : Surroundings) :
    ∃ sorted, sorted.Perm (filter.select (entries.map Entry.object)) ∧
      sorted.Pairwise (fun left right =>
        sorting.compareBy Value.totalOrder BusinessObject.attribute? left right = .lt) ∧
      (((DocumentDao.keyed storage declared config).operations.createAndList storage documents
          filter sorting offset limit).on Document.connection
            { store := { ids, config := stores }, surroundings }).1 =
        .ok (page sorted offset limit) ∧
      (((KeyValueDao.keyed config).operations.createAndList storage items filter sorting offset
          limit).on KeyValue.connection
            { store := ({ config := stores } : KeyValue.Store).createTable storage
                { partitionKey := "id" }
              surroundings }).1 =
        .ok (page sorted offset limit) := by
  have documentKeys := (inDocuments.map Entry.key).nodup_iff.mp distinct
  have itemKeys := (inItems.map Entry.key).nodup_iff.mp distinct
  refine ⟨(Entry.selected filter sorting entries).map Entry.object, ?_, ?_, ?_, ?_⟩
  · rw [Filter.select, List.filter_map]
    exact (Entry.perm_selected filter sorting entries).map Entry.object
  · exact List.pairwise_map.mpr (Entry.pairwise_selected listable distinct)
  · rw [page_map, Entry.selected_eq_of_perm listable.byId distinct inDocuments]
    exact DocumentDao.createAndList_keyed storage declared config ids stores surroundings
      documentKeys (listable.perm inDocuments) offset limit
  · rw [page_map, Entry.selected_eq_of_perm listable.byId distinct inItems]
    exact KeyValueDao.createAndList_keyed storage config stores surroundings itemKeys
      (listable.perm inItems) offset limit

namespace Listable

/-- Someone with a name and a year of birth. -/
def person (key name : String) (born : Number) : Entry where
  fields := [("name", .string name), ("id", .string key), ("born", .number born)]
  key
  distinct := by simp [Dict.Distinct, Dict.keys]
  keyed := rfl
  noNulls := by simp [Dict.values, Value.isNull]
  unclaimed := by simp [Dict.keys]

def ada : Entry := person "1" "Ada" (.int ⟨1815, by decide, by decide⟩)

def grace : Entry := person "2" "Grace" (.int ⟨1906, by decide, by decide⟩)

def alan : Entry := person "3" "Alan" (.int ⟨1912, by decide, by decide⟩)

def notGrace : Filter := .allOf [.compare "name" .notEqual (.string "Grace"), .isNotNull "born"]

def youngestFirst : Sorting :=
  [{ field := "born", descending := true }, { field := "id", descending := false }]

theorem listable_people : Listable [ada, grace, alan] notGrace youngestFirst where
  valid := by decide
  read := by decide
  settled := by
    intro entry member test atTest
    simp only [List.mem_cons, List.not_mem_nil, or_false] at member
    rcases List.mem_pair.mp atTest with rfl | rfl
    · refine ⟨rfl, fun _ => ?_⟩
      rcases member with rfl | rfl | rfl
      · exact ⟨.string "Ada", .string "Grace", by decide, rfl, rfl, by decide⟩
      · exact ⟨.string "Grace", .string "Grace", by decide, rfl, rfl, by decide⟩
      · exact ⟨.string "Alan", .string "Grace", by decide, rfl, rfl, by decide⟩
    · trivial
  sorted := by decide
  distinct := by decide
  byId := by decide
  sortable := by decide

def noIds : Document.IdSupply := { name := fun _ => "none" }

theorem youngest_is_alan :
    (((DocumentDao.keyed "people" .renamed {}).operations.createAndList "people"
        [alan, grace, ada] notGrace youngestFirst 0 1).on Document.connection
          { store := { ids := noIds } }).1 = .ok [alan.object] ∧
      (((KeyValueDao.keyed {}).operations.createAndList "people" [grace, ada, alan] notGrace
        youngestFirst 0 1).on KeyValue.connection
          { store := ({} : KeyValue.Store).createTable "people" { partitionKey := "id" } }).1 =
        .ok [alan.object] := by
  obtain ⟨sorted, selected, ordered, documents, items⟩ :=
    @stores_list_alike notGrace youngestFirst [ada, grace, alan] [alan, grace, ada]
      [grace, ada, alan] (by decide) (List.reverse_perm _).symm (.swap grace ada [alan])
      listable_people 0 1 "people" .renamed {} noIds {} {}
  have chosen : notGrace.select ([ada, grace, alan].map Entry.object) =
      [ada.object, alan.object] := by
    decide
  rw [chosen] at selected
  -- Two are selected, and only one of their two orders is sorted.
  have unique : sorted = [alan.object, ada.object] := by
    rcases List.perm_pair.mp selected with rfl | rfl
    · exact absurd ordered (by decide)
    · rfl
  rw [documents, items, unique]
  exact ⟨rfl, rfl⟩

end Listable

end DataAccess
