import DataAccess.Document.Store
import DataAccess.Proofs.Document.Collection
import DataAccess.Proofs.Document.Matching
import DataAccess.Proofs.Registry
import DataAccess.Proofs.Value

namespace DataAccess

def idColumn (field : String) : String := if field = "id" then "_id" else field

/-- The document of an entry, whose `_id` is the key. -/
def Entry.document (entry : Entry) : Record :=
  entry.fields.map fun field => (idColumn field.1, field.2)

/-- The filter document for the record under a key. -/
def Document.idQuery (key : String) : Record :=
  [(idField, .map [(operatorName .equal, .string key)])]

namespace Entry

variable {entries : List Entry} {entry old other : Entry} {key : String} {position : Nat}

theorem get?_document (entry : Entry) :
    Dict.get? entry.document Document.idField = some (.string entry.key) := by
  have apart : ∀ other ∈ Dict.keys entry.fields, idColumn other = idColumn "id" → other = "id" := by
    intro other member same
    by_contra different
    have claimed : other = "_id" := by simpa [idColumn, different] using same
    exact entry.unclaimed (claimed ▸ member)
  rw [← entry.keyed]
  exact Dict.get?_map_keys apart

theorem field?_document (entry : Entry) :
    Record.field? entry.document Document.idField = some (.string entry.key) := by
  simp only [Record.field?, get?_document]

theorem sameKey_document (entry other : Entry) :
    Document.sameKey entry.document other.document [Document.idField] = (entry.key == other.key) := by
  simp [Document.sameKey, field?_document, Value.equal_string]

theorem contains_document (entry : Entry) :
    Dict.contains entry.document Document.idField = true := by
  simp [Dict.contains, get?_document]

theorem matches?_document (entry : Entry) (key : String) :
    Document.matches? entry.document (Document.idQuery key) = .ok (entry.key == key) := by
  have ordinary : Document.isOperator Document.idField = false := by decide
  have matched : Document.entriesHold entry.document (Document.idQuery key) =
      .ok (entry.key == key) := by
    rw [Document.idQuery, Document.entriesHold_field ordinary, Document.fieldHolds_operator,
      field?_document, ← Value.equal_string]
    rfl
  simp only [Document.matches?, matched]

/-- The query for its key adds nothing to a document. -/
theorem seed_document (entry : Entry) :
    Document.seed entry.document (Document.idQuery entry.key) = entry.document := by
  have ordinary : Document.isOperator Document.idField = false := by decide
  rw [Document.idQuery, Document.seed_present ordinary entry.contains_document, Document.seed]

section

variable (distinct : (entries.map Entry.key).Nodup)

include distinct

theorem eq_of_key (member : old ∈ entries) (otherMember : other ∈ entries)
    (same : old.key = other.key) : old = other :=
  List.inj_on_of_nodup_map distinct member otherMember same

theorem find?_key (member : old ∈ entries) : entries.find? (·.key == old.key) = some old := by
  cases found : entries.find? (·.key == old.key) with
  | none =>
      have different := List.find?_eq_none.mp found old member
      simp at different
  | some other =>
      have same : other.key = old.key := by simpa using List.find?_some found
      rw [eq_of_key distinct (List.mem_of_find?_eq_some found) member same]

/-- Two positions hold one key only if they are the same. -/
theorem position_eq {first second : Nat} (atFirst : entries[first]? = some old)
    (atSecond : entries[second]? = some other) (same : old.key = other.key) : first = second := by
  have keyAtFirst : (entries.map Entry.key)[first]? = some old.key := by simp [atFirst]
  have keyAtSecond : (entries.map Entry.key)[second]? = some old.key := by simp [atSecond, same]
  have inside : first < (entries.map Entry.key).length := (List.getElem?_eq_some_iff.mp keyAtFirst).1
  exact (List.getElem?_inj inside distinct).mp (keyAtFirst.trans keyAtSecond.symm)

theorem mem_set_iff (located : entries[position]? = some old) (same : old.key = entry.key) :
    other ∈ entries.set position entry ↔ other = entry ∨ other ∈ entries ∧ other.key ≠ entry.key := by
  constructor
  · intro member
    obtain ⟨index, found⟩ := List.mem_iff_getElem?.mp member
    by_cases here : position = index
    · subst here
      have inside : position < entries.length := (List.getElem?_eq_some_iff.mp located).1
      rw [List.getElem?_set_self inside] at found
      exact .inl (Option.some.inj found).symm
    · rw [List.getElem?_set_ne here] at found
      refine .inr ⟨List.mem_of_getElem? found, fun equal => here ?_⟩
      exact position_eq distinct located found (same.trans equal.symm)
  · rintro (rfl | ⟨member, different⟩)
    · exact List.mem_set (List.getElem?_eq_some_iff.mp located).1 _
    · obtain ⟨index, found⟩ := List.mem_iff_getElem?.mp member
      have elsewhere : position ≠ index := by
        rintro rfl
        rw [located] at found
        exact different (Option.some.inj found ▸ same)
      exact List.mem_of_getElem? ((List.getElem?_set_ne elsewhere).trans found)

theorem nodup_set (located : entries[position]? = some old) (same : old.key = entry.key) :
    ((entries.set position entry).map Entry.key).Nodup := by
  have unchanged : (entries.set position entry).map Entry.key = entries.map Entry.key := by
    have keyAt : (entries.map Entry.key)[position]? = some entry.key := by simp [located, same]
    obtain ⟨inside, keyAt⟩ := List.getElem?_eq_some_iff.mp keyAt
    rw [List.map_set, ← keyAt, List.set_getElem_self]
  rw [unchanged]
  exact distinct

theorem key_ne_of_mem_eraseIdx (located : entries[position]? = some old)
    (member : other ∈ entries.eraseIdx position) : other.key ≠ old.key := by
  obtain ⟨index, elsewhere, found⟩ := List.mem_eraseIdx_iff_getElem?.mp member
  exact fun same => elsewhere (position_eq distinct found located same)

theorem eraseP_key (key : String) :
    entries.eraseP (·.key == key) = entries.filter (·.key != key) := by
  induction entries with
  | nil => rfl
  | cons entry rest ih =>
      obtain ⟨fresh, distinctRest⟩ := List.nodup_cons.mp distinct
      by_cases same : entry.key = key
      · have others : ∀ other ∈ rest, (other.key != key) = true := by
          intro other later
          have apart : other.key ≠ entry.key := fun equal =>
            fresh (equal ▸ List.mem_map_of_mem later)
          simpa [same] using apart
        simp [same, List.filter_eq_self.mpr others]
      · simp [same, ih distinctRest]

end

end Entry

namespace Document.Store

variable {store : Store} {storage key : String} {entries : List Entry} {entry old : Entry}
variable {position : Nat}

/-- A collection without further indexes holds the documents of entries with distinct keys. -/
structure Holds (store : Store) (storage : String) (entries : List Entry) : Prop where
  collection : store.collection storage = { documents := entries.map Entry.document }
  distinct : (entries.map Entry.key).Nodup

theorem holds_put (store : Store) (storage : String) (distinct : (entries.map Entry.key).Nodup) :
    (store.put storage { documents := entries.map Entry.document }).Holds storage entries where
  collection := by simp [Store.collection, put, Dict.get?_insert_self]
  distinct := distinct

theorem find_eq_find_collection (options : FindOptions) (unsorted : options.sort = none)
    (filter : Record) :
    store.find storage filter options = (store.collection storage).find filter options := by
  rw [find, Store.collection]
  cases Dict.get? store.collections storage with
  | some collection => rfl
  | none =>
      simp only [Option.getD_none, Collection.find, Collection.matching, unsorted]
      cases options.limit <;> simp [bind, Except.bind, pure, Except.pure]

def hasKey (key : String) (document : Record) : Bool :=
  Record.field? document idField == some (.string key)

theorem hasKey_document (key : String) (entry : Entry) :
    hasKey key entry.document = (entry.key == key) := by
  simp [hasKey, Entry.field?_document]

theorem hasKey_comp (key : String) : hasKey key ∘ Entry.document = (·.key == key) :=
  funext (hasKey_document key)

/-- The query for a key decides on each document by its key. -/
theorem decides (key : String) : ∀ document ∈ entries.map Entry.document,
    matches? document (idQuery key) = .ok (hasKey key document) := by
  intro document member
  obtain ⟨entry, _, rfl⟩ := List.mem_map.mp member
  rw [Entry.matches?_document, hasKey_document]

theorem checkUnique_document {others : List Entry}
    (fresh : ∀ other ∈ others, other.key ≠ entry.key) :
    Collection.checkUnique storage entry.document (others.map Entry.document) [[idField]] =
      .ok () := by
  refine Collection.checkUnique_eq_ok.mpr ?_
  intro index listed document member
  obtain ⟨other, atOther, rfl⟩ := List.mem_map.mp member
  rw [List.mem_singleton.mp listed, Entry.sameKey_document]
  exact beq_eq_false_iff_ne.mpr (fresh other atOther).symm

section

variable (holds : store.Holds storage entries)

include holds

theorem findOne_eq (key : String) : store.findOne storage (idQuery key) =
    .ok ((entries.find? (·.key == key)).map Entry.document) := by
  rw [findOne, find_eq_find_collection _ rfl, holds.collection]
  simp only [Collection.find, Collection.matching_eq (decides key), List.filter_map, hasKey_comp]
  simp [bind, Except.bind, pure, Except.pure, List.head?_take, List.head?_filter]

theorem insert_eq (fresh : ∀ other ∈ entries, other.key ≠ entry.key) :
    store.insert storage entry.document = (.ok (.string entry.key),
      store.put storage { documents := (entries ++ [entry]).map Entry.document }) := by
  have named : store.identify entry.document = (entry.document, store) := by
    simp [identify, Entry.contains_document]
  have inserted : (store.collection storage).insert storage entry.document =
      .ok { documents := (entries ++ [entry]).map Entry.document } := by
    rw [holds.collection]
    simp only [Collection.insert, Collection.indexes, checkUnique_document fresh, List.map_append,
      List.map_singleton]
    rfl
  simp only [insert, named, inserted, Entry.get?_document]
  rfl

theorem locate_eq (key : String) : store.locate storage (idQuery key) =
    .ok ((entries.findIdx? (·.key == key)).bind fun position =>
      entries[position]?.map fun entry => (position, entry.document)) := by
  have positioned : Collection.position? (idQuery key) (entries.map Entry.document) =
      .ok (entries.findIdx? (·.key == key)) := by
    rw [Collection.position?_eq (decides key), List.findIdx?_map, hasKey_comp]
  simp only [locate, holds.collection, positioned, List.getElem?_map, Option.map_map]
  rfl

/-- A replacement takes the place of the document with its key. -/
theorem replace_held (located : entries.findIdx? (·.key == entry.key) = some position)
    (upsert : Bool) :
    ∃ modified, store.replace storage (idQuery entry.key) entry.document upsert =
      (.ok { matched := 1, modified },
        store.put storage { documents := (entries.set position entry).map Entry.document }) := by
  obtain ⟨inside, atPosition, _⟩ := List.findIdx?_eq_some_iff_getElem.mp located
  have old : entries[position]? = some entries[position] := List.getElem?_eq_getElem inside
  have same : entries[position].key = entry.key := beq_iff_eq.mp atPosition
  have found : store.locate storage (idQuery entry.key) =
      .ok (some (position, entries[position].document)) := by
    rw [locate_eq holds, located, Option.bind_some, old]
    rfl
  have kept : Collection.replacement entries[position].document entry.document =
      .ok entry.document := by
    simp [Collection.replacement, Entry.get?_document, Value.equal_string, same]
  have unique : Collection.checkUnique storage entry.document
      ((entries.map Entry.document).eraseIdx position) [[idField]] = .ok () := by
    rw [List.eraseIdx_map]
    refine checkUnique_document fun other member => ?_
    rw [← same]
    exact Entry.key_ne_of_mem_eraseIdx holds.distinct old member
  obtain ⟨modified, replaced⟩ : ∃ modified, (store.collection storage).replaceAt storage position
      entries[position].document entry.document = .ok ({ matched := 1, modified },
        { documents := (entries.set position entry).map Entry.document }) := by
    rw [holds.collection, List.map_set]
    exact ⟨_, bind_eq_ok.mpr ⟨_, kept, bind_eq_ok.mpr ⟨(), unique, rfl⟩⟩⟩
  refine ⟨modified, ?_⟩
  simp only [replace, found, replaced]

section

variable (fresh : ∀ other ∈ entries, other.key ≠ entry.key)

include fresh

theorem locate_free : store.locate storage (idQuery entry.key) = .ok none := by
  have missing : entries.findIdx? (·.key == entry.key) = none := by
    simpa [List.findIdx?_eq_none_iff] using fresh
  rw [locate_eq holds, missing]
  rfl

theorem replace_free :
    store.replace storage (idQuery entry.key) entry.document false = (.ok {}, store) := by
  simp [replace, locate_free holds fresh]

theorem upsert_free :
    store.replace storage (idQuery entry.key) entry.document true =
      (.ok { upserted := some (.string entry.key) },
        store.put storage { documents := (entries ++ [entry]).map Entry.document }) := by
  simp only [replace, locate_free holds fresh, Entry.seed_document, insert_eq holds fresh]
  rfl

end

theorem delete_eq (key : String) :
    ∃ after, store.delete storage (idQuery key) false =
        (.ok (entries.any (·.key == key)).toNat, after) ∧
      after.Holds storage (entries.filter (·.key != key)) := by
  have removed : Collection.remove (idQuery key) false (entries.map Entry.document) =
      .ok ((entries.any (·.key == key)).toNat,
        (entries.filter (·.key != key)).map Entry.document) := by
    rw [Collection.remove_one_eq (decides key), List.any_map, List.eraseP_map, hasKey_comp,
      Entry.eraseP_key holds.distinct]
  have distinct : ((entries.filter (·.key != key)).map Entry.key).Nodup :=
    holds.distinct.sublist (List.filter_sublist.map _)
  have collection := holds.collection
  rw [Store.collection] at collection
  cases found : Dict.get? store.collections storage with
  | none =>
      rw [found] at collection
      have empty : entries = [] := by
        simpa using (congrArg Collection.documents collection).symm
      subst empty
      exact ⟨store, by simp [delete, found], holds⟩
  | some held =>
      rw [found, Option.getD_some] at collection
      refine ⟨_, ?_, holds_put store storage distinct⟩
      simp only [delete, found, collection, removed]

end

end Document.Store

end DataAccess
