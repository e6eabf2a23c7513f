import DataAccess.Proofs.Document.Agreement
import DataAccess.Proofs.Document.Uniqueness
import DataAccess.Proofs.Interleaving
import DataAccess.Proofs.Keyspace

namespace DataAccess

namespace Document

variable {keyspace : Keyspace} {key own : List Value} {index : List String}

theorem sameKey_of_under (usable : keyspace.Usable) (good : ∀ value ∈ key, value.isKey = true)
    (covered : ∀ column ∈ index, column ∈ keyspace.columns) {left right : Record}
    (leftUnder : keyspace.Under key left) (rightUnder : keyspace.Under key right) :
    sameKey left right index = true := by
  rw [sameKey, List.all_eq_true]
  intro column member
  have undotted := usable.undotted column (covered column member)
  have agree := List.map_inj_left.mp (leftUnder.trans rightUnder.symm) column
    (covered column member)
  obtain ⟨value, atKey, atLeft⟩ := leftUnder.exists_value (covered column member)
  have isKey := good value atKey
  rw [Record.field?_undotted undotted, Record.field?_undotted undotted, ← agree, atLeft]
  exact (Value.equal_iff_eq isKey isKey).mpr rfl

/-- The documents with a key, in a store with an index over its columns. -/
def contest (keyspace : Keyspace) (usable : keyspace.Usable) (key : List Value)
    (good : ∀ value ∈ key, value.isKey = true) (index : List String)
    (covered : ∀ column ∈ index, column ∈ keyspace.columns) (contexts : List Context) :
    Contest Store where
  contexts
  sound store := store.Sound ∧ index ∈ (store.collection keyspace.storage).indexes
  stored store :=
    (store.collection keyspace.storage).documents.countP fun document => keyspace.Under key document
  single store sound := by
    refine countP_le_one ((Store.sound_collection sound.1 keyspace.storage).apart index sound.2) ?_
    intro left right leftUnder rightUnder apart
    have under := of_decide_eq_true leftUnder
    have otherUnder := of_decide_eq_true rightUnder
    exact apart ⟨sameKey_of_under usable good covered under otherUnder,
      sameKey_of_under usable good covered otherUnder under⟩

theorem Collection.duplicateKey_of_checkUnique {name : String} {document : Record}
    {others : List Record} {indexes : List (List String)} {error : StoreError}
    (refused : checkUnique name document others indexes = .error error) :
    ∃ fault, error = .duplicateKey fault := by
  induction indexes with
  | nil => cases refused
  | cons index rest ih =>
      rw [checkUnique] at refused
      split at refused
      · cases refused
        exact ⟨_, rfl⟩
      · exact ih refused

theorem Store.collection_identify (store : Store) (name : String) (document : Record) :
    (store.identify document).2.collection name = store.collection name := by
  simp only [Store.collection, collections_identify]

theorem Store.collection_put (store : Store) (name : String) (collection : Collection) :
    (store.put name collection).collection name = collection := by
  simp [Store.collection, Store.put, Dict.get?_insert_self]

/-- An insert appends the document with its `_id`, or else a key is there already. -/
theorem Store.insert_cases (store : Store) (name : String) (document : Record) :
    (∃ id, store.insert name document =
      (.ok id, (store.identify document).2.put name
        { store.collection name with
            documents := (store.collection name).documents ++ [(store.identify document).1] })) ∨
      ∃ fault, store.insert name document =
        (.error (.duplicateKey fault), (store.identify document).2) := by
  simp only [Store.insert, Collection.insert, collection_identify]
  cases checked : Collection.checkUnique name (store.identify document).1
      (store.collection name).documents (store.collection name).indexes with
  | ok _ => exact .inl ⟨_, rfl⟩
  | error error =>
      obtain ⟨fault, rfl⟩ := Collection.duplicateKey_of_checkUnique checked
      exact .inr ⟨fault, rfl⟩

theorem Store.findOne_eq_ok (store : Store) (name : String) {filter : Record}
    (decides : ∀ record, ∃ holds, matches? record filter = .ok holds) :
    ∃ found, store.findOne name filter = .ok found := by
  choose holds decided using decides
  rw [Store.findOne, Store.find]
  cases Dict.get? store.collections name with
  | none => exact ⟨none, rfl⟩
  | some collection =>
      simp only [Collection.find, Collection.matching_eq fun document _ => decided document]
      exact ⟨_, rfl⟩

/-- An `_id` from the supply is no part of a key that the document has. -/
theorem under_identify (store : Store) {document : Record} (under : keyspace.Under own document) :
    keyspace.Under own (store.identify document).1 := by
  refine under.congr fun column member => ?_
  rw [Store.identify]
  split
  · rfl
  · rename_i unidentified
    refine Dict.get?_insert_of_ne _ _ ?_
    rintro rfl
    obtain ⟨value, _, found⟩ := under.exists_value member
    simp [Dict.contains, found] at unidentified

section

variable {usable : keyspace.Usable} {good : ∀ value ∈ key, value.isKey = true}
variable {covered : ∀ column ∈ index, column ∈ keyspace.columns} {contexts : List Context}
variable {context : Context} {contends : Bool}
variable {document : Record}

section

variable (connection : Connection interface Store)
variable (calls : connection.perform = Connection.checked Store.act)
variable (lasting : contends = true → context ∈ contexts)
variable (under : keyspace.Under own document) (same : contends = decide (own = key))

include calls lasting under same

theorem settles_insert : (contest keyspace usable key good index covered contexts).Settles
    connection contends 1 (do
      let _ ← Operation.ofCall (insertOne context keyspace.storage document)
      return 1 : Operation interface Nat).run := by
  refine Contest.settles_call calls lasting (fun error => ⟨_, rfl⟩) fun store sound => ?_
  have soundAfter : (store.insert keyspace.storage document).2.Sound :=
    Store.sound_insert sound.1 document
  rcases Store.insert_cases store keyspace.storage document with ⟨id, inserted⟩ | ⟨fault, refused⟩
  · rw [inserted] at soundAfter
    simp only [Store.act, inserted]
    refine ⟨⟨soundAfter, ?_⟩, contends.toNat, ?_, .inl ⟨_, rfl, .created⟩⟩
    · rw [Store.collection_put]
      exact sound.2
    · -- The new document counts if its key is the one in question, that is, for a contender.
      have added := under_identify store under
      have counted : (decide (keyspace.Under key (store.identify document).1)) = contends := by
        rw [same, decide_eq_decide]
        exact ⟨fun found => found.unique added, fun equal => equal ▸ added⟩
      simp only [contest, Store.collection_put, List.countP_append, List.countP_singleton, counted]
      cases contends <;> rfl
  · rw [refused] at soundAfter
    simp only [Store.act, refused]
    refine ⟨⟨soundAfter, ?_⟩, 0, ?_, .inl ⟨_, rfl, .failed _ fun _ => rfl⟩⟩
    · rw [Store.collection_identify]
      exact sound.2
    · simp only [contest, Store.collection_identify]
      rfl

theorem settles_insertNew {filter : Record}
    (decides : ∀ record, ∃ holds, matches? record filter = .ok holds) :
    (contest keyspace usable key good index covered contexts).Settles connection contends 2
      (DocumentDao.insertNew context keyspace.storage filter document).run := by
  refine Contest.settles_call calls lasting (fun error => ⟨_, rfl⟩) fun store sound => ?_
  refine ⟨sound, 0, rfl, ?_⟩
  obtain ⟨found, searched⟩ := Store.findOne_eq_ok store keyspace.storage decides
  simp only [Store.act, searched]
  -- Others may insert the document before the next turn; the index refuses it then.
  cases found with
  | some other => exact .inl ⟨_, rfl, .failed _ fun _ => rfl⟩
  | none => exact .inr ⟨trivial, settles_insert connection calls lasting under same⟩

end

end

end Document

namespace Keyspace

/-- Data access to the documents of a storage by its key. -/
def documents (keyspace : Keyspace) (config : DaoConfig) : DocumentDao where
  mapping := keyspace.mapping
  key := keyspace.primary.filter
  config := config

end Keyspace

namespace DocumentDao

open Document (matches?)

variable {keyspace : Keyspace} {key own : List Value} {object : BusinessObject}
variable {config : DaoConfig}

theorem exists_keyQuery (config : DaoConfig) (usable : keyspace.Usable)
    (named : keyspace.Names own object) :
    ∃ query, (keyspace.documents config).keyQuery keyspace.storage object = .ok query ∧
      ∀ record, ∃ holds, matches? record query = .ok holds := by
  obtain ⟨filter, asked, valid, read⟩ := named.exists_filter usable
  obtain ⟨query, queried, decided⟩ :=
    @exists_query (keyspace.documents config) keyspace.storage filter valid
      fun name atName => usable.ordinary _ (List.mem_map_of_mem (read name atName))
  refine ⟨query, ?_, fun record => ⟨_, decided record⟩⟩
  simp only [keyQuery, Keyspace.documents, asked]
  exact queried

theorem exists_prepared (config : DaoConfig) (usable : keyspace.Usable)
    (named : keyspace.Names own object) :
    ∃ query document, (keyspace.documents config).prepare keyspace.storage object =
        .ok (query, document) ∧
      (∀ record, ∃ holds, matches? record query = .ok holds) ∧ keyspace.Under own document := by
  obtain ⟨query, queried, decides⟩ := exists_keyQuery config usable named
  obtain ⟨row, mapped, _, under⟩ := named.exists_row usable
  have document : (keyspace.documents config).mapper.toRow keyspace.storage object = .ok row := by
    simp only [RowMapper.toRow, mapper, Keyspace.documents, mapped]
    rfl
  refine ⟨query, row, ?_, decides, under⟩
  simp only [prepare, queried, ok_bind, document]
  rfl

/-- A creation settles in two turns, or in one where it is a transaction. -/
theorem settles_create {usable : keyspace.Usable} {good : ∀ value ∈ key, value.isKey = true}
    {index : List String} {covered : ∀ column ∈ index, column ∈ keyspace.columns}
    {contexts : List Context} {contends : Bool} {context : Context}
    (lasting : contends = true → context ∈ contexts) (named : keyspace.Names own object)
    (same : contends = decide (own = key)) :
    (Document.contest keyspace usable key good index covered contexts).Settles Document.connection
      contends 2 ((keyspace.documents config).create context keyspace.storage object).run := by
  obtain ⟨query, document, prepared, decides, under⟩ := exists_prepared config usable named
  have created : (keyspace.documents config).create context keyspace.storage object =
      if config.transactionalCreate then
        Operation.inTransaction context config.isolation
          (insertNew context keyspace.storage query document)
      else insertNew context keyspace.storage query document := by
    simp only [create, prepared]
    rfl
  rw [created]
  split
  · refine Contest.Settles.succ (Contest.settles_inTransaction (fun _ => rfl) ?_ lasting
      (Document.settles_insertNew Document.connection.joined rfl lasting under same decides))
    intro after before sound
    exact ⟨sound, rfl⟩
  · exact Document.settles_insertNew Document.connection rfl lasting under same decides

end DocumentDao

end DataAccess
