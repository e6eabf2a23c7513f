import DataAccess.Document.Store
import DataAccess.Proofs.Except
import DataAccess.Proofs.RowMapper
import DataAccess.Proofs.Value

namespace DataAccess.RowMapper

variable {mapper : RowMapper} {storage : String} {object : BusinessObject} {fields : Record}

theorem filterValues_renamed (keep : Value → Bool) :
    Dict.filterValues keep (mapper.renamed storage fields) =
      mapper.renamed storage (Dict.filterValues keep fields) := by
  rw [Dict.filterValues, renamed, List.filter_map]
  rfl

/-- Entries that are dropped by their values are missing from the object and nothing else is. -/
theorem toFields_filterValues (keep : Value → Bool)
    (returns : ∀ name ∈ Dict.keys fields, mapper.Returns storage name)
    (distinct : Dict.Distinct fields) :
    mapper.mapping.toFields storage (Dict.filterValues keep (mapper.renamed storage fields)) =
      Dict.filterValues keep fields := by
  rw [filterValues_renamed]
  apply toFields_renamed
  · intro name kept
    exact returns name (Dict.mem_keys_of_filterValues kept)
  · exact Dict.distinct_filterValues keep distinct

/-- No field is stored as the `_id` of the document. -/
def Unclaimed (mapper : RowMapper) (storage : String) (fields : Record) : Prop :=
  ∀ name ∈ Dict.keys fields, mapper.columnOf storage name ≠ "_id"

instance (mapper : RowMapper) (storage : String) (fields : Record) :
    Decidable (mapper.Unclaimed storage fields) :=
  inferInstanceAs (Decidable (∀ name ∈ Dict.keys fields, _))

theorem id_not_mem_renamed (unclaimed : mapper.Unclaimed storage fields) :
    "_id" ∉ Dict.keys (mapper.renamed storage fields) := by
  rw [renamed, Dict.keys_map, List.mem_map]
  rintro ⟨name, member, claims⟩
  exact unclaimed name member claims

section

variable (document : mapper.kind = .document) {row : Record}

include document

theorem toObject_keepsId (mapped : mapper.fieldOf storage "_id" ≠ "_id") :
    mapper.toObject storage row = .ok { root := .map (mapper.mapping.toFields storage row) } := by
  have keeps : mapper.keepsId storage = true := bne_iff_ne.mpr mapped
  simp only [toObject, document, keeps, ↓reduceIte]

theorem toObject_dropsId (own : mapper.fieldOf storage "_id" = "_id") :
    mapper.toObject storage row =
      .ok { root := .map (mapper.mapping.toFields storage (Dict.eraseSwap row "_id")) } := by
  have drops : mapper.keepsId storage = false := by simp [keepsId, own]
  simp only [toObject, document, drops, Bool.false_eq_true, ↓reduceIte]

variable (returns : ∀ name ∈ Dict.keys fields, mapper.Returns storage name)
variable (distinct : Dict.Distinct fields)

include returns distinct

/-- An `_id` between the fields may change their order where it is taken out, but nothing else. -/
theorem exists_toObject_of_perm (own : mapper.fieldOf storage "_id" = "_id")
    (unclaimed : mapper.Unclaimed storage fields) {id : Value}
    (perm : row.Perm (("_id", id) :: mapper.renamed storage fields)) :
    ∃ read, mapper.toObject storage row = .ok { root := .map read } ∧ read.Perm fields := by
  have rest := Dict.eraseSwap_of_perm (distinct_renamed returns distinct)
    (id_not_mem_renamed unclaimed) perm
  exact ⟨_, toObject_dropsId document own, toFields_of_perm returns distinct rest⟩

variable (root : object.root = .map fields)

include root

/-- Nothing is taken for an `_id` of the store where none is there, or a field is mapped to it. -/
theorem toObject_renamed
    (identified : mapper.fieldOf storage "_id" ≠ "_id" ∨ mapper.Unclaimed storage fields) :
    mapper.toObject storage (mapper.renamed storage fields) = .ok object := by
  have back : object = { root := .map fields } := congrArg BusinessObject.mk root
  by_cases own : mapper.fieldOf storage "_id" = "_id"
  · have unclaimed := identified.resolve_left (not_not_intro own)
    rw [toObject_dropsId document own,
      Dict.eraseSwap_of_not_mem (id_not_mem_renamed unclaimed),
      toFields_renamed returns distinct, back]
  · rw [toObject_keepsId document own, toFields_renamed returns distinct, back]

/-- An `_id` behind the fields leaves no gap where it is taken out. -/
theorem toObject_concat_id (own : mapper.fieldOf storage "_id" = "_id")
    (unclaimed : mapper.Unclaimed storage fields) (id : Value) :
    mapper.toObject storage (mapper.renamed storage fields ++ [("_id", id)]) = .ok object := by
  have back : object = { root := .map fields } := congrArg BusinessObject.mk root
  rw [toObject_dropsId document own, Dict.eraseSwap_concat (id_not_mem_renamed unclaimed),
    toFields_renamed returns distinct, back]

end

section

variable (unclaimed : mapper.Unclaimed storage fields)

include unclaimed

theorem get?_idField_renamed :
    Dict.get? (mapper.renamed storage fields) Document.idField = none :=
  Dict.get?_eq_none_iff.mpr (id_not_mem_renamed unclaimed)

theorem identify_renamed (store : Document.Store) :
    ∃ id, (store.identify (mapper.renamed storage fields)).1 =
      mapper.renamed storage fields ++ [("_id", id)] := by
  have absent := get?_idField_renamed unclaimed
  simp only [Document.Store.identify, Dict.contains, absent, Option.isSome_none,
    Bool.false_eq_true, ↓reduceIte]
  exact ⟨_, Dict.insert_of_not_mem (id_not_mem_renamed unclaimed)⟩

theorem replacement_renamed (old : Record) :
    ∃ stored, Document.Collection.replacement old (mapper.renamed storage fields) = .ok stored ∧
      (stored = mapper.renamed storage fields ∨
        ∃ id, stored = mapper.renamed storage fields ++ [("_id", id)]) := by
  have absent := get?_idField_renamed unclaimed
  cases oldId : Dict.get? old Document.idField with
  | none =>
      refine ⟨_, ?_, .inl rfl⟩
      simp only [Document.Collection.replacement, oldId]
  | some id =>
      refine ⟨_, ?_, .inr ⟨id, Dict.insert_of_not_mem (id_not_mem_renamed unclaimed)⟩⟩
      simp only [Document.Collection.replacement, oldId, absent]
      rfl

end

/-- Objects are read back from their rows. An `_id` that the store has added does not matter: behind
the fields it changes nothing, and elsewhere it changes no more than their order. -/
theorem schemaless_row_round_trip (root : object.root = .map fields)
    (well : (Value.map fields).WellFormed)
    (returns : ∀ name ∈ Dict.keys fields, mapper.Returns storage name) :
    (mapper.kind = .plain →
      ∃ row, mapper.toRow storage object = .ok row ∧ mapper.toObject storage row = .ok object) ∧
    (mapper.kind = .keyValue →
      ∃ row, mapper.toRow storage object = .ok row ∧
        mapper.toObject storage row =
          .ok { root := .map (Dict.filterValues (!·.isNull) fields) }) ∧
    (mapper.kind = .document →
      ∃ row, mapper.toRow storage object = .ok row ∧
        (mapper.fieldOf storage "_id" ≠ "_id" ∨ mapper.Unclaimed storage fields →
          mapper.toObject storage row = .ok object) ∧
        (mapper.fieldOf storage "_id" = "_id" → mapper.Unclaimed storage fields →
          (∀ store : Document.Store, Dict.contains (store.identify row).1 "_id" = true ∧
            mapper.toObject storage (store.identify row).1 = .ok object) ∧
          (∀ old, ∃ stored, Document.Collection.replacement old row = .ok stored ∧
            mapper.toObject storage stored = .ok object) ∧
          ∀ id stored, stored.Perm (("_id", id) :: row) →
            ∃ read, mapper.toObject storage stored = .ok read ∧ read.same object = true)) := by
  have distinct := (Value.wellFormed_map.mp well).1
  refine ⟨fun plain => ?_, fun keyValue => ?_, fun document => ?_⟩
  · refine ⟨_, toRow_plain returns distinct plain root, ?_⟩
    simp only [toObject, plain, toFields_renamed returns distinct, ← root]
  · refine ⟨_, toRow_keyValue returns distinct keyValue root, ?_⟩
    simp only [toObject, keyValue, toFields_filterValues _ returns distinct]
  · refine ⟨_, toRow_document returns distinct document root,
      toObject_renamed document returns distinct root, fun own unclaimed => ⟨?_, ?_, ?_⟩⟩
    · intro store
      obtain ⟨id, identified⟩ := identify_renamed unclaimed store
      rw [identified]
      constructor
      · simp [Dict.contains, Dict.get?_append, Dict.get?]
      · exact toObject_concat_id document returns distinct root own unclaimed id
    · intro old
      obtain ⟨stored, replaced, same | ⟨id, same⟩⟩ := replacement_renamed unclaimed old
      · rw [same] at replaced
        exact ⟨_, replaced, toObject_renamed document returns distinct root (.inr unclaimed)⟩
      · rw [same] at replaced
        exact ⟨_, replaced, toObject_concat_id document returns distinct root own unclaimed id⟩
    · intro id stored perm
      obtain ⟨read, decoded, same⟩ :=
        exists_toObject_of_perm document returns distinct own unclaimed perm
      refine ⟨_, decoded, ?_⟩
      rw [BusinessObject.same, root]
      exact Value.same_of_perm well same

/-- A mapper that stores `name` under another name, and `id` as the `_id` of documents. -/
def guestMapper (kind : RowKind) : RowMapper where
  kind
  mapping := [("guests", [{ use := .renamed, field := "name", column := "full_name" }]),
    ("members", [{ use := .renamed, field := "id", column := "_id" }])]

def guest : BusinessObject where
  root := .map [("name", .string "Ada"), ("phone", .null), ("home", .map [("street", .null)])]

def member : BusinessObject where
  root := .map [("id", .string "7"), ("name", .string "Ada")]

theorem guests_are_read_back :
    (∃ row, (guestMapper .plain).toRow "guests" guest = .ok row ∧
      (guestMapper .plain).toObject "guests" row = .ok guest) ∧
    (∃ row, (guestMapper .keyValue).toRow "guests" guest = .ok row ∧
      (guestMapper .keyValue).toObject "guests" row =
        .ok { root := .map [("name", .string "Ada"), ("home", .map [("street", .null)])] }) ∧
    (∃ row, (guestMapper .document).toRow "members" member = .ok row ∧
      (guestMapper .document).toObject "members" row = .ok member) ∧
    ∃ row read, (guestMapper .document).toRow "guests" guest = .ok row ∧
      (guestMapper .document).toObject "guests" (("_id", .string "1") :: row) = .ok read ∧
      read.same guest = true := by
  have well : guest.root.WellFormed :=
    ⟨by decide, trivial, trivial, ⟨by decide, trivial, trivial⟩, trivial⟩
  have wellMember : member.root.WellFormed := ⟨by decide, trivial, trivial, trivial⟩
  obtain ⟨plain, _, _⟩ :=
    @schemaless_row_round_trip (guestMapper .plain) "guests" guest _ rfl well (by decide)
  obtain ⟨_, keyValue, _⟩ :=
    @schemaless_row_round_trip (guestMapper .keyValue) "guests" guest _ rfl well (by decide)
  obtain ⟨_, _, mapped⟩ :=
    @schemaless_row_round_trip (guestMapper .document) "members" member _ rfl wellMember (by decide)
  obtain ⟨_, _, document⟩ :=
    @schemaless_row_round_trip (guestMapper .document) "guests" guest _ rfl well (by decide)
  obtain ⟨memberRow, memberWritten, memberRead, _⟩ := mapped rfl
  obtain ⟨row, written, _, identified⟩ := document rfl
  obtain ⟨_, _, between⟩ := identified (by decide) (by decide)
  obtain ⟨read, decoded, same⟩ := between (.string "1") _ (List.Perm.refl _)
  exact ⟨plain rfl, keyValue rfl, ⟨memberRow, memberWritten, memberRead (.inl (by decide))⟩,
    row, read, written, decoded, same⟩

end DataAccess.RowMapper
