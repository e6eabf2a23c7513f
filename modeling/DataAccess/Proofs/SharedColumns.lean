import DataAccess.Proofs.Sql.Rows
import DataAccess.Proofs.Value

namespace DataAccess.RowMapper

variable {mapper : RowMapper} {storage column : String} {object : BusinessObject}
variable {fields row : Record} {entry last : String × Value}

/-- The value that a row holds for a field's. -/
def encoded (mapper : RowMapper) (value : Value) : Value :=
  if mapper.kind = .relational then encodeNested value else value

/-- The last of the fields that share a column. -/
def lastUnder? (mapper : RowMapper) (storage : String) (fields : Record) (column : String) :
    Option (String × Value) :=
  fields.reverse.find? fun entry => mapper.columnOf storage entry.1 = column

theorem get?_mapKeys (mapper : RowMapper) (storage : String) (fields : Record) (column : String) :
    Dict.get? (Dict.mapKeys (mapper.columnOf storage) fields) column =
      (mapper.lastUnder? storage fields column).map Prod.snd := by
  rw [Dict.mapKeys, Dict.get?_ofList, ← List.map_reverse, Dict.get?_map_find?]
  rfl

theorem exists_lastUnder (mapper : RowMapper) (storage : String) (member : entry ∈ fields) :
    ∃ last, mapper.lastUnder? storage fields (mapper.columnOf storage entry.1) = some last := by
  refine Option.isSome_iff_exists.mp (List.find?_isSome.mpr ⟨entry, ?_, ?_⟩)
  · exact List.mem_reverse.mpr member
  · exact decide_eq_true rfl

theorem of_lastUnder (found : mapper.lastUnder? storage fields column = some last) :
    last ∈ fields ∧ mapper.columnOf storage last.1 = column :=
  ⟨List.mem_reverse.mp (List.mem_of_find?_eq_some found),
    by simpa using List.find?_some found⟩

/-- A column holds the last field under it, which as a null is not in an item. -/
theorem get?_toRow (root : object.root = .map fields)
    (written : mapper.toRow storage object = .ok row)
    (found : mapper.lastUnder? storage fields column = some last) :
    Dict.get? row column =
      if mapper.kind = .keyValue ∧ last.2.isNull = true then none
      else some (mapper.encoded last.2) := by
  have mapped := toColumns_map mapper storage root
  have distinct := Mapping.distinct_toColumns mapped
  have value : Dict.get? (Dict.mapKeys (mapper.columnOf storage) fields) column = some last.2 := by
    rw [get?_mapKeys, found, Option.map_some]
  simp only [toRow, mapped, ok_bind] at written
  cases kind : mapper.kind with
  | plain | document =>
      simp only [kind, pure_eq_ok] at written
      simp [← written, value, encoded, kind]
  | keyValue =>
      simp only [kind, pure_eq_ok] at written
      rw [← written, Dict.get?_filterValues _ distinct, value, encoded, kind]
      cases null : last.2.isNull <;> simp [null]
  | relational =>
      simp only [kind, RowMapper.columns] at written
      obtain ⟨_, _, held⟩ := stored_relationalRow distinct written
      have member := keys_subset_relationalRow distinct written
        (Dict.mem_keys_of_mem (Dict.mem_of_get? value))
      rw [held column member, stored, value, encoded, kind]
      simp

theorem get?_toRow_iff {value : Value} (root : object.root = .map fields)
    (written : mapper.toRow storage object = .ok row)
    (found : mapper.lastUnder? storage fields column = some last) (present : value ≠ .null) :
    Dict.get? row column = some (mapper.encoded value) ↔
      mapper.encoded last.2 = mapper.encoded value := by
  rw [get?_toRow root written found]
  split
  · rename_i dropped
    obtain ⟨keyValue, null⟩ := dropped
    simp only [encoded, keyValue, reduceCtorEq, ↓reduceIte, false_iff]
    intro same
    exact present (Value.isNull_iff.mp (same ▸ null))
  · exact Option.some_inj

theorem exists_toRow_iff (root : object.root = .map fields) :
    (∃ row, mapper.toRow storage object = .ok row) ↔
      ∀ names, mapper.kind = .relational → mapper.columns storage = .listed names →
        ∀ name ∈ Dict.keys fields, mapper.columnOf storage name ∈ names := by
  have mapped := toColumns_map mapper storage root
  have distinct := Mapping.distinct_toColumns mapped
  simp only [toRow, mapped, ok_bind]
  cases kind : mapper.kind with
  | plain | document | keyValue => simp [pure_eq_ok]
  | relational =>
      cases columns : mapper.columns storage with
      | all => simp [relationalRow]
      | listed names =>
          constructor
          · rintro ⟨row, written⟩ others - same name member
            cases same
            by_contra absent
            obtain ⟨_, _, _, refused⟩ := relationalRow_unlisted storage distinct
              (Dict.mem_keys_mapKeys.mpr ⟨name, member, rfl⟩) absent
            rw [refused] at written
            cases written
          · intro listed
            refine exists_relationalRow storage distinct fun column member => ?_
            obtain ⟨name, inObject, rfl⟩ := Dict.mem_keys_mapKeys.mp member
            exact listed names rfl rfl name inObject

/-- A field that is not null is in the row if the last field under its column has the same value, so
it is if it shares the column with none. Whether there is a row does not depend on that. -/
theorem field_is_kept_iff_last (root : object.root = .map fields) :
    ((∃ row, mapper.toRow storage object = .ok row) ↔
      ∀ names, mapper.kind = .relational → mapper.columns storage = .listed names →
        ∀ name ∈ Dict.keys fields, mapper.columnOf storage name ∈ names) ∧
    ∀ row, mapper.toRow storage object = .ok row → ∀ entry ∈ fields, entry.2 ≠ .null →
      (Dict.get? row (mapper.columnOf storage entry.1) = some (mapper.encoded entry.2) ↔
        ∃ last, mapper.lastUnder? storage fields (mapper.columnOf storage entry.1) = some last ∧
          mapper.encoded last.2 = mapper.encoded entry.2) ∧
      ((∀ other ∈ fields, mapper.columnOf storage other.1 = mapper.columnOf storage entry.1 →
          other = entry) →
        Dict.get? row (mapper.columnOf storage entry.1) = some (mapper.encoded entry.2)) := by
  refine ⟨exists_toRow_iff root, fun row written entry member present => ?_⟩
  obtain ⟨last, found⟩ := exists_lastUnder mapper storage member
  have kept := get?_toRow_iff root written found present
  constructor
  · simp only [found, Option.some.injEq, exists_eq_left']
    exact kept
  · intro alone
    obtain ⟨inObject, shared⟩ := of_lastUnder found
    rw [kept, alone last inObject shared]

def users : RowMapper where
  kind := .relational
  mapping := [("users", [{ use := .plain, field := "id", column := "user_id" },
    { use := .json, field := "meta", column := "meta" }])]

def user : Record := [("id", .string "1"), ("meta", .map [("id", .string "2")])]

theorem user_fields_are_kept :
    ∃ row, users.toRow "users" { root := .map user } = .ok row ∧
      Dict.get? row "user_id" = some (.string "1") ∧
      Dict.get? row "meta" = some (.string "\x7b\"id\":\"2\"\x7d") := by
  obtain ⟨succeeds, kept⟩ :=
    @field_is_kept_iff_last users "users" { root := .map user } user rfl
  obtain ⟨row, written⟩ := succeeds.mpr fun names _ listed => by
    cases listed
    decide
  obtain ⟨_, id⟩ := kept row written user[0] (by decide) (by decide)
  obtain ⟨details, _⟩ := kept row written user[1] (by decide) (by decide)
  exact ⟨row, written, id (by decide), details.mpr ⟨user[1], by decide, rfl⟩⟩

/-- Two fields go to one column, and the row keeps the later one; in an item a null erases the
other field. -/
theorem renamed_field_is_overwritten :
    let mapper (kind : RowKind) : RowMapper :=
      { kind, mapping := [("t", [{ use := .renamed, field := "id", column := "key" }])] }
    let both : BusinessObject := { root := .map [("id", .string "1"), ("key", .string "2")] }
    (mapper .plain).columnOf "t" "id" = "key" ∧
      (mapper .plain).toRow "t" both = .ok [("key", .string "2")] ∧
      (mapper .relational).toRow "t" both = .ok [("key", .string "2")] ∧
      (mapper .document).toRow "t" both = .ok [("key", .string "2")] ∧
      (mapper .keyValue).toRow "t" both = .ok [("key", .string "2")] ∧
      (mapper .keyValue).toRow "t" { root := .map [("id", .string "1"), ("key", .null)] } =
        .ok [] := by
  decide +kernel

end DataAccess.RowMapper
