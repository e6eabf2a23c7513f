import DataAccess.Proofs.Dict
import DataAccess.Proofs.Path
import DataAccess.RowMapper
import Mathlib.Data.List.Nodup

namespace DataAccess.RowMapper

variable {mapper : RowMapper} {storage name other : String} {object : BusinessObject}
variable {fields : Record}

/-- A name that is mapped to a column and from there back to itself. -/
def Returns (mapper : RowMapper) (storage name : String) : Prop :=
  mapper.fieldOf storage (mapper.columnOf storage name) = name

instance (mapper : RowMapper) (storage name : String) : Decidable (mapper.Returns storage name) :=
  inferInstanceAs (Decidable (_ = _))

/-- The fields of an object under the names of their columns. -/
def renamed (mapper : RowMapper) (storage : String) (fields : Record) : Record :=
  fields.map fun entry => (mapper.columnOf storage entry.1, entry.2)

theorem columnOf_injective (returns : mapper.Returns storage name)
    (otherReturns : mapper.Returns storage other)
    (same : mapper.columnOf storage other = mapper.columnOf storage name) : other = name := by
  rw [← otherReturns, same, returns]

theorem toColumns_of_apart (root : object.root = .map fields)
    (apart : ((Dict.keys fields).map (mapper.columnOf storage)).Nodup) :
    mapper.mapping.toColumns storage object = .ok (mapper.renamed storage fields) := by
  simp only [Mapping.toColumns, root]
  exact congrArg Except.ok (Dict.mapKeys_eq_map apart)

theorem toColumns_of_identity (root : object.root = .map fields) (distinct : Dict.Distinct fields)
    (identity : ∀ field, mapper.columnOf storage field = field) :
    mapper.mapping.toColumns storage object = .ok fields := by
  have same : mapper.columnOf storage = id := funext identity
  have unchanged : mapper.renamed storage fields = fields := by
    rw [renamed, same]
    exact List.map_id fields
  rw [toColumns_of_apart root (by rwa [same, List.map_id]), unchanged]

section

variable (returns : ∀ name ∈ Dict.keys fields, mapper.Returns storage name)

include returns

theorem get?_renamed (ofName : mapper.Returns storage name) :
    Dict.get? (mapper.renamed storage fields) (mapper.columnOf storage name) =
      Dict.get? fields name :=
  Dict.get?_map_keys fun other member same =>
    columnOf_injective ofName (returns other member) same

variable (distinct : Dict.Distinct fields)

include distinct

theorem distinct_renamed : Dict.Distinct (mapper.renamed storage fields) := by
  rw [Dict.Distinct, renamed, Dict.keys_map]
  refine List.Nodup.map_on ?_ distinct
  intro other atOther name atName same
  exact columnOf_injective (returns name atName) (returns other atOther) same

theorem toColumns_eq (root : object.root = .map fields) :
    mapper.mapping.toColumns storage object = .ok (mapper.renamed storage fields) := by
  have apart := distinct_renamed returns distinct
  rw [Dict.Distinct, renamed, Dict.keys_map] at apart
  exact toColumns_of_apart root apart

omit distinct in
theorem map_fieldOf_renamed : (mapper.renamed storage fields).map
    (fun entry => (mapper.fieldOf storage entry.1, entry.2)) = fields := by
  rw [renamed, List.map_map]
  refine (List.map_congr_left ?_).trans (List.map_id fields)
  intro entry member
  exact Prod.ext (returns entry.1 (Dict.mem_keys_of_mem member)) rfl

theorem nodup_map_fieldOf :
    ((Dict.keys (mapper.renamed storage fields)).map (mapper.fieldOf storage)).Nodup := by
  rw [← Dict.keys_map, map_fieldOf_renamed returns]
  exact distinct

theorem toFields_renamed :
    mapper.mapping.toFields storage (mapper.renamed storage fields) = fields :=
  (Dict.mapKeys_eq_map (nodup_map_fieldOf returns distinct)).trans (map_fieldOf_renamed returns)

theorem toFields_of_perm {row : Record} (perm : row.Perm (mapper.renamed storage fields)) :
    (mapper.mapping.toFields storage row).Perm fields := by
  have decoded : (mapper.mapping.toFields storage row).Perm
      (mapper.mapping.toFields storage (mapper.renamed storage fields)) :=
    Dict.mapKeys_perm perm (nodup_map_fieldOf returns distinct)
  rwa [toFields_renamed returns distinct] at decoded

theorem toRow_plain (plain : mapper.kind = .plain) (root : object.root = .map fields) :
    mapper.toRow storage object = .ok (mapper.renamed storage fields) := by
  simp only [toRow, toColumns_eq returns distinct root, plain]
  rfl

theorem toRow_document (document : mapper.kind = .document) (root : object.root = .map fields) :
    mapper.toRow storage object = .ok (mapper.renamed storage fields) := by
  simp only [toRow, toColumns_eq returns distinct root, document]
  rfl

theorem toRow_keyValue (keyValue : mapper.kind = .keyValue) (root : object.root = .map fields) :
    mapper.toRow storage object =
      .ok (Dict.filterValues (!·.isNull) (mapper.renamed storage fields)) := by
  simp only [toRow, toColumns_eq returns distinct root, keyValue]
  rfl

end

/-- A plain name that is mapped to a column without points and from there back to itself. -/
structure Faithful (mapper : RowMapper) (storage name : String) : Prop where
  plain : Path.Plain name
  returns : mapper.Returns storage name
  undotted : '.' ∉ (mapper.columnOf storage name).toList

instance (mapper : RowMapper) (storage name : String) : Decidable (mapper.Faithful storage name) :=
  decidable_of_iff (Path.Plain name ∧ mapper.Returns storage name ∧
      '.' ∉ (mapper.columnOf storage name).toList)
    ⟨fun ⟨plain, returns, undotted⟩ => { plain, returns, undotted },
      fun faithful => ⟨faithful.plain, faithful.returns, faithful.undotted⟩⟩

section

variable (returns : ∀ name ∈ Dict.keys fields, mapper.Returns storage name)
variable (faithful : mapper.Faithful storage name)

include returns faithful

theorem field?_renamed :
    Record.field? (mapper.renamed storage fields) (mapper.columnOf storage name) =
      Dict.get? fields name := by
  rw [Record.field?_undotted faithful.undotted, get?_renamed returns faithful.returns]

/-- A column of an item is read as its field is from the object. -/
theorem field?_item (distinct : Dict.Distinct fields) (root : object.root = .map fields) :
    Record.field? (Dict.filterValues (!·.isNull) (mapper.renamed storage fields))
      (mapper.columnOf storage name) = object.attribute? name := by
  rw [Record.field?_undotted faithful.undotted,
    Dict.get?_filterValues _ (distinct_renamed returns distinct),
    get?_renamed returns faithful.returns, BusinessObject.attribute?_plain root faithful.plain]

end

theorem decodeAll_map {α : Type} {row : α → Record} {decoded : α → BusinessObject}
    (each : ∀ item, mapper.toObject storage (row item) = .ok (decoded item)) (items : List α) :
    mapper.decodeAll storage (Cursor.ofList (items.map row)) = .ok (items.map decoded) := by
  induction items with
  | nil => rfl
  | cons item rest ih =>
      simp only [Cursor.ofList, List.map_cons] at ih ⊢
      simp only [decodeAll, each, ih]
      rfl

end DataAccess.RowMapper
