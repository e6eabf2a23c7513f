import DataAccess.Dao.Document
import DataAccess.Proofs.Filter
import DataAccess.Proofs.RowMapper
import DataAccess.Proofs.Value
import Mathlib.Data.Option.Basic

namespace DataAccess

namespace PrimaryKey

variable {primary : PrimaryKey} {storage name : String} {object : BusinessObject} {filter : Filter}

theorem exists_of_clause (asked : clause storage object name = .ok filter) :
    ∃ value, object.get name = .ok (some value) := by
  simp only [clause] at asked
  split at asked
  · rename_i value found
    exact ⟨value, found⟩
  · cases asked
  · cases asked

/-- The equality of a field with the object's value. -/
def ownClause (object : BusinessObject) (name : String) : Filter :=
  .compare name .equal ((object.attribute? name).getD .null)

/-- An object that has all key fields has a key filter. -/
theorem exists_filter (nonempty : primary.fieldsOf storage ≠ [])
    (found : ∀ name ∈ primary.fieldsOf storage, ∃ value, object.get name = .ok (some value)) :
    ∃ filter, primary.filter storage object = .ok filter := by
  have clauses : (primary.fieldsOf storage).mapM (clause storage object) =
      .ok ((primary.fieldsOf storage).map (ownClause object)) := by
    rw [mapM_eq_ok, List.map_map]
    refine List.map_congr_left fun name member => ?_
    obtain ⟨value, read⟩ := found name member
    simp only [clause, read, Function.comp, ownClause, BusinessObject.attribute?, Option.getD_some]
  simp only [filter, clauses, ok_bind]
  obtain ⟨name, rest, names⟩ := List.exists_cons_of_ne_nil nonempty
  rw [names]
  cases rest with
  | nil => exact ⟨_, rfl⟩
  | cons second rest => exact ⟨_, rfl⟩

/-- A key filter asks of all key fields, and of nothing else, to have the object's values. -/
theorem filter_eq_ok (keyed : primary.filter storage object = .ok filter) :
    (∀ name ∈ primary.fieldsOf storage, ∃ value, object.get name = .ok (some value)) ∧
      ((∃ name, primary.fieldsOf storage = [name] ∧ filter = ownClause object name) ∨
        primary.fieldsOf storage ≠ [] ∧
          filter = .allOf ((primary.fieldsOf storage).map (ownClause object))) := by
  obtain ⟨clauses, asked, result⟩ := bind_eq_ok.mp keyed
  have each := mapM_eq_ok.mp asked
  have found : ∀ name ∈ primary.fieldsOf storage, ∃ value, object.get name = .ok (some value) := by
    intro name member
    have listed : clause storage object name ∈ clauses.map Except.ok :=
      each ▸ List.mem_map_of_mem member
    obtain ⟨own, _, given⟩ := List.mem_map.mp listed
    exact exists_of_clause given.symm
  have own : clauses = (primary.fieldsOf storage).map (ownClause object) := by
    refine List.map_injective_iff.mpr (fun _ _ => Except.ok.inj) (each.symm.trans ?_)
    rw [List.map_map]
    refine List.map_congr_left fun name member => ?_
    obtain ⟨value, found⟩ := found name member
    simp only [clause, found, Function.comp, ownClause, BusinessObject.attribute?, Option.getD_some]
  refine ⟨found, ?_⟩
  cases names : primary.fieldsOf storage with
  | nil =>
      rw [own, names] at result
      cases result
  | cons name rest =>
      rw [own, names] at result
      cases rest with
      | nil => exact .inl ⟨name, rfl, (Except.ok.inj result).symm⟩
      | cons second rest => exact .inr ⟨List.cons_ne_nil _ _, (Except.ok.inj result).symm⟩

theorem validate_filter (keyed : primary.filter storage object = .ok filter) :
    filter.validate = .ok () := by
  obtain ⟨-, ⟨name, -, rfl⟩ | ⟨nonempty, rfl⟩⟩ := filter_eq_ok keyed
  · rfl
  · refine Filter.validate_allOf.mpr ⟨by simpa using nonempty, ?_⟩
    exact List.forall_mem_map.mpr fun _ _ => rfl

theorem fields_filter (keyed : primary.filter storage object = .ok filter) :
    filter.fields = primary.fieldsOf storage := by
  obtain ⟨-, ⟨name, names, rfl⟩ | ⟨-, rfl⟩⟩ := filter_eq_ok keyed
  · rw [names]
    rfl
  · rw [Filter.fields, Filter.tests, Filter.testsOfAll_eq, List.flatMap_map, List.flatMap_assoc]
    simp [ownClause, Filter.tests, Filter.testFields]

theorem combine_filter (keyed : primary.filter storage object = .ok filter)
    (holds : Filter → Bool) : filter.combine holds = true ↔
      ∀ name ∈ primary.fieldsOf storage, holds (ownClause object name) = true := by
  obtain ⟨-, ⟨name, names, rfl⟩ | ⟨-, rfl⟩⟩ := filter_eq_ok keyed
  · rw [names]
    simp [ownClause, Filter.combine]
  · rw [Filter.combine, Filter.combineAll_eq, List.all_map, List.all_eq_true]
    rfl

end PrimaryKey

/-- A storage and the fields whose values name its records. -/
structure Keyspace where
  storage : String
  mapping : Mapping := []
  primary : PrimaryKey

namespace Keyspace

variable (keyspace : Keyspace)

def names : List String := keyspace.primary.fieldsOf keyspace.storage

def columnOf (name : String) : String := keyspace.mapping.columnOf keyspace.storage name

def columns : List String := keyspace.names.map keyspace.columnOf

/-- The key consists of top-level fields, and their columns are neither paths nor operators. -/
structure Usable : Prop where
  nonempty : keyspace.names ≠ []
  plain : ∀ name ∈ keyspace.names, Path.Plain name
  undotted : ∀ column ∈ keyspace.columns, '.' ∉ column.toList
  ordinary : ∀ column ∈ keyspace.columns, Document.isOperator column = false

/-- The record has these values under the columns of the key. -/
def Under (key : List Value) (record : Record) : Prop :=
  keyspace.columns.map (Dict.get? record) = key.map some

instance (key : List Value) (record : Record) : Decidable (keyspace.Under key record) :=
  inferInstanceAs (Decidable (_ = _))

/-- An object with a key of strings and integers, of whose fields no two have one column. -/
structure Names (key : List Value) (object : BusinessObject) : Prop where
  root : ∃ fields, object.root = .map fields ∧ ((Dict.keys fields).map keyspace.columnOf).Nodup
  values : keyspace.names.map object.attribute? = key.map some
  good : ∀ value ∈ key, value.isKey = true

variable {keyspace} {key other : List Value} {object : BusinessObject} {record : Record}

theorem Under.unique (under : keyspace.Under key record)
    (otherUnder : keyspace.Under other record) : other = key :=
  List.map_injective_iff.mpr (Option.some_injective _) (otherUnder.symm.trans under)

theorem Under.congr {left right : Record} (under : keyspace.Under key left)
    (agree : ∀ column ∈ keyspace.columns, Dict.get? right column = Dict.get? left column) :
    keyspace.Under key right :=
  (List.map_congr_left agree).trans under

theorem Under.exists_value (under : keyspace.Under key record) {column : String}
    (member : column ∈ keyspace.columns) :
    ∃ value ∈ key, Dict.get? record column = some value := by
  have listed : Dict.get? record column ∈ key.map some := by
    rw [← under]
    exact List.mem_map_of_mem member
  obtain ⟨value, atKey, same⟩ := List.mem_map.mp listed
  exact ⟨value, atKey, same.symm⟩

namespace Names

variable (named : keyspace.Names key object)

include named

theorem exists_attribute {name : String} (member : name ∈ keyspace.names) :
    ∃ value, object.attribute? name = some value := by
  have listed : object.attribute? name ∈ key.map some := by
    rw [← named.values]
    exact List.mem_map_of_mem member
  obtain ⟨value, _, same⟩ := List.mem_map.mp listed
  exact ⟨value, same.symm⟩

theorem get_name (usable : keyspace.Usable) {name : String} (member : name ∈ keyspace.names) :
    ∃ value, object.get name = .ok (some value) := by
  obtain ⟨fields, root, _⟩ := named.root
  obtain ⟨value, found⟩ := exists_attribute named member
  have plain := usable.plain name member
  refine ⟨value, ?_⟩
  rw [BusinessObject.get_plain root plain, ← BusinessObject.attribute?_plain root plain, found]

theorem exists_filter (usable : keyspace.Usable) :
    ∃ filter, KeyFilter.filter keyspace.primary.filter keyspace.storage object = .ok filter ∧
      filter.validate = .ok () ∧ ∀ name ∈ filter.fields, name ∈ keyspace.names := by
  obtain ⟨filter, keyed⟩ :=
    PrimaryKey.exists_filter usable.nonempty fun _ member => get_name named usable member
  have valid := PrimaryKey.validate_filter keyed
  refine ⟨filter, KeyFilter.filter_eq_ok.mpr ⟨keyed, valid⟩, valid, ?_⟩
  rw [PrimaryKey.fields_filter keyed]
  exact fun _ member => member

theorem exists_row (usable : keyspace.Usable) :
    ∃ row, keyspace.mapping.toColumns keyspace.storage object = .ok row ∧
      Dict.Distinct row ∧ keyspace.Under key row := by
  obtain ⟨fields, root, apart⟩ := named.root
  refine ⟨fields.map fun entry => (keyspace.columnOf entry.1, entry.2), ?_, ?_, ?_⟩
  · simp only [Mapping.toColumns, root]
    exact congrArg Except.ok (Dict.mapKeys_eq_map apart)
  · rw [Dict.Distinct, Dict.keys_map]
    exact apart
  · rw [Under, columns, List.map_map, ← named.values]
    refine List.map_congr_left fun name member => ?_
    obtain ⟨value, found⟩ := exists_attribute named member
    have held : Dict.get? fields name = some value := by
      rw [BusinessObject.attribute?_plain root (usable.plain name member)] at found
      exact (Option.filter_eq_some_iff.mp found).1
    exact (Dict.get?_map_of_apart apart held).trans found.symm

end Names

end Keyspace

/-- A call of `create`. -/
structure Creation where
  context : Context
  object : BusinessObject
  config : DaoConfig := {}

end DataAccess
