import DataAccess.Proofs.Dict
import DataAccess.Proofs.Except
import DataAccess.Proofs.Shape
import DataAccess.RowMapper

namespace DataAccess

variable {storage : String} {names : List String} {fields renamed row : Record}

namespace TableMapping

theorem nodup_columns (mapping : TableMapping) : mapping.columns.Nodup := by
  unfold columns
  generalize (mapping.filter (·.use ≠ .renamed)).map (·.column) = declared
  induction declared using List.reverseRecOn with
  | nil => exact List.nodup_nil
  | append_singleton declared column ih =>
      rw [List.foldl_concat]
      split
      · exact ih
      · rename_i fresh
        exact List.concat_eq_append ▸ ih.concat fresh

end TableMapping

namespace Mapping

theorem nodup_columns {mapping : Mapping} (listed : mapping.columns storage = .listed names) :
    names.Nodup := by
  unfold columns at listed
  split at listed
  · cases listed
  · cases listed
    exact TableMapping.nodup_columns _

theorem distinct_toColumns {mapping : Mapping} {object : BusinessObject}
    (mapped : mapping.toColumns storage object = .ok renamed) : renamed.Distinct := by
  unfold toColumns at mapped
  split at mapped
  · cases mapped
    exact Dict.distinct_ofList _
  · cases mapped
    exact List.nodup_nil
  · cases mapped

end Mapping

namespace RowMapper

theorem toColumns_map (mapper : RowMapper) (storage : String) {object : BusinessObject}
    (root : object.root = .map fields) :
    mapper.mapping.toColumns storage object =
      .ok (Dict.mapKeys (mapper.columnOf storage) fields) := by
  rw [Mapping.toColumns, root]
  rfl

/-- What a row holds in a column of an object's. -/
def stored (renamed : Record) (column : String) : Value :=
  encodeNested ((Dict.get? renamed column).getD .null)

theorem takeColumns_row (distinct : renamed.Distinct) (once : names.Nodup) :
    (takeColumns names renamed).1 = names.map fun column => (column, stored renamed column) := by
  induction names generalizing renamed with
  | nil => rfl
  | cons column rest ih =>
      obtain ⟨fresh, once⟩ := List.nodup_cons.mp once
      have later := ih (Dict.distinct_eraseSwap distinct column) once
      refine congrArg ((column, stored renamed column) :: ·) (later.trans ?_)
      refine List.map_congr_left fun other member => ?_
      have apart : other ≠ column := fun same => fresh (same ▸ member)
      rw [stored, stored, Dict.get?_eraseSwap_of_ne distinct apart]

theorem takeColumns_left (distinct : renamed.Distinct) (names : List String) :
    (takeColumns names renamed).2.Perm (renamed.filter fun entry => entry.1 ∉ names) := by
  induction names generalizing renamed with
  | nil => simp [takeColumns]
  | cons column rest ih =>
      have taken := (Dict.eraseSwap_perm distinct column).filter fun entry => entry.1 ∉ rest
      refine ((ih (Dict.distinct_eraseSwap distinct column)).trans taken).trans (.of_eq ?_)
      simp only [List.filter_filter, List.mem_cons, not_or, decide_not, Bool.decide_and]
      exact List.filter_congr fun entry _ => Bool.and_comm _ _

/-- A row has the listed columns. -/
theorem relationalRow_listed (distinct : renamed.Distinct) (once : names.Nodup)
    (mapped : relationalRow storage (.listed names) renamed = .ok row) :
    row = names.map (fun column => (column, stored renamed column)) ∧
      ∀ column ∈ Dict.keys renamed, column ∈ names := by
  have rowOf := takeColumns_row distinct once
  have left := takeColumns_left distinct names
  simp only [relationalRow] at mapped
  rcases taken : takeColumns names renamed with ⟨columns, _ | ⟨⟨column, value⟩, rest⟩⟩
  · rw [taken] at rowOf left mapped
    cases mapped
    refine ⟨rowOf, fun column member => ?_⟩
    obtain ⟨value, found⟩ := Dict.exists_of_mem_keys member
    have none := List.filter_eq_nil_iff.mp left.nil_eq.symm _ (Dict.mem_of_get? found)
    simpa using none
  · rw [taken] at mapped
    cases mapped

/-- Listed columns that miss none of the object's make a row. -/
theorem exists_relationalRow (storage : String) (distinct : renamed.Distinct)
    (listed : ∀ column ∈ Dict.keys renamed, column ∈ names) :
    ∃ row, relationalRow storage (.listed names) renamed = .ok row := by
  have left := takeColumns_left distinct names
  have none : renamed.filter (fun entry => entry.1 ∉ names) = [] := by
    refine List.filter_eq_nil_iff.mpr fun entry member => ?_
    simpa using listed entry.1 (Dict.mem_keys_of_mem member)
  rw [none] at left
  rcases taken : takeColumns names renamed with ⟨columns, rest⟩
  rw [taken] at left
  cases left.eq_nil
  exact ⟨columns, by simp only [relationalRow, taken]⟩

/-- Without one for every column of the object there is no row, and the error names a column that is
missing. -/
theorem relationalRow_unlisted {column : String} (storage : String) (distinct : renamed.Distinct)
    (member : column ∈ Dict.keys renamed) (unlisted : column ∉ names) :
    ∃ missing ∈ Dict.keys renamed, missing ∉ names ∧
      relationalRow storage (.listed names) renamed =
        .error (.mapping (.noColumn storage missing)) := by
  have left := takeColumns_left distinct names
  obtain ⟨value, found⟩ := Dict.exists_of_mem_keys member
  have kept : (column, value) ∈ renamed.filter fun entry => entry.1 ∉ names :=
    List.mem_filter.mpr ⟨Dict.mem_of_get? found, by simpa using unlisted⟩
  rcases taken : takeColumns names renamed with ⟨columns, _ | ⟨⟨missing, other⟩, rest⟩⟩
  · rw [taken] at left
    rw [← left.nil_eq] at kept
    cases kept
  · rw [taken] at left
    obtain ⟨inRow, absent⟩ := List.mem_filter.mp (left.subset (List.mem_cons_self ..))
    refine ⟨missing, Dict.mem_keys_of_mem inRow, by simpa using absent, ?_⟩
    simp only [relationalRow, taken]

/-- The columns of the row of an object with these. -/
def columnsOf (columns : Columns) (renamed : Record) : List String :=
  match columns with
  | .all => Dict.keys renamed
  | .listed names => names

/-- Whatever its columns are, a row has each once, and holds in it what is stored for the object. -/
theorem stored_relationalRow {mapping : Mapping} (distinct : renamed.Distinct)
    (mapped : relationalRow storage (mapping.columns storage) renamed = .ok row) :
    row.Distinct ∧ Dict.keys row = columnsOf (mapping.columns storage) renamed ∧
      ∀ column ∈ Dict.keys row, Dict.get? row column = some (stored renamed column) := by
  cases columns : mapping.columns storage with
  | all =>
      rw [columns] at mapped
      cases mapped
      have keys := Dict.keys_mapValues encodeNested renamed
      refine ⟨by rwa [Dict.Distinct, ← keys] at distinct, keys, fun column member => ?_⟩
      obtain ⟨value, found⟩ := Dict.exists_of_mem_keys (keys ▸ member)
      refine (Dict.get?_mapValues encodeNested renamed column).trans ?_
      rw [found, stored, found]
      rfl
  | listed names =>
      have once := Mapping.nodup_columns columns
      rw [columns] at mapped
      obtain ⟨rfl, _⟩ := relationalRow_listed distinct once mapped
      rw [Dict.Distinct, Dict.keys_map_self]
      exact ⟨once, rfl, fun column member => Dict.get?_map_self (stored renamed) member⟩

theorem keys_subset_relationalRow {mapping : Mapping} (distinct : renamed.Distinct)
    (mapped : relationalRow storage (mapping.columns storage) renamed = .ok row) :
    Dict.keys renamed ⊆ Dict.keys row := by
  rw [(stored_relationalRow distinct mapped).2.1]
  cases columns : mapping.columns storage with
  | all => exact fun _ member => member
  | listed names =>
      rw [columns] at mapped
      exact (relationalRow_listed distinct (Mapping.nodup_columns columns) mapped).2

end RowMapper

end DataAccess
