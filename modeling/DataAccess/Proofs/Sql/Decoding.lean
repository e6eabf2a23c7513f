import DataAccess.Proofs.Json.Reading
import DataAccess.Proofs.RowMapper
import DataAccess.Proofs.Sql.Rows
import DataAccess.Proofs.Value.Order

namespace DataAccess

namespace RowMapper

variable {mapper : RowMapper} {mapping : Mapping} {storage column field : String}
variable {names : List String} {object : BusinessObject} {fields renamed row : Record}
variable {value : Value} {error : DaoError}

/-- A value that a column gives back in some form: in columns of JSON text there must be such text,
nested as deep as it is read at most. -/
def Legible (mapping : Mapping) (storage column : String) (value : Value) : Prop :=
  (mapping.table storage).isJsonColumn column = true →
    value.depth ≤ Json.nestingLimit ∧
      ∀ text, value = .string text → (Value.ofJson? text).isSome = true

theorem decodeColumn_plain (plain : (mapping.table storage).isJsonColumn column = false)
    (value : Value) : decodeColumn mapping storage column value = .ok value := by
  cases value with
  | string text => rw [decodeColumn, plain, if_neg Bool.false_ne_true]
  | null | bool | number | sequence | map => rfl

theorem decodeColumn_text (json : (mapping.table storage).isJsonColumn column = true)
    (text : String) :
    decodeColumn mapping storage column (.string text) =
      (Value.ofJson? text).elim (.error (.mapping (.invalidJson storage column))) .ok := by
  rw [decodeColumn, if_pos json]
  cases Value.ofJson? text <;> rfl

theorem decodeColumn_container (json : (mapping.table storage).isJsonColumn column = true)
    (container : value.isContainer = true) :
    decodeColumn mapping storage column (encodeNested value) =
      if value.depth ≤ Json.nestingLimit then .ok value.reread
      else .error (.mapping (.invalidJson storage column)) := by
  have printed : encodeNested value = .string value.toJson := by
    cases value with
    | sequence | map => rfl
    | null | bool | number | string => cases container
  rw [printed, decodeColumn_text json, Value.ofJson?_toJson]
  split <;> rfl

theorem decodeColumn_error (fails : decodeColumn mapping storage column value = .error error) :
    error = .mapping (.invalidJson storage column) := by
  cases json : (mapping.table storage).isJsonColumn column with
  | false =>
      rw [decodeColumn_plain json] at fails
      cases fails
  | true =>
      cases value with
      | string text =>
          rw [decodeColumn_text json] at fails
          cases parsed : Value.ofJson? text with
          | none => simpa [parsed, eq_comm] using fails
          | some decoded => simp [parsed] at fails
      | null | bool | number | sequence | map => cases fails

theorem decodes_iff_legible :
    (∃ decoded, decodeColumn mapping storage column (encodeNested value) = .ok decoded) ↔
      Legible mapping storage column value := by
  cases json : (mapping.table storage).isJsonColumn column with
  | false => simp [Legible, json, decodeColumn_plain json]
  | true =>
      cases value with
      | null | bool | number => simp [Legible, encodeNested, decodeColumn, Value.depth]
      | string text =>
          simp only [Legible, json, encodeNested, decodeColumn_text json, Value.depth]
          cases parsed : Value.ofJson? text <;> simp [parsed]
      | sequence | map =>
          rw [decodeColumn_container json rfl, Legible]
          split <;> simp [*]

theorem encodeNested_eq_null_iff : encodeNested value = .null ↔ value = .null := by
  cases value <;> simp [encodeNested]

theorem relationalFields_cons (held : value ≠ .null) :
    relationalFields mapping storage ((column, value) :: row) = (do
      let decoded ← decodeColumn mapping storage column value
      let fields ← relationalFields mapping storage row
      return (mapping.fieldOf storage column, decoded) :: fields) := by
  cases value with
  | null => exact (held rfl).elim
  | bool | number | string | sequence | map => rfl

theorem relationalFields_error (fails : relationalFields mapping storage row = .error error) :
    ∃ entry ∈ row, decodeColumn mapping storage entry.1 entry.2 = .error error := by
  induction row with
  | nil => cases fails
  | cons entry rest ih =>
      obtain ⟨column, value⟩ := entry
      by_cases null : value = .null
      · subst null
        obtain ⟨other, member, later⟩ := ih fails
        exact ⟨other, List.mem_cons_of_mem _ member, later⟩
      · rw [relationalFields_cons null] at fails
        rcases bind_eq_error.mp fails with first | ⟨_, _, continued⟩
        · exact ⟨_, List.mem_cons_self, first⟩
        · rcases bind_eq_error.mp continued with later | ⟨_, _, done⟩
          · obtain ⟨other, member, failed⟩ := ih later
            exact ⟨other, List.mem_cons_of_mem _ member, failed⟩
          · cases done

theorem decodeColumn_of_relationalFields (read : relationalFields mapping storage row = .ok fields) :
    ∀ entry ∈ row, ∃ decoded, decodeColumn mapping storage entry.1 entry.2 = .ok decoded := by
  induction row generalizing fields with
  | nil => exact fun _ member => nomatch member
  | cons entry rest ih =>
      obtain ⟨column, value⟩ := entry
      by_cases null : value = .null
      · subst null
        exact List.forall_mem_cons.mpr ⟨⟨.null, rfl⟩, ih read⟩
      · rw [relationalFields_cons null] at read
        obtain ⟨decoded, first, continued⟩ := bind_eq_ok.mp read
        obtain ⟨others, later, _⟩ := bind_eq_ok.mp continued
        exact List.forall_mem_cons.mpr ⟨⟨decoded, first⟩, ih later⟩

/-- A row is read when each of its columns is. -/
theorem toObject_isOk_iff (relational : mapper.kind = .relational) :
    (∃ back, mapper.toObject storage row = .ok back) ↔
      ∀ entry ∈ row, ∃ decoded,
        decodeColumn mapper.mapping storage entry.1 entry.2 = .ok decoded := by
  simp only [toObject, relational]
  constructor
  · intro read
    obtain ⟨back, read⟩ := read
    obtain ⟨fields, decoded, _⟩ := bind_eq_ok.mp read
    exact decodeColumn_of_relationalFields decoded
  · intro each
    cases read : relationalFields mapper.mapping storage row with
    | ok fields => exact ⟨_, rfl⟩
    | error error =>
        obtain ⟨entry, member, fails⟩ := relationalFields_error read
        obtain ⟨decoded, succeeds⟩ := each entry member
        rw [fails] at succeeds
        cases succeeds

theorem toRow_relational (relational : mapper.kind = .relational)
    (written : mapper.toRow storage object = .ok row) :
    ∃ renamed, mapper.mapping.toColumns storage object = .ok renamed ∧ renamed.Distinct ∧
      relationalRow storage (mapper.mapping.columns storage) renamed = .ok row := by
  obtain ⟨renamed, columns, mapped⟩ := bind_eq_ok.mp written
  simp only [relational, RowMapper.columns] at mapped
  exact ⟨renamed, columns, Mapping.distinct_toColumns columns, mapped⟩

section

variable (distinct : renamed.Distinct)
variable (mapped : relationalRow storage (mapping.columns storage) renamed = .ok row)

include distinct

theorem stored_of_mem {entry : String × Value} (member : entry ∈ renamed) :
    stored renamed entry.1 = encodeNested entry.2 := by
  rw [stored, Dict.get?_of_mem distinct member, Option.getD_some]

include mapped

/-- A row holds what its object does. -/
theorem mem_row_of_mem {entry : String × Value} (member : entry ∈ renamed) :
    (entry.1, encodeNested entry.2) ∈ row := by
  obtain ⟨_, _, held⟩ := stored_relationalRow distinct mapped
  have column := keys_subset_relationalRow distinct mapped (Dict.mem_keys_of_mem member)
  have found := held entry.1 column
  rw [stored_of_mem distinct member] at found
  exact Dict.mem_of_get? found

/-- What else a row holds is null. -/
theorem mem_of_mem_row {entry : String × Value} (member : entry ∈ row) :
    entry.2 = .null ∨ ∃ value, (entry.1, value) ∈ renamed ∧ entry.2 = encodeNested value := by
  obtain ⟨once, _, held⟩ := stored_relationalRow distinct mapped
  have found := held entry.1 (Dict.mem_keys_of_mem member)
  rw [Dict.get?_of_mem once member, Option.some.injEq] at found
  cases origin : Dict.get? renamed entry.1 with
  | none =>
      rw [stored, origin] at found
      exact .inl found
  | some value =>
      have inObject := Dict.mem_of_get? origin
      exact .inr ⟨value, inObject, found.trans (stored_of_mem distinct inObject)⟩

end

section

variable (relational : mapper.kind = .relational) (distinct : renamed.Distinct)
variable (mapped : relationalRow storage (mapper.mapping.columns storage) renamed = .ok row)

include relational distinct mapped

theorem row_is_read_iff_legible :
    (∃ back, mapper.toObject storage row = .ok back) ↔
      ∀ entry ∈ renamed, Legible mapper.mapping storage entry.1 entry.2 := by
  rw [toObject_isOk_iff relational]
  constructor
  · intro each entry member
    exact decodes_iff_legible.mp (each _ (mem_row_of_mem distinct mapped member))
  · intro each entry member
    rcases mem_of_mem_row distinct mapped member with null | ⟨value, inObject, encoded⟩
    · exact ⟨.null, by rw [null]; rfl⟩
    · rw [encoded]
      exact decodes_iff_legible.mpr (each _ inObject)

theorem illegible_of_unread (unread : mapper.toObject storage row = .error error) :
    ∃ entry ∈ renamed, ¬ Legible mapper.mapping storage entry.1 entry.2 ∧
      error = .mapping (.invalidJson storage entry.1) := by
  simp only [toObject, relational] at unread
  rcases bind_eq_error.mp unread with fails | ⟨_, _, done⟩
  · obtain ⟨entry, member, failed⟩ := relationalFields_error fails
    rcases mem_of_mem_row distinct mapped member with null | ⟨value, inObject, encoded⟩
    · rw [null] at failed
      cases failed
    · rw [encoded] at failed
      refine ⟨_, inObject, fun legible => ?_, decodeColumn_error failed⟩
      obtain ⟨decoded, succeeds⟩ := decodes_iff_legible.mpr legible
      rw [failed] at succeeds
      cases succeeds
  · cases done

end

theorem decodeAll_fails {rows : List Record} (member : row ∈ rows)
    (unread : mapper.toObject storage row = .error error) (objects : List BusinessObject) :
    mapper.decodeAll storage (Cursor.ofList rows) ≠ .ok objects := by
  induction rows generalizing objects with
  | nil => cases member
  | cons first rest ih =>
      intro decoded
      obtain ⟨object, read, continued⟩ := bind_eq_ok.mp decoded
      obtain ⟨others, later, _⟩ := bind_eq_ok.mp continued
      rcases List.mem_cons.mp member with rfl | inRest
      · rw [unread] at read
        cases read
      · exact ih inRest others later

/-- A row that was written is read back exactly if each of its columns gives back what it was given,
and a row that is not makes every fetch of it fail. -/
theorem written_row_is_read_iff (relational : mapper.kind = .relational)
    (written : mapper.toRow storage object = .ok row) :
    ∃ renamed, mapper.mapping.toColumns storage object = .ok renamed ∧
      ((∃ back, mapper.toObject storage row = .ok back) ↔
        ∀ entry ∈ renamed, Legible mapper.mapping storage entry.1 entry.2) ∧
      ∀ error, mapper.toObject storage row = .error error →
        (∃ entry ∈ renamed, ¬ Legible mapper.mapping storage entry.1 entry.2 ∧
          error = .mapping (.invalidJson storage entry.1)) ∧
        ∀ rows, row ∈ rows → ∀ objects,
          mapper.decodeAll storage (Cursor.ofList rows) ≠ .ok objects := by
  obtain ⟨renamed, columns, distinct, mapped⟩ := toRow_relational relational written
  refine ⟨renamed, columns, row_is_read_iff_legible relational distinct mapped, ?_⟩
  intro error unread
  exact ⟨illegible_of_unread relational distinct mapped unread,
    fun rows member objects => decodeAll_fails member unread objects⟩

def orders : RowMapper where
  kind := .relational
  mapping := [("orders", [{ use := .plain, field := "id", column := "order_id" },
    { use := .plain, field := "total", column := "total" },
    { use := .json, field := "lines", column := "lines_json" }])]

def order : Record :=
  [("id", .string "o1"), ("lines", .sequence [.map [("sku", .string "a")]])]

theorem order_row_is_read :
    ∃ row back, orders.toRow "orders" { root := .map order } = .ok row ∧
      orders.toObject "orders" row = .ok back := by
  have written : orders.toRow "orders" { root := .map order } =
      .ok [("order_id", .string "o1"), ("total", .null),
        ("lines_json", .string "[\x7b\"sku\":\"a\"\x7d]")] := by decide +kernel
  obtain ⟨renamed, columns, read, _⟩ := written_row_is_read_iff rfl written
  obtain rfl : [("order_id", .string "o1"), ("lines_json", order[1].2)] = renamed :=
    Except.ok.inj columns
  have id : Legible orders.mapping "orders" "order_id" (.string "o1") := fun json => nomatch json
  have lines : Legible orders.mapping "orders" "lines_json" order[1].2 :=
    fun _ => ⟨by decide, fun _ same => nomatch same⟩
  obtain ⟨back, same⟩ :=
    read.mpr (List.forall_mem_cons.mpr ⟨id, List.forall_mem_singleton.mpr lines⟩)
  exact ⟨_, back, written, same⟩

/-- A text in a column of JSON text is written as it is. -/
theorem plain_note_is_written_but_not_read :
    let notes : RowMapper :=
      { kind := .relational,
        mapping := [("t", [{ use := .json, field := "note", column := "note" }])] }
    let hello : Record := [("note", .string "hello")]
    (Value.map hello).depth ≤ Json.nestingLimit ∧
      notes.toRow "t" { root := .map hello } = .ok hello ∧
      notes.toObject "t" hello = .error (.mapping (.invalidJson "t" "note")) := by
  decide +kernel

/-- A field with a value that its column gives back as it was. -/
structure Fits (mapper : RowMapper) (storage : String) (names : List String) (field : String)
    (value : Value) : Prop where
  listed : mapper.columnOf storage field ∈ names
  returns : mapper.Returns storage field
  nested : value.isContainer = true →
    (mapper.mapping.table storage).isJsonColumn (mapper.columnOf storage field) = true ∧
      value.Integral ∧ value.depth ≤ Json.nestingLimit
  unquoted : (mapper.mapping.table storage).isJsonColumn (mapper.columnOf storage field) = true →
    value.kind ≠ .string

theorem Fits.decodeColumn_eq (fits : mapper.Fits storage names field value)
    (well : value.WellFormed) :
    decodeColumn mapper.mapping storage (mapper.columnOf storage field) (encodeNested value) =
      .ok value := by
  cases value with
  | null | bool | number => rfl
  | string text =>
      refine decodeColumn_plain (Bool.eq_false_iff.mpr fun json => ?_) _
      exact fits.unquoted json rfl
  | sequence | map =>
      obtain ⟨json, integral, bounded⟩ := fits.nested rfl
      rw [decodeColumn_container json rfl, if_pos bounded, Value.reread_eq_self well integral]

/-- What an object has for a column. -/
def held (renamed : Record) (column : String) : Value := (Dict.get? renamed column).getD .null

/-- The fields whose columns are listed, without those that are null. -/
def readBack (mapping : Mapping) (storage : String) (names : List String) (renamed : Record) :
    Record :=
  (names.filter fun column => !(held renamed column).isNull).map fun column =>
    (mapping.fieldOf storage column, held renamed column)

theorem relationalFields_stored
    (each : ∀ column ∈ names,
      decodeColumn mapping storage column (stored renamed column) = .ok (held renamed column)) :
    relationalFields mapping storage (names.map fun column => (column, stored renamed column)) =
      .ok (readBack mapping storage names renamed) := by
  induction names with
  | nil => rfl
  | cons column rest ih =>
      have later := ih fun other member => each other (List.mem_cons_of_mem _ member)
      have first := each column List.mem_cons_self
      rw [readBack, List.map_cons]
      by_cases null : held renamed column = .null
      · have empty : stored renamed column = .null := encodeNested_eq_null_iff.mpr null
        rw [List.filter_cons_of_neg (by simp [null, Value.isNull]), empty]
        exact later
      · have encoded : stored renamed column ≠ .null := mt encodeNested_eq_null_iff.mp null
        have kept : (!(held renamed column).isNull) = true := by
          simpa [← Value.isNull_iff] using null
        rw [relationalFields_cons encoded, first, later, List.filter_cons_of_pos (by exact kept)]
        rfl

theorem mem_of_held (present : held (mapper.renamed storage fields) column ≠ .null) :
    ∃ entry ∈ fields, mapper.columnOf storage entry.1 = column ∧
      held (mapper.renamed storage fields) column = entry.2 := by
  unfold held at present ⊢
  cases found : Dict.get? (mapper.renamed storage fields) column with
  | none =>
      rw [found] at present
      exact (present rfl).elim
  | some value =>
      obtain ⟨entry, member, same⟩ := List.mem_map.mp (Dict.mem_of_get? found)
      obtain ⟨name, rfl⟩ := Prod.mk.inj same
      exact ⟨entry, member, name, rfl⟩

section

variable (returns : ∀ name ∈ Dict.keys fields, mapper.Returns storage name)
variable (distinct : Dict.Distinct fields)

include returns

theorem held_renamed {entry : String × Value} (distinct : Dict.Distinct fields)
    (member : entry ∈ fields) :
    held (mapper.renamed storage fields) (mapper.columnOf storage entry.1) = entry.2 := by
  rw [held, get?_renamed returns (returns _ (Dict.mem_keys_of_mem member)),
    Dict.get?_of_mem distinct member, Option.getD_some]

/-- The columns that an object has something for lead back to its fields. -/
theorem mem_of_readBack (present : held (mapper.renamed storage fields) column ≠ .null) :
    (mapper.fieldOf storage column, held (mapper.renamed storage fields) column) ∈ fields := by
  obtain ⟨entry, member, rfl, value⟩ := mem_of_held present
  rw [returns _ (Dict.mem_keys_of_mem member), value]
  exact member

theorem distinct_readBack (once : names.Nodup) :
    Dict.Distinct (readBack mapper.mapping storage names (mapper.renamed storage fields)) := by
  rw [Dict.Distinct, Dict.keys, readBack, List.map_map]
  refine List.Nodup.map_on ?_ (once.filter _)
  intro first ofFirst second ofSecond same
  have present {column : String} (kept : column ∈ names.filter fun column =>
      !(held (mapper.renamed storage fields) column).isNull) :
      held (mapper.renamed storage fields) column ≠ .null := by
    simpa [← Value.isNull_iff] using (List.mem_filter.mp kept).2
  obtain ⟨one, inObject, rfl, _⟩ := mem_of_held (present ofFirst)
  obtain ⟨other, alsoInObject, rfl, _⟩ := mem_of_held (present ofSecond)
  have names : one.1 = other.1 := by
    rw [← returns _ (Dict.mem_keys_of_mem inObject), ← returns _ (Dict.mem_keys_of_mem alsoInObject)]
    exact same
  rw [names]

/-- Where all columns are listed, nothing but nulls gets lost. -/
theorem readBack_perm (distinct : Dict.Distinct fields) (once : names.Nodup)
    (listed : ∀ name ∈ Dict.keys fields, mapper.columnOf storage name ∈ names) :
    (readBack mapper.mapping storage names (mapper.renamed storage fields)).Perm
      (Dict.filterValues (!·.isNull) fields) := by
  refine (List.perm_ext_iff_of_nodup (distinct_readBack returns once).of_map
    (Dict.distinct_filterValues _ distinct).of_map).mpr fun entry => ?_
  rw [readBack, List.mem_map, Dict.filterValues, List.mem_filter]
  constructor
  · rintro ⟨column, kept, rfl⟩
    obtain ⟨_, present⟩ := List.mem_filter.mp kept
    exact ⟨mem_of_readBack returns (by simpa [← Value.isNull_iff] using present), present⟩
  · rintro ⟨member, present⟩
    have name := Dict.mem_keys_of_mem member
    have value := held_renamed returns distinct member
    refine ⟨mapper.columnOf storage entry.1, List.mem_filter.mpr ⟨listed _ name, ?_⟩, ?_⟩
    · rw [value]
      exact present
    · rw [value]
      exact Prod.ext (returns _ name) rfl

end

theorem stored_of_vacant
    (vacant : ∀ name ∈ Dict.keys fields, mapper.columnOf storage name ≠ column) :
    stored (mapper.renamed storage fields) column = .null := by
  refine encodeNested_eq_null_iff.mpr (by_contra fun present => ?_)
  obtain ⟨entry, member, same, _⟩ := mem_of_held present
  exact vacant _ (Dict.mem_keys_of_mem member) same

theorem decodeColumn_of_fits (each : ∀ entry ∈ fields, entry.2.WellFormed)
    (fits : ∀ entry ∈ fields, mapper.Fits storage names entry.1 entry.2) (column : String) :
    decodeColumn mapper.mapping storage column (stored (mapper.renamed storage fields) column) =
      .ok (held (mapper.renamed storage fields) column) := by
  by_cases null : held (mapper.renamed storage fields) column = .null
  · have empty : stored (mapper.renamed storage fields) column = .null :=
      encodeNested_eq_null_iff.mpr null
    rw [null, empty]
    rfl
  · obtain ⟨entry, member, rfl, value⟩ := mem_of_held null
    rw [stored, ← held, value]
    exact (fits entry member).decodeColumn_eq (each entry member)

section

variable (relational : mapper.kind = .relational)
variable (columns : mapper.columns storage = .listed names) (root : object.root = .map fields)

include relational columns

theorem nodup_listed : names.Nodup := by
  simp only [RowMapper.columns, relational] at columns
  exact Mapping.nodup_columns columns

include root

theorem toRow_listed (returns : ∀ name ∈ Dict.keys fields, mapper.Returns storage name)
    (distinct : Dict.Distinct fields)
    (listed : ∀ name ∈ Dict.keys fields, mapper.columnOf storage name ∈ names) :
    mapper.toRow storage object =
      .ok (names.map fun column => (column, stored (mapper.renamed storage fields) column)) := by
  have mapped := toColumns_eq returns distinct root
  have apart := Mapping.distinct_toColumns mapped
  have all : ∀ column ∈ Dict.keys (mapper.renamed storage fields), column ∈ names := by
    intro column member
    rw [renamed, Dict.keys_map] at member
    obtain ⟨name, inObject, rfl⟩ := List.mem_map.mp member
    exact listed name inObject
  obtain ⟨row, complete⟩ := exists_relationalRow storage apart all
  have once := nodup_listed relational columns
  simp only [toRow, mapped, relational, columns]
  rw [← (relationalRow_listed apart once complete).1]
  exact complete

theorem fitting_object_is_read_back (well : (Value.map fields).WellFormed)
    (fits : ∀ entry ∈ fields, mapper.Fits storage names entry.1 entry.2) :
    ∃ row back, mapper.toRow storage object = .ok row ∧ Dict.keys row = names ∧
      (∀ column ∈ names, (∀ name ∈ Dict.keys fields, mapper.columnOf storage name ≠ column) →
        Dict.get? row column = some .null) ∧
      mapper.toObject storage row = .ok { root := .map back } ∧
      back.Perm (Dict.filterValues (!·.isNull) fields) := by
  obtain ⟨distinct, each⟩ := Value.wellFormed_map.mp well
  have fit (name : String) (member : name ∈ Dict.keys fields) :
      ∃ value, mapper.Fits storage names name value := by
    obtain ⟨entry, inObject, rfl⟩ := List.mem_map.mp member
    exact ⟨_, fits entry inObject⟩
  have returns (name : String) (member : name ∈ Dict.keys fields) : mapper.Returns storage name :=
    (fit name member).choose_spec.returns
  have listed (name : String) (member : name ∈ Dict.keys fields) :
      mapper.columnOf storage name ∈ names :=
    (fit name member).choose_spec.listed
  have once := nodup_listed relational columns
  have read := relationalFields_stored fun column (_ : column ∈ names) =>
    decodeColumn_of_fits each fits column
  refine ⟨_, readBack mapper.mapping storage names (mapper.renamed storage fields),
    toRow_listed relational columns root returns distinct listed, Dict.keys_map_self names _,
    fun column member vacant => ?_, ?_, readBack_perm returns distinct once listed⟩
  · rw [Dict.get?_map_self _ member, stored_of_vacant vacant]
  · simp only [toObject, relational, read]
    rw [ok_bind, Dict.ofList_eq_self (distinct_readBack returns once)]
    rfl

theorem unlisted_field_is_refused (unlisted : ∃ name ∈ Dict.keys fields,
      mapper.columnOf storage name ∉ names) :
    ∃ name ∈ Dict.keys fields, mapper.columnOf storage name ∉ names ∧
      mapper.toRow storage object =
        .error (.mapping (.noColumn storage (mapper.columnOf storage name))) := by
  have mapped := toColumns_map mapper storage root
  obtain ⟨name, member, absent⟩ := unlisted
  obtain ⟨missing, renamed, unlisted, refused⟩ := relationalRow_unlisted storage
    (Mapping.distinct_toColumns mapped) (Dict.mem_keys_mapKeys.mpr ⟨name, member, rfl⟩) absent
  obtain ⟨other, inObject, rfl⟩ := Dict.mem_keys_mapKeys.mp renamed
  refine ⟨other, inObject, unlisted, ?_⟩
  simp only [toRow, mapped, relational, columns]
  exact refused

/-- Objects that fit the columns are read back from their rows, and objects with other columns have
no rows. -/
theorem listed_row_round_trip (well : (Value.map fields).WellFormed) :
    ((∀ entry ∈ fields, mapper.Fits storage names entry.1 entry.2) →
      ∃ row back, mapper.toRow storage object = .ok row ∧ Dict.keys row = names ∧
        (∀ column ∈ names, (∀ name ∈ Dict.keys fields, mapper.columnOf storage name ≠ column) →
          Dict.get? row column = some .null) ∧
        mapper.toObject storage row = .ok { root := .map back } ∧
        back.Perm (Dict.filterValues (!·.isNull) fields)) ∧
    ((∃ name ∈ Dict.keys fields, mapper.columnOf storage name ∉ names) →
      ∃ name ∈ Dict.keys fields, mapper.columnOf storage name ∉ names ∧
        mapper.toRow storage object =
          .error (.mapping (.noColumn storage (mapper.columnOf storage name)))) :=
  ⟨fitting_object_is_read_back relational columns root well,
    unlisted_field_is_refused relational columns root⟩

end

theorem order_is_read_back :
    (∃ row back, orders.toRow "orders" { root := .map order } = .ok row ∧
      Dict.keys row = ["order_id", "total", "lines_json"] ∧
      Dict.get? row "total" = some .null ∧
      orders.toObject "orders" row = .ok { root := .map back } ∧ back.Perm order) ∧
    ∃ column, orders.toRow "orders" { root := .map [("id", .string "o1"), ("note", .string "x")] } =
      .error (.mapping (.noColumn "orders" column)) := by
  have columns : orders.columns "orders" = .listed ["order_id", "total", "lines_json"] := by decide
  have well : (Value.map order).WellFormed :=
    ⟨by decide, trivial, ⟨⟨⟨by decide, trivial, trivial⟩, trivial⟩, trivial⟩⟩
  have noted : (Value.map [("id", .string "o1"), ("note", .string "x")]).WellFormed :=
    ⟨by decide, trivial, trivial, trivial⟩
  have id : orders.Fits "orders" ["order_id", "total", "lines_json"] "id" (.string "o1") := by
    constructor
    · decide
    · decide
    · exact fun container => nomatch container
    · exact fun json => nomatch json
  have lines : orders.Fits "orders" ["order_id", "total", "lines_json"] "lines" order[1].2 := by
    constructor
    · decide
    · decide
    · exact fun _ => ⟨by decide, ⟨⟨trivial, trivial⟩, trivial⟩, by decide⟩
    · exact fun _ => by decide
  obtain ⟨row, back, written, keys, vacant, read, same⟩ :=
    (listed_row_round_trip rfl columns rfl well).1
      (List.forall_mem_cons.mpr ⟨id, List.forall_mem_singleton.mpr lines⟩)
  obtain ⟨name, _, _, refused⟩ :=
    (listed_row_round_trip rfl columns rfl noted).2 ⟨"note", by decide, by decide⟩
  exact ⟨⟨row, back, written, keys, vacant "total" (by decide) (by decide), read, same⟩, _, refused⟩

end RowMapper

end DataAccess
