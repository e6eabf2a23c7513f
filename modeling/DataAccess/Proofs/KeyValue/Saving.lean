import DataAccess.Proofs.KeyValue.Creation
import DataAccess.Proofs.KeyValue.Map
import DataAccess.Proofs.Operation
import DataAccess.Proofs.OwnKey

namespace DataAccess

namespace KeyValue

namespace Table

variable {table : Table} {name : String} {under : Key} {item : Record} {condition : Condition}

/-- After a put an item is the only one that satisfies a condition just when it does and all that did
before stood in its place. -/
theorem scan_put_eq_singleton_iff (placed : table.Placed name) :
    (table.put under item).scan (some condition) = [item] ↔ condition.evaluate item = true ∧
      ∀ other ∈ table.scan (some condition), keyText table.spec name other = .ok under := by
  have written : Sorted (table.put under item).items := sorted_putItem placed.sorted
  have entries : (table.put under item).scan (some condition) =
      ((table.put under item).items.filter fun entry => condition.evaluate entry.2).map
        Prod.snd := by
    rw [scan, List.filter_map]
    rfl
  have mem_entries (entry : Key × Record) :
      entry ∈ ((table.put under item).items.filter fun entry => condition.evaluate entry.2) ↔
        (entry = (under, item) ∨ entry ∈ table.items ∧ entry.1 ≠ under) ∧
          condition.evaluate entry.2 = true := by
    rw [List.mem_filter]
    exact and_congr_left fun _ => mem_putItem placed.sorted
  constructor
  · intro alone
    have matched : condition.evaluate item = true :=
      (mem_scan.mp (alone ▸ List.mem_singleton.mpr rfl)).2
    refine ⟨matched, fun other scanned => ?_⟩
    obtain ⟨⟨key, member⟩, holds⟩ := mem_scan.mp scanned
    by_cases same : key = under
    · exact same ▸ placed.placed _ member
    -- Under another key it would still be there, beside the item.
    · obtain ⟨entry, single, -⟩ := List.map_eq_singleton_iff.mp (entries.symm.trans alone)
      have own := (mem_entries (under, item)).mpr ⟨.inl rfl, matched⟩
      have others := (mem_entries (key, other)).mpr ⟨.inr ⟨member, same⟩, holds⟩
      rw [single, List.mem_singleton] at own others
      exact absurd (congrArg Prod.fst (others.trans own.symm)) same
  · rintro ⟨matched, elsewhere⟩
    have single : ((table.put under item).items.filter fun entry => condition.evaluate entry.2) =
        [(under, item)] := by
      refine List.perm_singleton.mp ((List.perm_ext_iff_of_nodup (written.nodup.filter _)
        (List.nodup_singleton _)).mpr fun entry => ?_)
      rw [mem_entries, List.mem_singleton]
      constructor
      · rintro ⟨same | ⟨member, apart⟩, holds⟩
        · exact same
        · have here := elsewhere entry.2 (mem_scan.mpr ⟨⟨entry.1, member⟩, holds⟩)
          rw [placed.placed entry member] at here
          exact absurd (Except.ok.inj here) apart
      · rintro rfl
        exact ⟨.inl rfl, matched⟩
    rw [entries, single, List.map_singleton]

end Table

theorem keyText_of_agree {spec : TableSpec} {table : String} {item other : Record} {key : Key}
    (agree : ∀ name ∈ spec.keyAttributes, Dict.get? other name = Dict.get? item name)
    (text : keyText spec table item = .ok key) : keyText spec table other = .ok key := by
  rw [keyText_eq_ok] at text ⊢
  rw [← text]
  refine List.map_congr_left fun name member => ?_
  rw [attributeText, attributeText, agree name member]

end KeyValue

namespace KeyValueDao

open KeyValue (Store Table TableSpec Reached connection keyText)

variable {dao : KeyValueDao} {primary : PrimaryKey} {storage : String} {object : BusinessObject}
variable {filter : Filter} {fields item row : Record} {context : Context} {count : Nat}
variable {world after : World Store} {table : Table}

/-- A save that succeeds has put the object's item under the key of the table. -/
theorem save_eq_ok (found : Dict.get? world.store.tables storage = some table)
    (saved : (dao.save context storage object).on connection world = (.ok count, after)) :
    ∃ row text, dao.mapper.toRow storage object = .ok row ∧
      keyText table.spec storage row = .ok text ∧
      after.store.tables = Dict.insert world.store.tables storage (table.put text row) := by
  obtain ⟨spec, described, ofDescribe, prepares⟩ := Operation.on_bind_eq_ok saved
  obtain ⟨⟨row, attributes⟩, prepared, ofItem, puts⟩ := Operation.on_bind_eq_ok prepares
  obtain ⟨_, written, ofPut, answers⟩ := Operation.on_bind_eq_ok puts
  cases answers
  have read := Operation.on_call_eq_ok KeyValue.perform_eq_checked ofDescribe
  have put := Operation.on_call_eq_ok KeyValue.perform_eq_checked ofPut
  -- Neither the description of the table nor the item changes the store before the put.
  simp only [Store.act, KeyValue.table_of_get? found, Except.map] at read
  obtain ⟨_, unread⟩ := Prod.mk.inj read
  rw [Operation.on_ofExcept] at ofItem
  obtain ⟨held, rfl⟩ := Prod.mk.inj ofItem
  obtain ⟨mapped, ofRow, keyed⟩ := bind_eq_ok.mp held
  obtain ⟨_, _, paired⟩ := bind_eq_ok.mp keyed
  cases paired
  simp only [Store.act, Store.putItem, ← unread] at put
  cases approved : world.store.approve storage row none with
  | error error =>
      rw [approved] at put
      cases put
  | ok target =>
      obtain ⟨held, text⟩ := target
      obtain ⟨same, placed, -⟩ := Store.approve_eq_ok.mp approved
      cases found.symm.trans same
      rw [approved] at put
      exact ⟨row, text, ofRow, placed, (congrArg Store.tables (congrArg Prod.snd put)).symm⟩

/-- Under the columns of the key fields, the item has values that are equal to the object's. -/
def Matches (dao : KeyValueDao) (primary : PrimaryKey) (storage : String) (object : BusinessObject)
    (item : Record) : Prop :=
  ∀ name ∈ primary.fieldsOf storage, ∃ stored value,
    Record.field? item (dao.mapper.columnOf storage name) = some stored ∧
      object.attribute? name = some value ∧ stored.equal value = true

/-- The key attributes of a table are columns of key fields that hold texts. -/
def Covers (dao : KeyValueDao) (primary : PrimaryKey) (storage : String) (spec : TableSpec)
    (object : BusinessObject) : Prop :=
  ∀ column ∈ spec.keyAttributes, '.' ∉ column.toList ∧
    ∃ name ∈ primary.fieldsOf storage, dao.mapper.columnOf storage name = column ∧
      ∃ text, object.attribute? name = some (.string text)

theorem exists_matching (keyed : primary.filter storage object = .ok filter) :
    ∃ condition, dao.condition storage (some filter) = .ok (some condition) ∧
      ∀ item, condition.evaluate item = true ↔ dao.Matches primary storage object item := by
  obtain ⟨found, -⟩ := PrimaryKey.filter_eq_ok keyed
  obtain ⟨condition, compiled, evaluated⟩ :=
    @exists_condition dao storage filter (PrimaryKey.validate_filter keyed)
  refine ⟨condition, compiled, fun item => ?_⟩
  rw [evaluated, PrimaryKey.combine_filter keyed]
  refine forall₂_congr fun name member => ?_
  obtain ⟨value, ofName⟩ := found name member
  have own := BusinessObject.attribute?_of_get ofName
  simp only [PrimaryKey.ownClause, Filter.rename, own, Option.getD_some]
  rw [KeyValue.testHolds_equal]
  constructor
  · rintro ⟨stored, held, equal⟩
    exact ⟨stored, value, held, rfl, equal⟩
  · rintro ⟨stored, _, held, ⟨⟩, equal⟩
    exact ⟨stored, held, equal⟩

/-- Items that match a key filter on the key of the table have one key. -/
theorem keyText_of_matches {spec : TableSpec} {text : KeyValue.Key}
    (covers : dao.Covers primary storage spec object)
    (here : dao.Matches primary storage object row)
    (there : dao.Matches primary storage object item)
    (placed : keyText spec storage row = .ok text) : keyText spec storage item = .ok text := by
  refine KeyValue.keyText_of_agree (fun column listed => ?_) placed
  obtain ⟨undotted, name, member, rfl, key, own⟩ := covers column listed
  have held (record : Record) (found : dao.Matches primary storage object record) :
      Dict.get? record (dao.mapper.columnOf storage name) = some (.string key) := by
    obtain ⟨stored, value, atColumn, ofName, equal⟩ := found name member
    cases own.symm.trans ofName
    rw [Record.field?_undotted undotted] at atColumn
    rw [atColumn]
    cases stored with
    | string other => rw [eq_of_beq ((Value.equal_string other key).symm.trans equal)]
    | _ => cases equal
  rw [held item there, held row here]

/-- Where no two of its fields have one column, an object is found in its own item. -/
theorem matches_row (plain : ∀ name ∈ primary.fieldsOf storage, Path.Plain name)
    (keyed : primary.filter storage object = .ok filter) (root : object.root = .map fields)
    (well : object.root.WellFormed)
    (apart : ((Dict.keys fields).map (dao.mapper.columnOf storage)).Nodup)
    (mapped : dao.mapper.toRow storage object = .ok row) :
    dao.Matches primary storage object row := by
  have distinct : Dict.Distinct (dao.mapper.renamed storage fields) := by
    rw [Dict.Distinct, RowMapper.renamed, Dict.keys_map]
    exact apart
  simp only [RowMapper.toRow, RowMapper.toColumns_of_apart root apart, ok_bind] at mapped
  cases mapped
  intro name member
  obtain ⟨value, ofName⟩ := (PrimaryKey.filter_eq_ok keyed).1 name member
  have own := BusinessObject.attribute?_of_get ofName
  obtain ⟨atName, present⟩ := Option.filter_eq_some_iff.mp
    ((BusinessObject.attribute?_plain root (plain name member)).symm.trans own)
  have held : Dict.get? (dao.mapper.renamed storage fields) (dao.mapper.columnOf storage name) =
      some value := Dict.get?_map_of_apart apart atName
  have stored : Record.field? (Dict.filterValues (!·.isNull) (dao.mapper.renamed storage fields))
      (dao.mapper.columnOf storage name) = some value := by
    have kept : (some value).filter (!·.isNull) = some value := Option.filter_some_pos present
    rw [Record.field?, Dict.get?_filterValues _ distinct, held, kept]
  refine ⟨value, value, stored, own, Value.equal_refl ?_⟩
  exact (Value.wellFormed_map.mp (root ▸ well)).2 _ (Dict.mem_of_get? atName)

/-- A save that succeeds puts the object's item in the place of the one with its key. Then it is the
only item that satisfies the object's key filter just when it does satisfy it and no item with
another key did before. An object is found in its own item where no two of its fields have one
column, and it is found there alone if the filter is on the key of the table. -/
theorem save_leaves_one_match_iff {past : List KeyValue.Deed} (reached : Reached past world)
    (found : Dict.get? world.store.tables storage = some table)
    (declared : dao.key = primary.filter) (keyed : dao.key storage object = .ok filter)
    (plain : ∀ name ∈ primary.fieldsOf storage, Path.Plain name)
    (root : object.root = .map fields) (well : object.root.WellFormed)
    (saved : (dao.save context storage object).on connection world = (.ok count, after)) :
    ∃ condition row text,
      dao.condition storage (some filter) = .ok (some condition) ∧
      dao.mapper.toRow storage object = .ok row ∧
      keyText table.spec storage row = .ok text ∧
      Dict.get? after.store.tables storage = some (table.put text row) ∧
      ((table.put text row).scan (some condition) = [row] ↔
        condition.evaluate row = true ∧ ∀ other ∈ table.scan (some condition),
          keyText table.spec storage other = .ok text) ∧
      (((Dict.keys fields).map (dao.mapper.columnOf storage)).Nodup →
        condition.evaluate row = true ∧
          (dao.Covers primary storage table.spec object →
            (table.put text row).scan (some condition) = [row])) := by
  rw [declared] at keyed
  have placed := (reached.follows.present storage table found).toPlaced
  obtain ⟨row, text, mapped, located, put⟩ := save_eq_ok found saved
  obtain ⟨condition, compiled, evaluated⟩ := exists_matching keyed
  have alone := @Table.scan_put_eq_singleton_iff table storage text row condition placed
  refine ⟨condition, row, text, compiled, mapped, located, ?_, alone, fun apart => ?_⟩
  · rw [put, Dict.get?_insert_self]
  · have own : condition.evaluate row = true :=
      (evaluated row).mpr (matches_row plain keyed root well apart mapped)
    refine ⟨own, fun covers => alone.mpr ⟨own, fun other scanned => ?_⟩⟩
    have there := (evaluated other).mp (Table.mem_scan.mp scanned).2
    exact keyText_of_matches covers ((evaluated row).mp own) there located

/-- Members have an `id`, and are looked for by their address. -/
def members : TableSpec := { partitionKey := "id" }

def byEmail : KeyValueDao := { key := PrimaryKey.filter { fields := ["email"] } }

def hasEmail : KeyValue.Condition :=
  .compare "email" .equal (.literal (.string "a@x"))

def firstMember : Record := [("id", .string "1"), ("email", .string "a@x")]

def namedMember : Record :=
  [("id", .string "1"), ("email", .string "a@x"), ("name", .string "Ada")]

def secondMember : Record := [("id", .string "2"), ("email", .string "a@x")]

def enrolled : World Store :=
  (connection.perform .background (.putItem "members" firstMember none)
    { store := ({} : Store).createTable "members" members }).2

theorem reached_enrolled :
    Reached [.put "members" firstMember, .create "members" members] enrolled :=
  ((Reached.fresh {} {}).created "members" members).called .background
    (.putItem "members" firstMember none)

theorem saved_name_replaces_member :
    ((byEmail.save .background "members" { root := .map namedMember }).on connection
        enrolled).1 = .ok 1 ∧
      ∃ table, Dict.get? ((byEmail.save .background "members" { root := .map namedMember }).on
          connection enrolled).2.store.tables "members" = some table ∧
        table.scan (some hasEmail) = [namedMember] := by
  have well : Value.WellFormed (.map namedMember) :=
    ⟨by decide, trivial, trivial, trivial, trivial⟩
  obtain ⟨condition, row, text, compiled, mapped, located, held, alone, own⟩ :=
    @save_leaves_one_match_iff byEmail { fields := ["email"] } "members"
      { root := .map namedMember } (.compare "email" .equal (.string "a@x"))
      namedMember .background 1 enrolled _ _ _ reached_enrolled rfl rfl rfl (by decide) rfl well rfl
  cases compiled
  cases mapped
  cases located
  refine ⟨rfl, _, held, alone.mpr ⟨(own (by decide)).1, fun other scanned => ?_⟩⟩
  cases List.mem_singleton.mp scanned
  rfl

/-- A second member with the address of the first is stored beside it. -/
theorem saved_address_is_doubled :
    (∃ table, Dict.get? enrolled.store.tables "members" = some table ∧
      table.scan (some hasEmail) = [firstMember]) ∧
    byEmail.key "members" { root := .map secondMember } =
      .ok (.compare "email" .equal (.string "a@x")) ∧
    byEmail.condition "members" (some (.compare "email" .equal (.string "a@x"))) =
      .ok (some hasEmail) ∧
    ((byEmail.save .background "members" { root := .map secondMember }).on connection
        enrolled).1 = .ok 1 ∧
    ∃ table, Dict.get? ((byEmail.save .background "members" { root := .map secondMember }).on
        connection enrolled).2.store.tables "members" = some table ∧
      table.scan (some hasEmail) = [firstMember, secondMember] :=
  ⟨⟨_, rfl, rfl⟩, rfl, rfl, rfl, _, rfl, rfl⟩

end KeyValueDao

end DataAccess
