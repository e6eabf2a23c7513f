import DataAccess.Proofs.KeyValue.Creation
import DataAccess.Proofs.KeyValue.Map
import DataAccess.Proofs.KeyValue.Refinement
import DataAccess.Proofs.KeyValue.Saving
import DataAccess.Proofs.KeyValue.Slot

/-!
# Creating items without a search

Where a key filter asks for the key attributes of the table and for nothing else, `create` leaves
the search for a record out. The put under the condition that the partition key is absent then finds
out the same: it is refused just when the search would have found an item.
-/

namespace DataAccess

theorem BusinessObject.exists_fields_of_get {object : BusinessObject} {name : String} {value : Value}
    (plain : Path.Plain name) (found : object.get name = .ok (some value)) :
    ∃ fields, object.root = .map fields ∧ Dict.get? fields name = some value := by
  obtain ⟨steps, parsed, located, _⟩ := lookup_of_get found
  cases (Path.parse_plain plain).symm.trans parsed
  obtain ⟨child, atName, below⟩ := Option.bind_eq_some_iff.mp located
  cases Option.some.inj below
  cases root : object.root with
  | map fields =>
      rw [root] at atName
      exact ⟨fields, rfl, atName⟩
  | _ =>
      rw [root] at atName
      cases atName

namespace KeyValue

/-- Items share a key just when they agree on all key attributes. -/
theorem keyText_eq_iff_agree {spec : TableSpec} {table : String} {item row : Record}
    {under text : Key} (placed : keyText spec table item = .ok under) (good : spec.GoodKey item)
    (rowPlaced : keyText spec table row = .ok text) (rowGood : spec.GoodKey row) :
    under = text ↔ ∀ column ∈ spec.keyAttributes, Dict.get? item column = Dict.get? row column := by
  constructor
  · rintro rfl
    obtain ⟨values, hasKey⟩ := exists_hasKey rowPlaced
    have goodValues := hasKey.good rowGood
    have texts := Except.ok.inj ((keyText_of_hasKey hasKey goodValues).symm.trans rowPlaced)
    have shared := (texts_eq_iff placed good goodValues).mp texts
    exact List.map_inj_left.mp (shared.trans hasKey.symm)
  · intro agree
    exact Except.ok.inj (placed.symm.trans (keyText_of_agree agree rowPlaced))

end KeyValue

namespace KeyValueDao

open KeyValue (Store Table TableSpec Reached Condition connection interface keyText)

/-- `create`, with a search for the key filter in any case. -/
def createSearching (dao : KeyValueDao) (context : Context) (storage : String)
    (object : BusinessObject) : Operation interface Nat := do
  let spec ← Operation.ofCall (KeyValue.describeTable context storage)
  let (item, _) ← Operation.ofExcept (dao.item storage spec object)
  let filter ← Operation.ofExcept (dao.key.filter storage object)
  let taken ← dao.taken context storage filter
  if taken then throw .duplicateEntry
  else putNew context storage spec item

variable {dao : KeyValueDao} {primary : PrimaryKey} {storage : String} {object : BusinessObject}
variable {filter : Filter} {item row : Record} {context : Context} {world : World Store}
variable {table : Table} {spec : TableSpec} {under text : KeyValue.Key}

theorem equalityFields_filter (keyed : primary.filter storage object = .ok filter) :
    equalityFields filter = some (primary.fieldsOf storage) := by
  obtain ⟨-, ⟨name, names, rfl⟩ | ⟨-, rfl⟩⟩ := PrimaryKey.filter_eq_ok keyed
  · rw [names]
    rfl
  · rw [equalityFields]
    induction primary.fieldsOf storage with
    | nil => rfl
    | cons name rest ih =>
        rw [List.map_cons, equalityFieldsOfAll, ih]
        rfl

theorem columns_of_isTableKey (keyed : primary.filter storage object = .ok filter)
    (isKey : dao.isTableKey storage spec filter = true) :
    (∀ name ∈ primary.fieldsOf storage, dao.mapper.columnOf storage name ∈ spec.keyAttributes) ∧
      ∀ column ∈ spec.keyAttributes,
        ∃ name ∈ primary.fieldsOf storage, dao.mapper.columnOf storage name = column := by
  simp only [isTableKey, equalityFields_filter keyed, decide_eq_true_eq] at isKey
  obtain ⟨-, inside, covered⟩ := isKey
  constructor
  · intro name member
    simpa using List.all_eq_true.mp inside _ (List.mem_map_of_mem member)
  · intro column member
    have listed := List.all_eq_true.mp covered column member
    simpa using listed

/-- The row has the values of the object's key fields, strings and integers, under columns that are
no paths. -/
def Carries (dao : KeyValueDao) (primary : PrimaryKey) (storage : String) (object : BusinessObject)
    (row : Record) : Prop :=
  ∀ name ∈ primary.fieldsOf storage, ∃ value, object.attribute? name = some value ∧
    value.isKey = true ∧ '.' ∉ (dao.mapper.columnOf storage name).toList ∧
      Dict.get? row (dao.mapper.columnOf storage name) = some value

/-- An object whose fields the mapper translates to columns that are no paths, and back. -/
def Translates (dao : KeyValueDao) (storage : String) (object : BusinessObject) : Prop :=
  ∀ fields, object.root = .map fields → ∀ name ∈ Dict.keys fields,
    dao.mapper.Returns storage name ∧ '.' ∉ (dao.mapper.columnOf storage name).toList

theorem carries_row (plain : ∀ name ∈ primary.fieldsOf storage, Path.Plain name)
    (good : ∀ name ∈ primary.fieldsOf storage, ∀ value,
      object.get name = .ok (some value) → value.isKey = true)
    (well : object.root.WellFormed) (translates : dao.Translates storage object)
    (keyed : primary.filter storage object = .ok filter)
    (mapped : dao.mapper.toRow storage object = .ok row) :
    dao.Carries primary storage object row := by
  intro name member
  obtain ⟨value, ofName⟩ := (PrimaryKey.filter_eq_ok keyed).1 name member
  obtain ⟨fields, root, atName⟩ := BusinessObject.exists_fields_of_get (plain name member) ofName
  have distinct : Dict.Distinct fields := (Value.wellFormed_map.mp (root ▸ well)).1
  have columns := translates fields root
  have returns : ∀ name ∈ Dict.keys fields, dao.mapper.Returns storage name :=
    fun name member => (columns name member).1
  obtain ⟨ofColumn, undotted⟩ := columns name (Dict.mem_keys_of_mem (Dict.mem_of_get? atName))
  have own := BusinessObject.attribute?_of_get ofName
  have held := RowMapper.field?_item returns ⟨plain name member, ofColumn, undotted⟩ distinct root
  cases (RowMapper.toRow_keyValue returns distinct rfl root).symm.trans mapped
  rw [Record.field?_undotted undotted, own] at held
  exact ⟨value, own, good name member value ofName, undotted, held⟩

section

variable (carries : dao.Carries primary storage object row)
variable (inside : ∀ name ∈ primary.fieldsOf storage,
  dao.mapper.columnOf storage name ∈ spec.keyAttributes)
variable (covered : ∀ column ∈ spec.keyAttributes,
  ∃ name ∈ primary.fieldsOf storage, dao.mapper.columnOf storage name = column)

include carries covered

theorem Carries.goodKey : spec.GoodKey row := by
  intro column member found atColumn
  obtain ⟨name, atName, rfl⟩ := covered column member
  obtain ⟨value, _, isKey, _, held⟩ := carries name atName
  cases held.symm.trans atColumn
  exact isKey

theorem Carries.exists_keyText : ∃ text, keyText spec storage row = .ok text := by
  refine ⟨_, KeyValue.keyText_of_scalar fun column member => ?_⟩
  obtain ⟨name, atName, rfl⟩ := covered column member
  obtain ⟨value, _, isKey, _, held⟩ := carries name atName
  exact ⟨value, held, Value.isScalar_of_isKey isKey⟩

theorem Carries.undotted : '.' ∉ spec.partitionKey.toList := by
  obtain ⟨name, atName, same⟩ := covered spec.partitionKey List.mem_cons_self
  obtain ⟨_, _, _, undotted, _⟩ := carries name atName
  exact same ▸ undotted

include inside

/-- On good keys a comparison of values is one of texts. -/
theorem matches_iff_agree (good : spec.GoodKey item) :
    dao.Matches primary storage object item ↔
      ∀ column ∈ spec.keyAttributes, Dict.get? item column = Dict.get? row column := by
  constructor
  · intro found column member
    obtain ⟨name, atName, rfl⟩ := covered column member
    obtain ⟨value, own, isKey, undotted, held⟩ := carries name atName
    obtain ⟨stored, _, atColumn, ofName, equal⟩ := found name atName
    cases own.symm.trans ofName
    rw [Record.field?_undotted undotted] at atColumn
    have storedIsKey := good _ member stored atColumn
    rw [held, atColumn, (Value.equal_iff_eq storedIsKey isKey).mp equal]
  · intro agree name atName
    obtain ⟨value, own, isKey, undotted, held⟩ := carries name atName
    refine ⟨value, value, ?_, own, (Value.equal_iff_eq isKey isKey).mpr rfl⟩
    rw [Record.field?_undotted undotted, agree _ (inside name atName), held]

end

section

variable {store : Store} {condition : Condition}
variable (placed : table.Placed storage)
variable (stored : ∀ entry ∈ table.items, table.spec.GoodKey entry.2)
variable (carries : dao.Carries primary storage object row)
variable (inside : ∀ name ∈ primary.fieldsOf storage,
  dao.mapper.columnOf storage name ∈ table.spec.keyAttributes)
variable (covered : ∀ column ∈ table.spec.keyAttributes,
  ∃ name ∈ primary.fieldsOf storage, dao.mapper.columnOf storage name = column)
variable (evaluated : ∀ item, condition.evaluate item = true ↔
  dao.Matches primary storage object item)

include placed stored carries inside covered evaluated

theorem scan_eq_nil_iff (located : keyText table.spec storage row = .ok text) :
    table.scan (some condition) = [] ↔ table.get? text = none := by
  have rowGood := carries.goodKey covered
  rw [List.eq_nil_iff_forall_not_mem, Option.eq_none_iff_forall_ne_some]
  constructor
  · intro unmatched item found
    have member := (Table.get?_eq_some_iff placed.sorted).mp found
    have good := stored _ member
    have agree := (KeyValue.keyText_eq_iff_agree (placed.placed _ member) good located rowGood).mp rfl
    have found := (matches_iff_agree carries inside covered good).mpr agree
    exact unmatched item (Table.mem_scan.mpr ⟨⟨_, member⟩, (evaluated item).mpr found⟩)
  · intro free item scanned
    obtain ⟨⟨under, member⟩, holds⟩ := Table.mem_scan.mp scanned
    have good := stored _ member
    have agree := (matches_iff_agree carries inside covered good).mp ((evaluated item).mp holds)
    obtain rfl :=
      (KeyValue.keyText_eq_iff_agree (placed.placed _ member) good located rowGood).mpr agree
    exact free item ((Table.get?_eq_some_iff placed.sorted).mpr member)

/-- A search finds an item just when a put that wants the partition key to be absent is refused. -/
theorem scan_cases (found : Dict.get? store.tables storage = some table) :
    (table.scan (some condition) = [] ∧
      (store.putItem storage row (some (.absent table.spec.partitionKey))).1 = .ok ()) ∨
    (table.scan (some condition) ≠ [] ∧
      store.putItem storage row (some (.absent table.spec.partitionKey)) =
        (.error (.conditionFailed storage), store)) := by
  obtain ⟨text, located⟩ := carries.exists_keyText covered
  have free := scan_eq_nil_iff placed stored carries inside covered evaluated located
  rcases KeyValue.putItem_cases found placed (carries.undotted covered) located with
    ⟨absent, put⟩ | ⟨held, refused⟩
  · exact .inl ⟨free.mpr absent, by rw [put]⟩
  · exact .inr ⟨fun empty => held (free.mp empty), refused⟩

end

theorem describe_eq_ok {after : World Store}
    (described : (Operation.ofCall (KeyValue.describeTable context storage)).on connection world =
      (.ok spec, after)) :
    context.check world.surroundings = .ok () ∧ after = world ∧
      ∃ table, Dict.get? world.store.tables storage = some table ∧ table.spec = spec := by
  obtain ⟨live, acted, around⟩ :=
    Operation.on_call_answered KeyValue.perform_eq_checked described
  obtain ⟨told, same⟩ := Prod.mk.inj acted
  refine ⟨live, ?_, ?_⟩
  · cases after
    cases world
    cases same
    cases around
    rfl
  · cases found : Dict.get? world.store.tables storage with
    | none =>
        simp only [Store.table, found] at told
        cases told
    | some table =>
        rw [KeyValue.table_of_get? found] at told
        exact ⟨table, rfl, Except.ok.inj told⟩

section

variable {condition : Condition}
variable (live : context.check world.surroundings = .ok ())

include live

theorem on_taken (found : Dict.get? world.store.tables storage = some table)
    (compiled : dao.condition storage (some filter) = .ok (some condition)) :
    (dao.taken context storage filter).on connection world =
      (.ok (table.scan (some condition)).head?.isSome, world) := by
  have scanned := Operation.on_call_live KeyValue.perform_eq_checked live
    (.scan storage (some condition))
  simp only [Store.act, Store.scan, KeyValue.table_of_get? found] at scanned
  have asked : (Operation.ofExcept (I := interface) (dao.condition storage (some filter))).on
      connection world = (.ok (some condition), world) := by
    rw [Operation.on_ofExcept, compiled]
  refine (Operation.on_bind_ok _ asked).trans ((Operation.on_bind_ok _ scanned).trans ?_)
  rw [Operation.on_bind, Operation.on_ofExcept, Cursor.first_ofList]
  rfl

theorem on_putNew_refused (refused : world.store.putItem storage item
      (some (.absent spec.partitionKey)) = (.error (.conditionFailed storage), world.store)) :
    (putNew context storage spec item).on connection world = (.error .duplicateEntry, world) := by
  have put : (KeyValue.putItem context storage item (some (.absent spec.partitionKey))).run
      connection world = (.error (.conditionFailed storage), world) := by
    have performed := KeyValue.perform_live live
      (.putItem storage item (some (.absent spec.partitionKey)))
    simp only [Store.act, refused] at performed
    exact performed
  exact Operation.on_bind_error _ (on_orUnmet_failed put)

end

section

variable {past : List KeyValue.Deed} (reached : Reached past world)
variable (stored : ∀ table, Dict.get? world.store.tables storage = some table →
  ∀ entry ∈ table.items, table.spec.GoodKey entry.2)
variable (plain : ∀ name ∈ primary.fieldsOf storage, Path.Plain name)
variable (good : ∀ name ∈ primary.fieldsOf storage, ∀ value,
  object.get name = .ok (some value) → value.isKey = true)
variable (well : object.root.WellFormed) (translates : dao.Translates storage object)

include reached stored plain good well translates

theorem exists_scan_cases (found : Dict.get? world.store.tables storage = some table)
    (keyed : primary.filter storage object = .ok filter)
    (mapped : dao.mapper.toRow storage object = .ok row)
    (isKey : dao.isTableKey storage table.spec filter = true) :
    ∃ condition, dao.condition storage (some filter) = .ok (some condition) ∧
      ((table.scan (some condition) = [] ∧ (world.store.putItem storage row
          (some (.absent table.spec.partitionKey))).1 = .ok ()) ∨
        table.scan (some condition) ≠ [] ∧ world.store.putItem storage row
          (some (.absent table.spec.partitionKey)) =
            (.error (.conditionFailed storage), world.store)) := by
  obtain ⟨condition, compiled, evaluated⟩ := exists_matching keyed
  obtain ⟨inside, covered⟩ := columns_of_isTableKey keyed isKey
  have placed := (reached.follows.present storage table found).toPlaced
  have carries := carries_row plain good well translates keyed mapped
  exact ⟨condition, compiled,
    scan_cases placed (stored table found) carries inside covered evaluated found⟩

/-- Whether `create` leaves the search out or not, it comes to the same: where it does, the search
would find an item exactly when the put is refused. -/
theorem create_eq_createSearching (declared : dao.key = primary.filter) :
    (dao.create context storage object).on connection world =
        (dao.createSearching context storage object).on connection world ∧
      ∀ table filter row, Dict.get? world.store.tables storage = some table →
        dao.key storage object = .ok filter → dao.mapper.toRow storage object = .ok row →
        dao.isTableKey storage table.spec filter = true →
        ∃ condition, dao.condition storage (some filter) = .ok (some condition) ∧
          (table.scan (some condition) ≠ [] ↔
            (world.store.putItem storage row (some (.absent table.spec.partitionKey))).1 =
              .error (.conditionFailed storage)) := by
  constructor
  · refine Operation.on_bind_congr fun spec _ described => ?_
    obtain ⟨live, rfl, table, found, rfl⟩ := describe_eq_ok described
    refine Operation.on_bind_congr fun prepared _ ofItem => ?_
    rw [Operation.on_ofExcept] at ofItem
    obtain ⟨held, rfl⟩ := Prod.mk.inj ofItem
    refine Operation.on_bind_congr fun filter _ ofKey => ?_
    rw [Operation.on_ofExcept] at ofKey
    obtain ⟨asked, rfl⟩ := Prod.mk.inj ofKey
    cases isKey : dao.isTableKey storage table.spec filter with
    | false => rfl
    | true =>
        obtain ⟨row, mapped, keyed⟩ := bind_eq_ok.mp held
        obtain ⟨_, _, paired⟩ := bind_eq_ok.mp keyed
        cases paired
        have keyed := declared ▸ (KeyFilter.filter_eq_ok.mp asked).1
        obtain ⟨condition, compiled, decides⟩ :=
          exists_scan_cases reached stored plain good well translates found keyed mapped isKey
        have searched := on_taken live found compiled
        refine Eq.trans ?_ (Operation.on_bind_ok _ searched).symm
        rcases decides with ⟨unmatched, -⟩ | ⟨matched, refused⟩
        · rw [unmatched]
          rfl
        · obtain ⟨first, rest, scanned⟩ := List.exists_cons_of_ne_nil matched
          rw [scanned]
          exact on_putNew_refused live refused
  · intro table filter row found keyed mapped isKey
    rw [declared] at keyed
    obtain ⟨condition, compiled, decides⟩ :=
      exists_scan_cases reached stored plain good well translates found keyed mapped isKey
    refine ⟨condition, compiled, ?_⟩
    rcases decides with ⟨unmatched, put⟩ | ⟨matched, refused⟩
    · simp [unmatched, put]
    · simp [matched, refused]

end

/-- Objects call the room of a shelf its place. -/
def stocking : KeyValueDao where
  mapping := [("stock", [{ use := .renamed, field := "place", column := "room" }])]
  key := PrimaryKey.filter { fields := ["shelf", "place"] }

def bolts : BusinessObject :=
  { root := .map [("place", .string "A"), ("shelf", .number (.int .one)), ("what", .string "bolts")] }

theorem taken_shelf_is_refused :
    (∃ table, Dict.get? KeyValue.restocked.store.tables "stock" = some table ∧
      stocking.isTableKey "stock" table.spec (.allOf [.compare "shelf" .equal (.number (.int .one)),
        .compare "place" .equal (.string "A")]) = true) ∧
    ((stocking.createSearching .background "stock" bolts).on connection KeyValue.restocked).1 =
      .error .duplicateEntry ∧
    (stocking.create .background "stock" bolts).on connection KeyValue.restocked =
      (stocking.createSearching .background "stock" bolts).on connection KeyValue.restocked := by
  refine ⟨⟨_, rfl, rfl⟩, rfl, ?_⟩
  have reached := KeyValue.reached_restocked
  refine (@create_eq_createSearching stocking { fields := ["shelf", "place"] } "stock" bolts
    .background KeyValue.restocked _ reached ?_ ?_ ?_ ?_ ?_ rfl).1
  · intro table found entry member
    have follows := reached.follows.present "stock" table found
    have created : some KeyValue.shelves = some table.spec := follows.spec
    have good := KeyValue.good_restocking
    rw [Option.some.inj created] at good
    exact Table.Follows.goodKey_of_mem follows good member
  · decide
  · intro name member value found
    rcases List.mem_pair.mp member with rfl | rfl <;> cases found <;> rfl
  · exact ⟨by decide, trivial, trivial, trivial, trivial⟩
  · intro fields root
    cases root
    decide

end KeyValueDao

end DataAccess
