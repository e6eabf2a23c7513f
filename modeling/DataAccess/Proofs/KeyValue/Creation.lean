import DataAccess.Dao.KeyValue
import DataAccess.Proofs.Interleaving
import DataAccess.Proofs.KeyValue.Agreement
import DataAccess.Proofs.KeyValue.History
import DataAccess.Proofs.Keyspace

namespace DataAccess

namespace KeyValue

variable {keyspace : Keyspace} {key own : List Value} {spec : TableSpec}

/-- The items of a table; an absent one has none. -/
def Store.items (store : Store) (name : String) : List Record :=
  match Dict.get? store.tables name with
  | some table => table.items.map Prod.snd
  | none => []

theorem exists_keyText (good : ∀ value ∈ own, value.isKey = true)
    (covered : ∀ column ∈ spec.keyAttributes, column ∈ keyspace.columns) {item : Record}
    (under : keyspace.Under own item) :
    ∃ text, ∀ other, keyspace.Under own other → keyText spec keyspace.storage other = .ok text := by
  -- The key attributes are columns of the key, so they have the same values in all such items.
  have hasKey : ∀ other, keyspace.Under own other →
      spec.HasKey other (spec.keyAttributes.map fun name => (Dict.get? item name).getD .null) := by
    intro other otherUnder
    rw [TableSpec.HasKey, List.map_map]
    refine List.map_congr_left fun name member => ?_
    obtain ⟨value, _, found⟩ := under.exists_value (covered name member)
    have agree := List.map_inj_left.mp (under.trans otherUnder.symm) name (covered name member)
    simp [← agree, found]
  have goodValues : ∀ value ∈ spec.keyAttributes.map fun name => (Dict.get? item name).getD .null,
      value.isKey = true := by
    rw [List.forall_mem_map]
    intro name member
    obtain ⟨value, atKey, found⟩ := under.exists_value (covered name member)
    rw [found]
    exact good value atKey
  exact ⟨_, fun other otherUnder => keyText_of_hasKey (hasKey other otherUnder) goodValues⟩

namespace Table

variable {table : Table} {under : Key}

theorem perm_put (item : Record) (sorted : Sorted table.items) (free : table.get? under = none) :
    (table.put under item).items.Perm ((under, item) :: table.items) := by
  have unused : ∀ entry ∈ table.items, entry.1 ≠ under := by
    rintro ⟨other, old⟩ member rfl
    rw [(get?_eq_some_iff sorted).mpr member] at free
    cases free
  have fresh : (under, item) ∉ table.items := fun member => unused _ member rfl
  have written : Sorted (table.put under item).items := sorted_putItem sorted
  rw [List.perm_ext_iff_of_nodup written.nodup (List.nodup_cons.mpr ⟨fresh, sorted.nodup⟩)]
  intro entry
  rw [List.mem_cons]
  refine (mem_putItem sorted).trans (or_congr_right ?_)
  exact and_iff_left_of_imp (unused entry)

end Table

theorem Store.items_of_get? {store : Store} {table : Table} {name : String}
    (found : Dict.get? store.tables name = some table) :
    store.items name = table.items.map Prod.snd := by
  simp only [Store.items, found]

/-- The items with a key, in a store with a table whose key attributes are among its columns. -/
def contest (keyspace : Keyspace) (key : List Value) (good : ∀ value ∈ key, value.isKey = true)
    (spec : TableSpec) (covered : ∀ column ∈ spec.keyAttributes, column ∈ keyspace.columns)
    (contexts : List Context) : Contest Store where
  contexts
  sound store := ∃ table, Dict.get? store.tables keyspace.storage = some table ∧
    table.spec = spec ∧ table.Placed keyspace.storage
  stored store := (store.items keyspace.storage).countP fun item => keyspace.Under key item
  single := by
    rintro store ⟨table, found, rfl, placed⟩
    rw [Store.items_of_get? found]
    refine countP_le_one placed.pairwise ?_
    rintro first second firstUnder secondUnder ⟨text, later, ofFirst, ofSecond, before⟩
    have under := of_decide_eq_true firstUnder
    obtain ⟨shared, texts⟩ := exists_keyText good covered under
    cases ofFirst.symm.trans (texts first under)
    cases ofSecond.symm.trans (texts second (of_decide_eq_true secondUnder))
    rw [← keyOrder_eq_compare] at before
    exact ne_of_keyOrder_lt before rfl

theorem perform_eq_checked : connection.perform = Connection.checked Store.act := rfl

/-- Under the condition that the partition key is absent, an item is put where there is none. -/
theorem putItem_cases {store : Store} {table : Table} {name : String} {under : Key} {item : Record}
    (found : Dict.get? store.tables name = some table) (placed : table.Placed name)
    (undotted : '.' ∉ table.spec.partitionKey.toList)
    (text : keyText table.spec name item = .ok under) :
    (table.get? under = none ∧
      store.putItem name item (some (.absent table.spec.partitionKey)) =
        (.ok (), { store with tables := Dict.insert store.tables name (table.put under item) })) ∨
      table.get? under ≠ none ∧
        store.putItem name item (some (.absent table.spec.partitionKey)) =
          (.error (.conditionFailed name), store) := by
  have located : store.table name = .ok table := by simp only [Store.table, found]
  cases current : table.get? under with
  | none =>
      have approved : store.approve name item (some (.absent table.spec.partitionKey)) =
          .ok (table, under) := by
        refine Store.approve_eq_ok.mpr ⟨found, text, ?_⟩
        simp [current, Store.checkCondition, Condition.evaluate, Record.field?_undotted undotted,
          Dict.get?]
      refine .inl ⟨rfl, ?_⟩
      simp only [Store.putItem, approved]
  | some old =>
      have member := (Table.get?_eq_some_iff placed.sorted).mp current
      obtain ⟨values, hasKey⟩ := exists_hasKey (placed.placed _ member)
      obtain ⟨value, present⟩ : ∃ value, Dict.get? old table.spec.partitionKey = some value := by
        cases values with
        | nil => cases hasKey
        | cons value others => exact ⟨value, (List.cons.inj hasKey).1⟩
      have refused : store.approve name item (some (.absent table.spec.partitionKey)) =
          .error (.conditionFailed name) := by
        simp only [Store.approve, located, ok_bind, text, current]
        simp [Store.checkCondition, Condition.evaluate, Record.field?_undotted undotted, present,
          bind, Except.bind]
      refine .inr ⟨Option.some_ne_none old, ?_⟩
      simp only [Store.putItem, refused]

section

variable {good : ∀ value ∈ key, value.isKey = true}
variable {covered : ∀ column ∈ spec.keyAttributes, column ∈ keyspace.columns}
variable {contexts : List Context} {context : Context} {contends : Bool} {item : Record}
variable (usable : keyspace.Usable) (ownGood : ∀ value ∈ own, value.isKey = true)
variable (lasting : contends = true → context ∈ contexts)
variable (under : keyspace.Under own item) (same : contends = decide (own = key))

include usable ownGood lasting under same

theorem settles_putNew : (contest keyspace key good spec covered contexts).Settles connection
    contends 1 (KeyValueDao.putNew context keyspace.storage spec item).run := by
  refine Contest.settles_call perform_eq_checked lasting
    (fun error => by cases error <;> exact ⟨_, rfl⟩) fun store sound => ?_
  obtain ⟨table, found, rfl, placed⟩ := sound
  have undotted := usable.undotted _ (covered table.spec.partitionKey List.mem_cons_self)
  obtain ⟨text, texts⟩ := exists_keyText ownGood covered under
  rcases putItem_cases found placed undotted (texts item under) with ⟨free, put⟩ | ⟨-, refused⟩
  · simp only [Store.act, put]
    have foundAfter := Dict.get?_insert_self store.tables keyspace.storage (table.put text item)
    have placedAfter := placed.put (texts item under)
    refine ⟨⟨table.put text item, foundAfter, rfl, placedAfter⟩, contends.toNat, ?_,
      .inl ⟨_, rfl, .created⟩⟩
    have counted : decide (keyspace.Under key item) = contends := by
      rw [same, decide_eq_decide]
      exact ⟨fun held => held.unique under, fun equal => equal ▸ under⟩
    have added := ((Table.perm_put item placed.sorted free).map Prod.snd).countP_eq
      fun item => keyspace.Under key item
    rw [List.map_cons, List.countP_cons, counted] at added
    simp only [contest, Store.items_of_get? found]
    rw [Store.items_of_get? foundAfter, added]
    cases contends <;> rfl
  · simp only [Store.act, refused]
    refine ⟨⟨table, found, rfl, placed⟩, 0, rfl, .inl ⟨_, rfl, .failed _ fun _ => rfl⟩⟩

/-- A search before the put makes no difference to whether the program settles. -/
theorem settles_taken {dao : KeyValueDao} {filter : Filter} {condition : Option Condition}
    (asked : dao.condition keyspace.storage (some filter) = .ok condition) :
    (contest keyspace key good spec covered contexts).Settles connection contends 2 (do
      let taken ← dao.taken context keyspace.storage filter
      if taken then throw .duplicateEntry
      else KeyValueDao.putNew context keyspace.storage spec item : Operation interface Nat).run := by
  simp only [KeyValueDao.taken, asked]
  refine Contest.settles_call perform_eq_checked lasting (fun error => ⟨_, rfl⟩)
    fun store sound => ?_
  obtain ⟨table, found, isSpec, placed⟩ := sound
  have scanned : store.scan keyspace.storage condition = .ok (table.scan condition) := by
    simp only [Store.scan, Store.table, found]
    rfl
  refine ⟨⟨table, found, isSpec, placed⟩, 0, rfl, ?_⟩
  simp only [Store.act, scanned]
  cases table.scan condition with
  | nil => exact .inr ⟨trivial, settles_putNew usable ownGood lasting under same⟩
  | cons first rest => exact .inl ⟨_, rfl, .failed _ fun _ => rfl⟩

end

theorem exists_keyOf (covered : ∀ column ∈ spec.keyAttributes, column ∈ keyspace.columns)
    {item : Record} (under : keyspace.Under own item) :
    ∃ attributes, KeyValueDao.keyOf keyspace.storage spec item = .ok attributes := by
  have present : ∀ name ∈ spec.keyAttributes, ∃ value, Dict.get? item name = some value := by
    intro name member
    obtain ⟨value, _, found⟩ := under.exists_value (covered name member)
    exact ⟨value, found⟩
  obtain ⟨entries, collected⟩ : ∃ entries, (spec.keyAttributes.mapM fun name =>
      (Dict.get? item name).map fun value => (name, value)) = some entries := by
    generalize spec.keyAttributes = names at present
    induction names with
    | nil => exact ⟨[], rfl⟩
    | cons name rest ih =>
        obtain ⟨value, found⟩ := present name List.mem_cons_self
        obtain ⟨entries, collected⟩ := ih fun other later =>
          present other (List.mem_cons_of_mem _ later)
        refine ⟨(name, value) :: entries, ?_⟩
        rw [List.mapM_cons, found, collected]
        rfl
  refine ⟨Dict.ofList entries, ?_⟩
  simp only [KeyValueDao.keyOf, TableSpec.keyOf?, collected, Option.map_some]

end KeyValue

namespace Keyspace

/-- Data access to the items of a storage by its key. -/
def items (keyspace : Keyspace) (config : DaoConfig) : KeyValueDao where
  mapping := keyspace.mapping
  key := keyspace.primary.filter
  config := config

end Keyspace

namespace KeyValueDao

open KeyValue (TableSpec)

variable {keyspace : Keyspace} {key own : List Value} {object : BusinessObject}
variable {config : DaoConfig} {spec : TableSpec}

theorem exists_item (config : DaoConfig) (usable : keyspace.Usable)
    (named : keyspace.Names own object)
    (covered : ∀ column ∈ spec.keyAttributes, column ∈ keyspace.columns) :
    ∃ item attributes, (keyspace.items config).item keyspace.storage spec object =
      .ok (item, attributes) ∧ keyspace.Under own item := by
  obtain ⟨row, mapped, distinct, under⟩ := named.exists_row usable
  have kept : keyspace.Under own (Dict.filterValues (!·.isNull) row) := by
    refine under.congr fun column member => ?_
    obtain ⟨value, atKey, found⟩ := under.exists_value member
    have present : value.isNull = false := by
      rcases Value.isKey_cases (named.good value atKey) with ⟨_, rfl⟩ | ⟨_, rfl⟩ <;> rfl
    rw [Dict.get?_filterValues _ distinct, found]
    simp [present]
  obtain ⟨attributes, keyed⟩ := KeyValue.exists_keyOf covered kept
  have itemOf : (keyspace.items config).mapper.toRow keyspace.storage object =
      .ok (Dict.filterValues (!·.isNull) row) := by
    simp only [RowMapper.toRow, mapper, Keyspace.items, mapped]
    rfl
  refine ⟨_, attributes, ?_, kept⟩
  simp only [item, itemOf, ok_bind, keyed]
  rfl

/-- A creation settles in three turns: it reads the key attributes, may look for a record, and puts
an item. -/
theorem settles_create {good : ∀ value ∈ key, value.isKey = true}
    {covered : ∀ column ∈ spec.keyAttributes, column ∈ keyspace.columns}
    {contexts : List Context} {contends : Bool} {context : Context} (usable : keyspace.Usable)
    (lasting : contends = true → context ∈ contexts) (named : keyspace.Names own object)
    (same : contends = decide (own = key)) :
    (KeyValue.contest keyspace key good spec covered contexts).Settles KeyValue.connection
      contends 3 ((keyspace.items config).create context keyspace.storage object).run := by
  refine Contest.settles_call KeyValue.perform_eq_checked lasting (fun error => ⟨_, rfl⟩)
    fun store sound => ?_
  obtain ⟨table, found, isSpec, placed⟩ := sound
  obtain ⟨item, attributes, held, under⟩ := exists_item config usable named covered
  obtain ⟨filter, asked, valid, _⟩ := named.exists_filter usable
  have described : (KeyValue.Store.act (.describeTable keyspace.storage) store).1 = .ok spec := by
    simp only [KeyValue.Store.act, KeyValue.Store.table, found, ← isSpec]
    rfl
  refine ⟨⟨table, found, isSpec, placed⟩, 0, rfl, .inr ⟨rfl, ?_⟩⟩
  -- From here on nothing is read from the store until the last one or two turns.
  rw [described]
  show Contest.Settles _ _ _ 2 (ExceptT.run
    (Operation.ofExcept ((keyspace.items config).item keyspace.storage spec object) >>= _))
  rw [held]
  show Contest.Settles _ _ _ 2 (ExceptT.run
    (Operation.ofExcept (KeyFilter.filter keyspace.primary.filter keyspace.storage object) >>= _))
  rw [asked]
  show Contest.Settles _ _ _ 2 (ExceptT.run
    (if (keyspace.items config).isTableKey keyspace.storage spec filter = true then
      putNew context keyspace.storage spec item
    else _))
  obtain ⟨condition, compiled, _⟩ :=
    @exists_condition (keyspace.items config) keyspace.storage filter valid
  split
  · exact (KeyValue.settles_putNew usable named.good lasting under same).succ
  · exact KeyValue.settles_taken usable named.good lasting under same compiled

end KeyValueDao

end DataAccess
