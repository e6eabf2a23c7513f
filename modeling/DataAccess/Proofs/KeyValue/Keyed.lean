import DataAccess.KeyValue.Store
import DataAccess.Proofs.Except
import DataAccess.Proofs.Json.Token
import DataAccess.Proofs.KeyValue.Table
import DataAccess.Proofs.Registry
import DataAccess.Proofs.Value

namespace DataAccess

namespace KeyValue

/-- A table keyed by the attribute `id` alone. -/
def idSpec : TableSpec := { partitionKey := "id" }

/-- The key of an item whose `id` is a string. -/
def stringKey (key : String) : Key := [(Value.string key).toJson]

theorem stringKey_injective {key other : String} (same : stringKey key = stringKey other) :
    key = other :=
  Value.toJson_string_injective (List.singleton_inj.mp same)

theorem keyText_eq {item : Record} {key : String} (keyed : Dict.get? item "id" = some (.string key))
    (storage : String) : keyText idSpec storage item = .ok (stringKey key) := by
  have text : attributeText storage "id" item = .ok (Value.string key).toJson := by
    simp only [attributeText, keyed]
  have attributes : idSpec.keyAttributes = ["id"] := rfl
  simp only [keyText, attributes, List.mapM_cons, List.mapM_nil, text]
  rfl

def hasKey (key : String) : Condition := .compare "id" .equal (.literal (.string key))

/-- An item is there, and has the key. -/
def existingKey (key : String) : Condition := .allOf [.present "id", hasKey key]

def unused : Condition := .absent "id"

section

variable (entry : Entry)

theorem field?_id : Record.field? entry.fields "id" = some (.string entry.key) := by
  simp only [Record.field?, entry.keyed]

theorem evaluate_hasKey (key : String) :
    (hasKey key).evaluate entry.fields = (entry.key == key) := by
  rw [← Value.equal_string]
  simp only [hasKey, Condition.evaluate, field?_id, Operand.value?, Condition.comparisonHolds,
    Value.equal, Value.compare?]
  rfl

theorem evaluate_existingKey (key : String) :
    (existingKey key).evaluate entry.fields = (entry.key == key) := by
  simp [existingKey, Condition.evaluate, Condition.evaluateAll, evaluate_hasKey, field?_id]

theorem evaluate_unused : unused.evaluate entry.fields = false := by
  simp [unused, Condition.evaluate, field?_id]

end

theorem evaluate_existingKey_nil (key : String) : (existingKey key).evaluate [] = false := by
  have missing : Record.field? [] "id" = none := by decide
  simp [existingKey, Condition.evaluate, Condition.evaluateAll, missing]

theorem evaluate_unused_nil : unused.evaluate [] = true := by
  decide

/-- The item of an entry stands in a table under the key of the entry. -/
def Table.Has (table : Table) (entry : Entry) : Prop :=
  (stringKey entry.key, entry.fields) ∈ table.items

namespace Store

variable {store : Store} {storage key : String} {table : Table} {entry old : Entry}
variable {registry : Registry}

def withTable (store : Store) (storage : String) (table : Table) : Store :=
  { store with tables := Dict.insert store.tables storage table }

/-- A table keyed by `id` holds the items of entries and no others. -/
structure Holds (store : Store) (storage : String) (table : Table) : Prop where
  found : Dict.get? store.tables storage = some table
  spec : table.spec = idSpec
  sorted : Table.Sorted table.items
  listed : ∀ item ∈ table.items, ∃ entry : Entry, item = (stringKey entry.key, entry.fields)

theorem has_erase_iff (key : String) (other : Entry) :
    (table.erase (stringKey key)).Has other ↔ table.Has other ∧ other.key ≠ key := by
  refine Table.mem_erase.trans (and_congr_right fun _ => not_congr ?_)
  exact ⟨stringKey_injective, congrArg stringKey⟩

section

variable (holds : store.Holds storage table)

include holds

theorem table_eq : store.table storage = .ok table := by
  simp only [Store.table, holds.found]

theorem get?_held (member : table.Has old) :
    table.get? (stringKey old.key) = some old.fields :=
  (Table.get?_eq_some_iff holds.sorted).mpr member

theorem get?_free (fresh : ∀ other, table.Has other → other.key ≠ key) :
    table.get? (stringKey key) = none := by
  rw [Option.eq_none_iff_forall_ne_some]
  intro item found
  have member := (Table.get?_eq_some_iff holds.sorted).mp found
  obtain ⟨other, same⟩ := holds.listed _ member
  have sameKey : key = other.key := stringKey_injective (Prod.mk.inj same).1
  rw [same] at member
  exact fresh other member sameKey.symm

theorem approve_eq {item : Record} (keyed : Dict.get? item "id" = some (.string key))
    (condition : Option Condition) :
    store.approve storage item condition =
      (checkCondition storage (table.get? (stringKey key)) condition).map fun _ =>
        (table, stringKey key) := by
  have text : keyText table.spec storage item = .ok (stringKey key) := by
    rw [holds.spec, keyText_eq keyed]
  rw [approve, table_eq holds, ok_bind, text, ok_bind]
  cases checkCondition storage (table.get? (stringKey key)) condition <;> rfl

theorem putItem_ok {condition : Option Condition}
    (met : checkCondition storage (table.get? (stringKey entry.key)) condition = .ok ()) :
    store.putItem storage entry.fields condition =
      (.ok (), store.withTable storage (table.put (stringKey entry.key) entry.fields)) := by
  simp only [putItem, approve_eq holds entry.keyed, met]
  rfl

theorem putItem_unmet {condition : Option Condition} {error : StoreError}
    (unmet : checkCondition storage (table.get? (stringKey entry.key)) condition = .error error) :
    store.putItem storage entry.fields condition = (.error error, store) := by
  simp only [putItem, approve_eq holds entry.keyed, unmet]
  rfl

theorem deleteItem_ok {condition : Option Condition}
    (met : checkCondition storage (table.get? (stringKey key)) condition = .ok ()) :
    store.deleteItem storage [("id", .string key)] condition =
      (.ok (table.get? (stringKey key)).isSome,
        store.withTable storage (table.erase (stringKey key))) := by
  have keyed : Dict.get? ([("id", .string key)] : Record) "id" = some (.string key) := rfl
  simp only [deleteItem, approve_eq holds keyed, met]
  rfl

theorem deleteItem_unmet {condition : Option Condition} {error : StoreError}
    (unmet : checkCondition storage (table.get? (stringKey key)) condition = .error error) :
    store.deleteItem storage [("id", .string key)] condition = (.error error, store) := by
  have keyed : Dict.get? ([("id", .string key)] : Record) "id" = some (.string key) := rfl
  simp only [deleteItem, approve_eq holds keyed, unmet]
  rfl

theorem holds_put (entry : Entry) :
    (store.withTable storage (table.put (stringKey entry.key) entry.fields)).Holds storage
      (table.put (stringKey entry.key) entry.fields) where
  found := Dict.get?_insert_self _ _ _
  spec := holds.spec
  sorted := Table.sorted_putItem holds.sorted
  listed := by
    intro item member
    rcases (Table.mem_putItem holds.sorted).mp member with rfl | ⟨old, _⟩
    · exact ⟨entry, rfl⟩
    · exact holds.listed item old

theorem holds_erase (key : String) :
    (store.withTable storage (table.erase (stringKey key))).Holds storage
      (table.erase (stringKey key)) where
  found := Dict.get?_insert_self _ _ _
  spec := holds.spec
  sorted := Table.sorted_erase holds.sorted
  listed item member := holds.listed item (Table.mem_erase.mp member).1

theorem has_put_iff (entry other : Entry) :
    (table.put (stringKey entry.key) entry.fields).Has other ↔
      other = entry ∨ table.Has other ∧ other.key ≠ entry.key := by
  refine (Table.mem_putItem holds.sorted).trans ?_
  constructor
  · rintro (same | ⟨member, different⟩)
    · exact .inl (Entry.eq_of_fields (Prod.mk.inj same).2)
    · exact .inr ⟨member, fun same => different (congrArg stringKey same)⟩
  · rintro (rfl | ⟨member, different⟩)
    · exact .inl rfl
    · exact .inr ⟨member, fun same => different (stringKey_injective same)⟩

theorem existing_held (member : table.Has old) :
    checkCondition storage (table.get? (stringKey old.key)) (some (existingKey old.key)) =
      .ok () := by
  simp [checkCondition, get?_held holds member, evaluate_existingKey]

theorem existing_free (fresh : ∀ other, table.Has other → other.key ≠ key) :
    checkCondition storage (table.get? (stringKey key)) (some (existingKey key)) =
      .error (.conditionFailed storage) := by
  simp [checkCondition, get?_free holds fresh, evaluate_existingKey_nil]

theorem unused_held (member : table.Has old) :
    checkCondition storage (table.get? (stringKey old.key)) (some unused) =
      .error (.conditionFailed storage) := by
  simp [checkCondition, get?_held holds member, evaluate_unused]

theorem unused_free (fresh : ∀ other, table.Has other → other.key ≠ key) :
    checkCondition storage (table.get? (stringKey key)) (some unused) = .ok () := by
  simp [checkCondition, get?_free holds fresh, evaluate_unused_nil]

/-- The first item that a search for a key finds is the one of the map. -/
theorem head?_scan (lists : registry.Lists table.Has) (key : String) :
    ∃ found : Option Entry, (table.scan (some (hasKey key))).head? = found.map Entry.fields ∧
      found.map Entry.object = registry.lookup key := by
  cases first : (table.scan (some (hasKey key))).head? with
  | none =>
      refine ⟨none, rfl, (Registry.lookup_of_free lists ?_).symm⟩
      intro entry member same
      have found : entry.fields ∈ table.scan (some (hasKey key)) :=
        Table.mem_scan.mpr ⟨⟨_, member⟩, by simp [evaluate_hasKey, same]⟩
      rw [List.head?_eq_none_iff.mp first] at found
      cases found
  | some item =>
      obtain ⟨⟨under, member⟩, matched⟩ := Table.mem_scan.mp (List.mem_of_head? first)
      obtain ⟨entry, same⟩ := holds.listed _ member
      obtain ⟨rfl, rfl⟩ := Prod.mk.inj same
      rw [evaluate_hasKey, beq_iff_eq] at matched
      subst matched
      exact ⟨some entry, rfl, (Registry.lookup_of_held lists member).symm⟩

end

end Store

end KeyValue

end DataAccess
