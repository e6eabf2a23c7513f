import DataAccess.Proofs.KeyValue.History
import Mathlib.Data.Finset.Card

namespace DataAccess.KeyValue

variable {spec : TableSpec} {name : String} {past : List Deed} {item key : Record}
variable {values : List Value}

/-- A condition, where there is one, holds of what is found; an absent item has no attributes. -/
def Meets (condition : Option Condition) (found : Option Record) : Prop :=
  ∀ asked, condition = some asked → asked.evaluate (found.getD []) = true

instance (condition : Option Condition) (found : Option Record) :
    Decidable (Meets condition found) :=
  match condition with
  | none => .isTrue fun _ same => nomatch same
  | some asked =>
      decidable_of_iff (asked.evaluate (found.getD []) = true)
        ⟨fun holds _ same => Option.some.inj same ▸ holds, fun meets => meets asked rfl⟩

/-- The values of an item under the key attributes, where they are there. -/
def TableSpec.valuesOf (spec : TableSpec) (item : Record) : List Value :=
  spec.keyAttributes.map fun name => (Dict.get? item name).getD .null

theorem TableSpec.HasKey.valuesOf_eq (hasKey : spec.HasKey item values) :
    spec.valuesOf item = values := by
  have shared := congrArg (List.map fun found : Option Value => found.getD .null) hasKey
  simpa [TableSpec.valuesOf, Function.comp_def] using shared

namespace Table.Follows

variable {table : Table} {under : Key} (follows : table.Follows name past)
variable (good : GoodKeys table.spec name past)

include follows good

theorem goodKey_of_mem (member : (under, item) ∈ table.items) : table.spec.GoodKey item :=
  good item (.inl (follows.recorded _ member))

theorem current_of_mem (member : (under, item) ∈ table.items) :
    table.spec.HasKey item (table.spec.valuesOf item) ∧
      under = (table.spec.valuesOf item).map Value.toJson ∧
      current table.spec name (table.spec.valuesOf item) past = some item := by
  have placed := follows.placed _ member
  have goodItem := goodKey_of_mem follows good member
  obtain ⟨values, hasKey⟩ := exists_hasKey placed
  have goodValues := hasKey.good goodItem
  obtain rfl : values.map Value.toJson = under :=
    Except.ok.inj ((keyText_of_hasKey hasKey goodValues).symm.trans placed)
  rw [hasKey.valuesOf_eq]
  refine ⟨hasKey, rfl, ?_⟩
  rw [← follows.holds good values goodValues]
  exact (get?_eq_some_iff follows.sorted).mpr member

theorem mem_of_current (found : current table.spec name values past = some item) :
    (values.map Value.toJson, item) ∈ table.items ∧ table.spec.valuesOf item = values := by
  obtain ⟨written, hasKey⟩ := put_of_current found
  have goodValues := hasKey.good (good item (.inl written))
  rw [← follows.holds good values goodValues] at found
  exact ⟨(get?_eq_some_iff follows.sorted).mp found, hasKey.valuesOf_eq⟩

theorem exists_mem_iff : (∃ under, (under, item) ∈ table.items) ↔
    ∃ values, current table.spec name values past = some item := by
  constructor
  · rintro ⟨under, member⟩
    exact ⟨_, (current_of_mem follows good member).2.2⟩
  · rintro ⟨values, found⟩
    exact ⟨_, (mem_of_current follows good found).1⟩

theorem length_eq_card : ∃ keys : Finset (List Value), table.items.length = keys.card ∧
    ∀ values, values ∈ keys ↔ (current table.spec name values past).isSome = true := by
  have apart : (table.items.map fun entry => table.spec.valuesOf entry.2).Nodup := by
    rw [List.nodup_map_iff_inj_on follows.sorted.nodup]
    rintro ⟨under, item⟩ member ⟨other, old⟩ otherMember same
    obtain ⟨_, rfl, found⟩ := current_of_mem follows good member
    obtain ⟨_, rfl, otherFound⟩ := current_of_mem follows good otherMember
    dsimp only at same
    rw [same, otherFound] at found
    rw [same, Option.some.inj found]
  refine ⟨(table.items.map fun entry => table.spec.valuesOf entry.2).toFinset, ?_, ?_⟩
  · rw [List.toFinset_card_of_nodup apart, List.length_map]
  · intro values
    rw [List.mem_toFinset, List.mem_map, Option.isSome_iff_exists]
    constructor
    · rintro ⟨⟨under, item⟩, member, rfl⟩
      exact ⟨item, (current_of_mem follows good member).2.2⟩
    · rintro ⟨item, found⟩
      obtain ⟨member, same⟩ := mem_of_current follows good found
      exact ⟨_, member, same⟩

theorem checkCondition_eq (goodValues : ∀ value ∈ values, value.isKey = true)
    (condition : Option Condition) :
    Store.checkCondition name (table.get? (values.map Value.toJson)) condition =
      if Meets condition (current table.spec name values past) then .ok ()
      else .error (.conditionFailed name) := by
  rw [follows.holds good values goodValues]
  cases condition with
  | none => simp [Store.checkCondition, Meets]
  | some asked => simp [Store.checkCondition, Meets]

end Table.Follows

/-- A table of a world is the map from good keys to the items that were last put with them and not
deleted since. -/
structure Mirrors (past : List Deed) (world : World Store) (name : String) (spec : TableSpec) :
    Prop where
  /-- Every item stands under the text of its own key. -/
  placed : ∃ table, world.store.table name = .ok table ∧ table.spec = spec ∧
    ∀ entry ∈ table.items, keyText spec name entry.2 = .ok entry.1
  length : ∃ keys : Finset (List Value), world.store.length name = keys.card ∧
    ∀ values, values ∈ keys ↔ (current spec name values past).isSome = true
  getItem : ∀ context key values, context.check world.surroundings = .ok () →
    spec.HasKey key values → (∀ value ∈ values, value.isKey = true) →
    (connection.perform context (.getItem name key) world).1 =
      .ok (current spec name values past)
  /-- A scan finds each item once, in the order of the texts of keys. -/
  scan : ∀ context condition, context.check world.surroundings = .ok () →
    ∃ items, (connection.perform context (.scan name condition) world).1 =
        .ok (Cursor.ofList items) ∧
      (∀ item, item ∈ items ↔ (∃ values, current spec name values past = some item) ∧
        Meets condition (some item)) ∧
      items.Pairwise fun first second => ∃ key later, keyText spec name first = .ok key ∧
        keyText spec name second = .ok later ∧ compare key later = .lt
  /-- A write goes through, and so enters the history, exactly when its condition holds of what is
  there. -/
  putItem : ∀ context item values condition, context.check world.surroundings = .ok () →
    spec.HasKey item values → (∀ value ∈ values, value.isKey = true) →
    (connection.perform context (.putItem name item condition) world).1 =
      if Meets condition (current spec name values past) then .ok ()
      else .error (.conditionFailed name)
  deleteItem : ∀ context key values condition, context.check world.surroundings = .ok () →
    spec.HasKey key values → (∀ value ∈ values, value.isKey = true) →
    (connection.perform context (.deleteItem name key condition) world).1 =
      if Meets condition (current spec name values past) then
        .ok (current spec name values past).isSome
      else .error (.conditionFailed name)
  /-- What fails changes nothing. -/
  refused : ∀ context request error, (connection.perform context request world).1 = .error error →
    (connection.perform context request world).2 = world
  createTable : ∀ other, world.store.createTable name other = world.store

section

variable {world : World Store} {table : Table} {context : Context}

theorem refused_changes_nothing {request : Call} {error : StoreError}
    (failed : (connection.perform context request world).1 = .error error) :
    (connection.perform context request world).2 = world := by
  cases allowed : context.check world.surroundings with
  | error reason => rw [perform_refused allowed]
  | ok _ =>
      rw [perform_live allowed] at failed ⊢
      cases request with
      | describeTable | getItem | scan => rfl
      | putItem name item condition =>
          simp only [Store.act, Store.putItem] at failed ⊢
          cases approved : world.store.approve name item condition with
          | error reason => rfl
          | ok target =>
              rw [approved] at failed
              cases failed
      | deleteItem name key condition =>
          simp only [Store.act, Store.deleteItem] at failed ⊢
          cases approved : world.store.approve name key condition with
          | error reason => rfl
          | ok target =>
              rw [approved] at failed
              cases failed

variable (found : Dict.get? world.store.tables name = some table)
variable (live : context.check world.surroundings = .ok ())

include found

theorem table_of_get? : world.store.table name = .ok table := by
  simp only [Store.table, found]

include live

theorem perform_scan (condition : Option Condition) :
    (connection.perform context (.scan name condition) world).1 =
      .ok (Cursor.ofList (table.scan condition)) := by
  rw [perform_live live]
  simp only [Store.act, Store.scan, table_of_get? found]
  rfl

variable (follows : table.Follows name past) (good : GoodKeys table.spec name past)
variable (goodValues : ∀ value ∈ values, value.isKey = true)

include follows good goodValues

theorem perform_getItem (hasKey : table.spec.HasKey key values) :
    (connection.perform context (.getItem name key) world).1 =
      .ok (current table.spec name values past) := by
  rw [perform_live live]
  simp only [Store.act, Store.getItem, table_of_get? found, ok_bind,
    keyText_of_hasKey hasKey goodValues, follows.holds good values goodValues]
  rfl

omit live in
theorem approve_eq (hasKey : table.spec.HasKey item values) (condition : Option Condition) :
    world.store.approve name item condition =
      if Meets condition (current table.spec name values past) then
        .ok (table, values.map Value.toJson)
      else .error (.conditionFailed name) := by
  rw [Store.approve, table_of_get? found, ok_bind, keyText_of_hasKey hasKey goodValues, ok_bind,
    Table.Follows.checkCondition_eq follows good goodValues]
  split <;> rfl

theorem perform_putItem (hasKey : table.spec.HasKey item values) (condition : Option Condition) :
    (connection.perform context (.putItem name item condition) world).1 =
      if Meets condition (current table.spec name values past) then .ok ()
      else .error (.conditionFailed name) := by
  have approved := approve_eq found follows good goodValues hasKey condition
  rw [perform_live live]
  by_cases met : Meets condition (current table.spec name values past)
  · rw [if_pos met] at approved
    simp only [Store.act, Store.putItem, approved, if_pos met]
    rfl
  · rw [if_neg met] at approved
    simp only [Store.act, Store.putItem, approved, if_neg met]
    rfl

theorem perform_deleteItem (hasKey : table.spec.HasKey key values)
    (condition : Option Condition) :
    (connection.perform context (.deleteItem name key condition) world).1 =
      if Meets condition (current table.spec name values past) then
        .ok (current table.spec name values past).isSome
      else .error (.conditionFailed name) := by
  have approved := approve_eq found follows good goodValues hasKey condition
  rw [perform_live live]
  by_cases met : Meets condition (current table.spec name values past)
  · rw [if_pos met] at approved
    simp only [Store.act, Store.deleteItem, approved, if_pos met,
      follows.holds good values goodValues]
    rfl
  · rw [if_neg met] at approved
    simp only [Store.act, Store.deleteItem, approved, if_neg met]
    rfl

end

/-- Whatever a store has gone through, a table of it that was written with good keys only is the map
that its history tells of. -/
theorem reached_table_is_map {world : World Store} (reached : Reached past world)
    (created : specOf name past = some spec) (good : GoodKeys spec name past) :
    Mirrors past world name spec := by
  obtain ⟨table, found, rfl, follows⟩ := reached.exists_table created
  have counted : world.store.length name = table.items.length := by
    simp only [Store.length, found]
  refine { placed := ⟨table, table_of_get? found, rfl, follows.placed⟩, length := ?_,
           getItem := ?_, scan := ?_, putItem := ?_, deleteItem := ?_,
           refused := fun _ _ _ => refused_changes_nothing,
           createTable := Store.createTable_of_present found }
  · rw [counted]
    exact Table.Follows.length_eq_card follows good
  · exact fun _ _ _ live hasKey goodValues =>
      perform_getItem found live follows good goodValues hasKey
  · intro context condition live
    refine ⟨table.scan condition, perform_scan found live condition, ?_,
      follows.toPlaced.pairwise.filter _⟩
    intro item
    rw [← Table.Follows.exists_mem_iff follows good]
    cases condition <;> simp [Table.scan, Meets]
  · exact fun _ _ _ condition live hasKey goodValues =>
      perform_putItem found live follows good goodValues hasKey condition
  · exact fun _ _ _ condition live hasKey goodValues =>
      perform_deleteItem found live follows good goodValues hasKey condition

def shelves : TableSpec := { partitionKey := "room", sortKey := some "shelf" }

/-- What lies on the first shelf of room A. -/
def shelved (what : String) : Record :=
  [("room", .string "A"), ("what", .string what), ("shelf", .number (.int .one))]

def ifNails : Option Condition := some (.compare "what" .equal (.literal (.string "nails")))

/-- Nails give way to screws, and then there are no nails any more to give way to bolts. -/
def restocked : World Store :=
  [Call.putItem "stock" (shelved "nails") none, Call.putItem "stock" (shelved "screws") ifNails,
    Call.putItem "stock" (shelved "bolts") ifNails].foldl
      (fun world request => (connection.perform .background request world).2)
      { store := ({} : Store).createTable "stock" shelves }

def restocking : List Deed :=
  [.put "stock" (shelved "screws"), .put "stock" (shelved "nails"), .create "stock" shelves]

theorem reached_restocked : Reached restocking restocked :=
  (((Reached.fresh {} {}).created "stock" shelves
    |>.called .background (.putItem "stock" (shelved "nails") none))
    |>.called .background (.putItem "stock" (shelved "screws") ifNails))
    |>.called .background (.putItem "stock" (shelved "bolts") ifNails)

theorem good_restocking : GoodKeys shelves "stock" restocking := by
  have good (what : String) : shelves.GoodKey (shelved what) := by
    intro name member value found
    rcases List.mem_pair.mp member with rfl | rfl <;> cases found <;> rfl
  intro item written
  have named : item = shelved "screws" ∨ item = shelved "nails" := by
    simpa [restocking] using written
  rcases named with rfl | rfl
  · exact good "screws"
  · exact good "nails"

theorem screws_are_shelved : Reached restocking restocked ∧
    specOf "stock" restocking = some shelves ∧ GoodKeys shelves "stock" restocking ∧
    (connection.perform .background (.getItem "stock" (shelved "")) restocked).1 =
      .ok (some (shelved "screws")) := by
  refine ⟨reached_restocked, rfl, good_restocking, ?_⟩
  have created : specOf "stock" restocking = some shelves := rfl
  have mirrors := reached_table_is_map reached_restocked created good_restocking
  exact mirrors.getItem .background (shelved "") [.string "A", .number (.int .one)] rfl rfl
    (by decide)

end DataAccess.KeyValue
