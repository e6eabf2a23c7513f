import DataAccess.Proofs.Dict
import DataAccess.Proofs.KeyValue.Key
import DataAccess.Proofs.KeyValue.Table
import DataAccess.Proofs.Program

/-!
# Tables and what was done to them

The history of a store is the list of writes that succeeded, whatever else was called. Under a key a
table has the item that its history says was last put there and not deleted since.
-/

namespace DataAccess.KeyValue

/-- What was done to a store. -/
inductive Deed
  | create (table : String) (spec : TableSpec)
  | put (table : String) (item : Record)
  | delete (table : String) (key : Record)

def Deed.table : Deed → String
  | .create table _ => table
  | .put table _ => table
  | .delete table _ => table

/-- What a call did, by its answer. -/
def deeds : (request : Call) → Except StoreError request.Answer → List Deed
  | .putItem table item _, .ok _ => [.put table item]
  | .deleteItem table key _, .ok _ => [.delete table key]
  | _, _ => []

/-- The worlds that an empty store comes to, each with all that was done to it, the latest first. -/
inductive Reached : List Deed → World Store → Prop
  | fresh (config : StoreConfig) (surroundings : Surroundings) :
      Reached [] { store := { config }, surroundings }
  | created {past : List Deed} {world : World Store} (table : String) (spec : TableSpec)
      (earlier : Reached past world) :
      Reached (.create table spec :: past)
        { world with store := world.store.createTable table spec }
  | called {past : List Deed} {world : World Store} (context : Context) (request : Call)
      (earlier : Reached past world) :
      Reached (deeds request (connection.perform context request world).1 ++ past)
        (connection.perform context request world).2
  | elapsed {past : List Deed} {world : World Store} (event : Event)
      (earlier : Reached past world) :
      Reached past { world with surroundings := world.surroundings.after event }

/-- The key schema of a table is the one that it was first created with. -/
def specOf (table : String) : List Deed → Option TableSpec
  | [] => none
  | .create created spec :: past =>
      if created = table then (specOf table past).or (some spec) else specOf table past
  | _ :: past => specOf table past

/-- The item that was last put with these key values and not deleted since. -/
def current (spec : TableSpec) (table : String) (values : List Value) : List Deed → Option Record
  | [] => none
  | .put into item :: past =>
      if into = table ∧ spec.HasKey item values then some item else current spec table values past
  | .delete origin key :: past =>
      if origin = table ∧ spec.HasKey key values then none else current spec table values past
  | .create _ _ :: past => current spec table values past

/-- All keys by which a table was written are good ones. -/
def GoodKeys (spec : TableSpec) (table : String) (past : List Deed) : Prop :=
  ∀ item, .put table item ∈ past ∨ .delete table item ∈ past → spec.GoodKey item

variable {spec : TableSpec} {name : String} {past : List Deed} {item key : Record}
variable {values : List Value}

theorem put_of_current (found : current spec name values past = some item) :
    Deed.put name item ∈ past ∧ spec.HasKey item values := by
  induction past with
  | nil => cases found
  | cons deed past ih =>
      cases deed with
      | create table created => exact (ih found).imp_left (List.mem_cons_of_mem _)
      | put table other =>
          rw [current] at found
          split at found
          · rename_i here
            cases found
            exact ⟨here.1 ▸ List.mem_cons_self, here.2⟩
          · exact (ih found).imp_left (List.mem_cons_of_mem _)
      | delete table other =>
          rw [current] at found
          split at found
          · cases found
          · exact (ih found).imp_left (List.mem_cons_of_mem _)

theorem GoodKeys.of_cons {deed : Deed} (good : GoodKeys spec name (deed :: past)) :
    GoodKeys spec name past :=
  fun item written => good item (written.imp (List.mem_cons_of_mem _) (List.mem_cons_of_mem _))

theorem specOf_cons_of_ne {deed : Deed} (elsewhere : deed.table ≠ name) :
    specOf name (deed :: past) = specOf name past := by
  cases deed with
  | create created spec => exact if_neg elsewhere
  | put | delete => rfl

theorem current_cons_of_ne {deed : Deed} (elsewhere : deed.table ≠ name) :
    current spec name values (deed :: past) = current spec name values past := by
  cases deed with
  | create created spec => rfl
  | put | delete => exact if_neg fun here => elsewhere here.1

namespace Table

variable {table : Table} {under other : Key}

theorem get?_put (sorted : Sorted table.items) :
    (table.put under item).get? other = if other = under then some item else table.get? other := by
  have written : Sorted (table.put under item).items := sorted_putItem sorted
  ext found
  rw [get?_eq_some_iff written]
  refine (mem_putItem sorted).trans ?_
  split
  · rename_i same
    simp [same, eq_comm]
  · rename_i different
    simp [different, get?_eq_some_iff sorted]

theorem get?_erase (sorted : Sorted table.items) :
    (table.erase under).get? other = if other = under then none else table.get? other := by
  ext found
  rw [get?_eq_some_iff (sorted_erase sorted), mem_erase]
  split
  · rename_i same
    simp [same]
  · rename_i different
    simp [different, get?_eq_some_iff sorted]

/-- The items of a table stand in order under their keys. -/
structure Placed (table : Table) (name : String) : Prop where
  sorted : Sorted table.items
  placed : ∀ entry ∈ table.items, keyText table.spec name entry.2 = .ok entry.1

namespace Placed

variable (placed : table.Placed name)

include placed

theorem put (text : keyText table.spec name item = .ok under) :
    (table.put under item).Placed name where
  sorted := sorted_putItem placed.sorted
  placed := by
    intro entry member
    rcases (mem_putItem placed.sorted).mp member with rfl | ⟨old, _⟩
    · exact text
    · exact placed.placed entry old

theorem pairwise : (table.items.map Prod.snd).Pairwise fun first second => ∃ key later,
    keyText table.spec name first = .ok key ∧ keyText table.spec name second = .ok later ∧
      compare key later = .lt := by
  refine List.pairwise_map.mpr (List.Pairwise.imp_of_mem ?_ placed.sorted)
  rintro ⟨key, first⟩ ⟨later, second⟩ member laterMember before
  rw [keyOrder_eq_compare] at before
  exact ⟨key, later, placed.placed _ member, placed.placed _ laterMember, before⟩

end Placed

/-- A table holds what was done to it. -/
structure Follows (table : Table) (name : String) (past : List Deed) : Prop where
  spec : specOf name past = some table.spec
  sorted : Sorted table.items
  placed : ∀ entry ∈ table.items, keyText table.spec name entry.2 = .ok entry.1
  recorded : ∀ entry ∈ table.items, Deed.put name entry.2 ∈ past
  holds : GoodKeys table.spec name past → ∀ values, (∀ value ∈ values, value.isKey = true) →
    table.get? (values.map Value.toJson) = current table.spec name values past

theorem Follows.toPlaced (follows : table.Follows name past) : table.Placed name where
  sorted := follows.sorted
  placed := follows.placed

theorem follows_new (unknown : specOf name past = none)
    (unwritten : ∀ item, Deed.put name item ∉ past) :
    Follows { spec } name (.create name spec :: past) where
  spec := by simp [specOf, unknown]
  sorted := .nil
  placed := by simp
  recorded := by simp
  holds := by
    intro _ values _
    cases found : current spec name values past with
    | none => exact found.symm
    | some item => exact (unwritten item (put_of_current found).1).elim

section

variable (follows : table.Follows name past)

include follows

theorem follows_put (placed : keyText table.spec name item = .ok under) :
    (table.put under item).Follows name (.put name item :: past) where
  spec := follows.spec
  sorted := sorted_putItem follows.sorted
  placed := (follows.toPlaced.put placed).placed
  recorded := by
    intro entry member
    rcases (mem_putItem follows.sorted).mp member with rfl | ⟨old, _⟩
    · exact List.mem_cons_self
    · exact List.mem_cons_of_mem _ (follows.recorded entry old)
  holds := by
    intro good values goodValues
    -- Other values have other texts, so a put is seen under its own values only.
    have goodItem : table.spec.GoodKey item := good item (.inl List.mem_cons_self)
    have here := texts_eq_iff placed goodItem goodValues
    rw [get?_put follows.sorted, follows.holds good.of_cons values goodValues]
    simp only [current, here, true_and]
    rfl

theorem follows_erase (placed : keyText table.spec name key = .ok under) :
    (table.erase under).Follows name (.delete name key :: past) where
  spec := follows.spec
  sorted := sorted_erase follows.sorted
  placed entry member := follows.placed entry (mem_erase.mp member).1
  recorded entry member := List.mem_cons_of_mem _ (follows.recorded entry (mem_erase.mp member).1)
  holds := by
    intro good values goodValues
    have goodKey : table.spec.GoodKey key := good key (.inr List.mem_cons_self)
    have here := texts_eq_iff placed goodKey goodValues
    rw [get?_erase follows.sorted, follows.holds good.of_cons values goodValues]
    simp only [current, here, true_and]
    rfl

theorem follows_created (created : String) (spec : TableSpec) :
    table.Follows name (.create created spec :: past) where
  spec := by simp [specOf, follows.spec]
  sorted := follows.sorted
  placed := follows.placed
  recorded entry member := List.mem_cons_of_mem _ (follows.recorded entry member)
  holds good := follows.holds good.of_cons

theorem follows_elsewhere {deed : Deed} (elsewhere : deed.table ≠ name) :
    table.Follows name (deed :: past) where
  spec := (specOf_cons_of_ne elsewhere).trans follows.spec
  sorted := follows.sorted
  placed := follows.placed
  recorded entry member := List.mem_cons_of_mem _ (follows.recorded entry member)
  holds := by
    intro good values goodValues
    rw [current_cons_of_ne elsewhere]
    exact follows.holds good.of_cons values goodValues

end

end Table

namespace Store

variable {store : Store} {condition : Option Condition} {table : Table} {under : Key}

/-- All tables hold what was done to them, and to absent ones nothing was done. -/
structure Follows (store : Store) (past : List Deed) : Prop where
  absent : ∀ name, Dict.get? store.tables name = none →
    specOf name past = none ∧ ∀ item, Deed.put name item ∉ past
  present : ∀ name table, Dict.get? store.tables name = some table → table.Follows name past

theorem follows_insert (deed : Deed) (follows : store.Follows past)
    (written : table.Follows deed.table (deed :: past)) :
    Follows { store with tables := Dict.insert store.tables deed.table table } (deed :: past) where
  absent := by
    intro name missing
    by_cases here : deed.table = name
    · subst here
      rw [Dict.get?_insert_self] at missing
      cases missing
    · rw [Dict.get?_insert_of_ne _ _ here] at missing
      obtain ⟨unknown, unwritten⟩ := follows.absent name missing
      refine ⟨(specOf_cons_of_ne here).trans unknown, ?_⟩
      intro item member
      rcases List.mem_cons.mp member with same | earlier
      · exact here (same ▸ rfl)
      · exact unwritten item earlier
  present := by
    intro name other found
    by_cases here : deed.table = name
    · subst here
      rw [Dict.get?_insert_self] at found
      exact Option.some.inj found ▸ written
    · rw [Dict.get?_insert_of_ne _ _ here] at found
      exact Table.follows_elsewhere (follows.present name other found) here

theorem createTable_of_present (found : Dict.get? store.tables name = some table)
    (spec : TableSpec) : store.createTable name spec = store := by
  have present : Dict.contains store.tables name = true := by simp [Dict.contains, found]
  rw [createTable, Dict.insertNew_of_contains present]

theorem follows_createTable (follows : store.Follows past) (name : String) (spec : TableSpec) :
    (store.createTable name spec).Follows (.create name spec :: past) := by
  cases found : Dict.get? store.tables name with
  | none =>
      obtain ⟨unknown, unwritten⟩ := follows.absent name found
      rw [createTable, Dict.insertNew_of_get?_eq_none found]
      exact follows_insert (.create name spec) follows (Table.follows_new unknown unwritten)
  | some table =>
      rw [createTable_of_present found]
      refine ⟨?_, fun other held atOther =>
        Table.follows_created (follows.present other held atOther) name spec⟩
      intro other missing
      have apart : name ≠ other := by
        rintro rfl
        rw [found] at missing
        cases missing
      obtain ⟨unknown, unwritten⟩ := follows.absent other missing
      exact ⟨(if_neg apart).trans unknown, by simpa using unwritten⟩

theorem approve_eq_ok : store.approve name item condition = .ok (table, under) ↔
    Dict.get? store.tables name = some table ∧ keyText table.spec name item = .ok under ∧
      checkCondition name (table.get? under) condition = .ok () := by
  cases found : Dict.get? store.tables name with
  | none => simp [approve, Store.table, found, bind, Except.bind]
  | some held =>
      have located : store.table name = .ok held := by simp only [Store.table, found]
      rw [approve, located, ok_bind, bind_eq_ok]
      constructor
      · rintro ⟨key, placed, checked⟩
        obtain ⟨met, result⟩ := then_eq_ok.mp checked
        cases result
        exact ⟨rfl, placed, met⟩
      · rintro ⟨same, placed, met⟩
        cases same
        exact ⟨under, placed, then_eq_ok.mpr ⟨met, rfl⟩⟩

theorem follows_putItem (follows : store.Follows past) :
    (store.putItem name item condition).2.Follows
      (deeds (.putItem name item condition) (store.putItem name item condition).1 ++ past) := by
  rw [putItem]
  cases approved : store.approve name item condition with
  | error error => exact follows
  | ok target =>
      obtain ⟨table, under⟩ := target
      obtain ⟨found, placed, _⟩ := approve_eq_ok.mp approved
      exact follows_insert (.put name item) follows
        (Table.follows_put (follows.present name table found) placed)

theorem follows_deleteItem (follows : store.Follows past) :
    (store.deleteItem name key condition).2.Follows
      (deeds (.deleteItem name key condition) (store.deleteItem name key condition).1 ++ past) := by
  rw [deleteItem]
  cases approved : store.approve name key condition with
  | error error => exact follows
  | ok target =>
      obtain ⟨table, under⟩ := target
      obtain ⟨found, placed, _⟩ := approve_eq_ok.mp approved
      exact follows_insert (.delete name key) follows
        (Table.follows_erase (follows.present name table found) placed)

theorem follows_act (follows : store.Follows past) (request : Call) :
    (act request store).2.Follows (deeds request (act request store).1 ++ past) := by
  cases request with
  | describeTable | getItem | scan => exact follows
  | putItem name item condition => exact follows_putItem follows
  | deleteItem name key condition => exact follows_deleteItem follows

end Store

theorem perform_refused {context : Context} {world : World Store} {error : StoreError}
    (refused : context.check world.surroundings = .error error) (request : Call) :
    connection.perform context request world = (.error error, world) :=
  Connection.checked_error (I := interface) Store.act refused request

theorem perform_live {context : Context} {world : World Store}
    (live : context.check world.surroundings = .ok ()) (request : Call) :
    connection.perform context request world =
      ((Store.act request world.store).1,
        { world with store := (Store.act request world.store).2 }) :=
  Connection.checked_ok (I := interface) Store.act live request

theorem Reached.follows {world : World Store} (reached : Reached past world) :
    world.store.Follows past := by
  induction reached with
  | fresh config surroundings =>
      exact { absent := fun _ _ => ⟨rfl, by simp⟩, present := fun _ _ found => by cases found }
  | created table spec _ ih => exact Store.follows_createTable ih table spec
  | @called past world context request _ ih =>
      cases allowed : context.check world.surroundings with
      | error error =>
          rw [perform_refused allowed]
          cases request <;> exact ih
      | ok _ =>
          rw [perform_live allowed]
          exact Store.follows_act ih request
  | elapsed event _ ih => exact ih

theorem Reached.exists_table {world : World Store} (reached : Reached past world)
    (created : specOf name past = some spec) :
    ∃ table, Dict.get? world.store.tables name = some table ∧ table.spec = spec ∧
      table.Follows name past := by
  have allFollow := reached.follows
  cases found : Dict.get? world.store.tables name with
  | none =>
      rw [(allFollow.absent name found).1] at created
      cases created
  | some table =>
      have follows := allFollow.present name table found
      exact ⟨table, rfl, Option.some.inj (follows.spec.symm.trans created), follows⟩

end DataAccess.KeyValue
