import DataAccess.Proofs.Operation
import DataAccess.Proofs.Path
import Mathlib.Data.Finmap

/-!
# Records under keys

What all stores have in common: a finite map from keys to records, and what it answers to requests.
Data access refines the map when each request gets the answer of the map and leaves a store that
holds what the map holds.
-/

namespace DataAccess

/-- A record with the string that its field `id` holds. No field is null, and none is called like
the ids that a document store makes up. -/
@[ext]
structure Entry where
  fields : Record
  key : String
  distinct : Dict.Distinct fields
  keyed : Dict.get? fields "id" = some (.string key)
  noNulls : ∀ value ∈ Dict.values fields, value.isNull = false
  unclaimed : "_id" ∉ Dict.keys fields

namespace Entry

def object (entry : Entry) : BusinessObject := { root := .map entry.fields }

theorem eq_of_fields {entry other : Entry} (same : entry.fields = other.fields) : entry = other := by
  have keyed := entry.keyed
  rw [same, other.keyed] at keyed
  exact Entry.ext same (Value.string.inj (Option.some.inj keyed)).symm

end Entry

/-- What is asked of data access to one storage. -/
inductive Request
  | create (entry : Entry)
  | update (entry : Entry)
  | save (entry : Entry)
  | delete (entry : Entry)
  | fetchOne (key : String)

/-- How many records a request wrote or removed, or the record that it found. -/
inductive Answer
  | count (written : Nat)
  | found (record : Option BusinessObject)
deriving DecidableEq

/-- The filter for the record under a key. -/
def keyFilter (key : String) : Filter := .compare "id" .equal (.string key)

/-- The usual key filter, on the field `id`. -/
def idKey : KeyFilter := PrimaryKey.filter { fields := ["id"] }

theorem filter_idKey (storage : String) (entry : Entry) :
    idKey.filter storage entry.object = .ok (keyFilter entry.key) := by
  have root : entry.object.root = .map entry.fields := rfl
  have plain : Path.Plain "id" := by decide
  have read : entry.object.get "id" = .ok (some (.string entry.key)) := by
    rw [BusinessObject.get_plain root plain, entry.keyed]
    rfl
  have fields : PrimaryKey.fieldsOf { fields := ["id"] } storage = ["id"] := rfl
  simp only [KeyFilter.filter, idKey, PrimaryKey.filter, fields, List.mapM_cons, List.mapM_nil,
    PrimaryKey.clause, read]
  rfl

def Request.perform {I : Interface} (dao : Dao I) (storage : String) : Request → Operation I Answer
  | .create entry => .count <$> dao.create .background storage entry.object
  | .update entry => .count <$> dao.update .background storage entry.object
  | .save entry => .count <$> dao.save .background storage entry.object
  | .delete entry => .count <$> dao.delete .background storage entry.object
  | .fetchOne key => .found <$> dao.fetchOne .background storage (some (keyFilter key))

/-- The answers to requests, one after the other. -/
def Dao.answers {I : Interface} {S : Type} (dao : Dao I) (connection : Connection I S)
    (storage : String) : List Request → World S → List (Except DaoError Answer)
  | [], _ => []
  | request :: rest, world =>
      let (answer, world) := (request.perform dao storage).on connection world
      answer :: dao.answers connection storage rest world

/-- Records under their keys. -/
abbrev Registry := Finmap fun _ : String => BusinessObject

namespace Registry

variable {registry : Registry} {held after : Entry → Prop}

/-- The answer to a request, and the records after it. -/
def answer (registry : Registry) : Request → Except DaoError Answer × Registry
  | .create entry =>
      match registry.lookup entry.key with
      | some _ => (.error .duplicateEntry, registry)
      | none => (.ok (.count 1), registry.insert entry.key entry.object)
  | .update entry =>
      match registry.lookup entry.key with
      | some _ => (.ok (.count 1), registry.insert entry.key entry.object)
      | none => (.ok (.count 0), registry)
  | .save entry => (.ok (.count 1), registry.insert entry.key entry.object)
  | .delete entry =>
      match registry.lookup entry.key with
      | some _ => (.ok (.count 1), registry.erase entry.key)
      | none => (.ok (.count 0), registry)
  | .fetchOne key => (.ok (.found (registry.lookup key)), registry)

def answers : List Request → Registry → List (Except DaoError Answer)
  | [], _ => []
  | request :: rest, registry =>
      let (answer, registry) := registry.answer request
      answer :: answers rest registry

def ada : Entry where
  fields := [("name", .string "Ada"), ("id", .string "1")]
  key := "1"
  distinct := by decide
  keyed := rfl
  noNulls := by decide
  unclaimed := by decide

example : answers [.create ada, .create ada, .fetchOne "1", .delete ada, .update ada] ∅ =
    [.ok (.count 1), .error .duplicateEntry, .ok (.found (some ada.object)), .ok (.count 1),
      .ok (.count 0)] := by
  decide

/-- The map has the entries that are held and no others. -/
def Lists (registry : Registry) (held : Entry → Prop) : Prop :=
  ∀ key object, registry.lookup key = some object ↔
    ∃ entry, held entry ∧ entry.key = key ∧ entry.object = object

theorem lists_empty (none : ∀ entry, ¬ held entry) : Lists ∅ held := by
  intro key object
  simp [none]

theorem lookup_of_held (lists : registry.Lists held) {entry : Entry} (member : held entry) :
    registry.lookup entry.key = some entry.object :=
  (lists entry.key entry.object).mpr ⟨entry, member, rfl, rfl⟩

theorem lookup_of_free (lists : registry.Lists held) {key : String}
    (free : ∀ entry, held entry → entry.key ≠ key) : registry.lookup key = none := by
  rw [Option.eq_none_iff_forall_ne_some]
  intro object found
  obtain ⟨entry, member, same, _⟩ := (lists key object).mp found
  exact free entry member same

theorem free_of_lookup (lists : registry.Lists held) {key : String}
    (missing : registry.lookup key = none) : ∀ entry, held entry → entry.key ≠ key := by
  rintro entry member rfl
  have present := lookup_of_held lists member
  rw [missing] at present
  cases present

/-- A map that has the entries of both has the same ones. -/
theorem held_of_held (lists : registry.Lists held) (otherLists : registry.Lists after)
    {entry : Entry} (member : held entry) : after entry := by
  obtain ⟨other, found, _, same⟩ := (otherLists _ _).mp (lookup_of_held lists member)
  have fields : other.fields = entry.fields := by
    simpa [Entry.object] using same
  rwa [← Entry.eq_of_fields fields]

theorem lists_insert (lists : registry.Lists held) {entry : Entry}
    (written : ∀ other, after other ↔ other = entry ∨ held other ∧ other.key ≠ entry.key) :
    Lists (registry.insert entry.key entry.object) after := by
  intro key object
  by_cases same : key = entry.key
  · subst same
    rw [Finmap.lookup_insert]
    constructor
    · rintro ⟨⟩
      exact ⟨entry, (written entry).mpr (.inl rfl), rfl, rfl⟩
    · rintro ⟨other, member, sameKey, rfl⟩
      rcases (written other).mp member with rfl | ⟨_, different⟩
      · rfl
      · exact (different sameKey).elim
  · rw [Finmap.lookup_insert_of_ne _ same, lists key object]
    refine exists_congr fun other => and_congr_left fun ⟨sameKey, _⟩ => ?_
    rw [written]
    constructor
    · exact fun member => .inr ⟨member, fun equal => same (sameKey.symm.trans equal)⟩
    · rintro (rfl | ⟨member, _⟩)
      · exact (same sameKey.symm).elim
      · exact member

theorem lists_erase (lists : registry.Lists held) {key : String}
    (removed : ∀ other, after other ↔ held other ∧ other.key ≠ key) :
    Lists (registry.erase key) after := by
  intro other object
  by_cases same : other = key
  · subst same
    rw [Finmap.lookup_erase]
    constructor
    · rintro ⟨⟩
    · rintro ⟨entry, member, sameKey, _⟩
      exact (((removed entry).mp member).2 sameKey).elim
  · rw [Finmap.lookup_erase_ne same, lists other object]
    refine exists_congr fun entry => and_congr_left fun ⟨sameKey, _⟩ => ?_
    rw [removed]
    exact ⟨fun member => ⟨member, fun equal => same (sameKey.symm.trans equal)⟩, And.left⟩

end Registry

/-- A request gets the answer of the map that the store represents, and leaves a store that
represents the map after it. -/
def Dao.RefinesAt {I : Interface} {S : Type} (dao : Dao I) (connection : Connection I S)
    (storage : String) (represents : S → Registry → Prop) (request : Request) : Prop :=
  ∀ (world : World S) (registry : Registry), represents world.store registry →
    ∃ after, (request.perform dao storage).on connection world =
        ((registry.answer request).1, after) ∧
      represents after.store (registry.answer request).2

theorem Dao.answers_eq {I : Interface} {S : Type} {dao : Dao I}
    {connection : Connection I S} {storage : String} {represents : S → Registry → Prop}
    (refines : ∀ request, dao.RefinesAt connection storage represents request)
    (requests : List Request) {world : World S} {registry : Registry}
    (represented : represents world.store registry) :
    dao.answers connection storage requests world = Registry.answers requests registry := by
  induction requests generalizing world registry with
  | nil => rfl
  | cons request rest ih =>
      obtain ⟨after, performed, represented⟩ := refines request world registry represented
      simp only [Dao.answers, performed, Registry.answers]
      rw [ih represented]

end DataAccess
