import DataAccess.Proofs.Document.Creation
import DataAccess.Proofs.KeyValue.Creation

namespace DataAccess

namespace Keyspace

variable (keyspace : Keyspace) (key : List Value)

/-- How many records have a key. -/
def stored (records : List Record) : Nat :=
  records.countP fun record => keyspace.Under key record

def contends (creation : Creation) : Bool :=
  decide (keyspace.names.map creation.object.attribute? = key.map some)

/-- Clients that create one object each. -/
def crowd {I : Interface} {S : Type} (create : Creation → Operation I Nat)
    (creations : List Creation) (world : World S) : Crowd I S where
  clients := creations.map fun creation =>
    { contends := keyspace.contends key creation, program := (create creation).run }
  world

def createDocument (creation : Creation) : Operation Document.interface Nat :=
  (keyspace.documents creation.config).create creation.context keyspace.storage creation.object

def createItem (creation : Creation) : Operation KeyValue.interface Nat :=
  (keyspace.items creation.config).create creation.context keyspace.storage creation.object

/-- The contexts of those who create the record of the key last through a schedule. -/
def Lasting (creations : List Creation) (surroundings : Surroundings) (schedule : List Turn) :
    Prop :=
  ∀ creation ∈ creations, keyspace.contends key creation = true →
    creation.context.check (surroundings.afterAll schedule) = .ok ()

instance (creations : List Creation) (surroundings : Surroundings) (schedule : List Turn) :
    Decidable (keyspace.Lasting key creations surroundings schedule) :=
  inferInstanceAs (Decidable (∀ creation ∈ creations, _ → _))

variable {keyspace} {key} {creations : List Creation} {schedule : List Turn}

theorem Names.contends_eq {own : List Value} {creation : Creation}
    (named : keyspace.Names own creation.object) :
    keyspace.contends key creation = decide (own = key) := by
  rw [contends, decide_eq_decide, named.values]
  exact (List.map_injective_iff.mpr (Option.some_injective _)).eq_iff

/-- The contexts of those who create the record of the key. -/
def contexts (keyspace : Keyspace) (key : List Value) (creations : List Creation) : List Context :=
  (creations.filter (keyspace.contends key)).map Creation.context

theorem mem_contexts {creation : Creation} (member : creation ∈ creations)
    (contended : keyspace.contends key creation = true) :
    creation.context ∈ keyspace.contexts key creations :=
  List.mem_map_of_mem (List.mem_filter.mpr ⟨member, contended⟩)

theorem Lasting.checks {surroundings : Surroundings}
    (lasting : keyspace.Lasting key creations surroundings schedule) :
    ∀ context ∈ keyspace.contexts key creations,
      context.check (surroundings.afterAll schedule) = .ok () := by
  intro context member
  obtain ⟨creation, listed, rfl⟩ := List.mem_map.mp member
  obtain ⟨atCreations, contended⟩ := List.mem_filter.mp listed
  exact lasting creation atCreations contended

end Keyspace

section

variable {keyspace : Keyspace} {key : List Value} {creations : List Creation}
variable {schedule : List Turn}

/-- However the turns of clients that create objects follow one another, and whatever happens around
them, the creations with one key come to one record of it at most: all of them but that which adds
it fail because of a duplicate. This holds of documents with an index over columns of the key, and
of items in a table with key attributes among these columns. -/
theorem concurrent_creates_store_one_record (usable : keyspace.Usable)
    (good : ∀ value ∈ key, value.isKey = true)
    (named : ∀ creation ∈ creations, ∃ own, keyspace.Names own creation.object) :
    (∀ world, Document.Reachable world →
      (∃ index ∈ (world.store.collection keyspace.storage).indexes,
        ∀ column ∈ index, column ∈ keyspace.columns) →
      keyspace.Lasting key creations world.surroundings schedule →
        let start := keyspace.crowd key keyspace.createDocument creations world
        let finish := start.run Document.connection schedule
        Contested 2 schedule start.clients finish.clients
          (keyspace.stored key (world.store.collection keyspace.storage).documents)
          (keyspace.stored key (finish.world.store.collection keyspace.storage).documents)) ∧
    ∀ past world spec, KeyValue.Reached past world →
      KeyValue.specOf keyspace.storage past = some spec →
      (∀ column ∈ spec.keyAttributes, column ∈ keyspace.columns) →
      keyspace.Lasting key creations world.surroundings schedule →
        let start := keyspace.crowd key keyspace.createItem creations world
        let finish := start.run KeyValue.connection schedule
        Contested 3 schedule start.clients finish.clients
          (keyspace.stored key (world.store.items keyspace.storage))
          (keyspace.stored key (finish.world.store.items keyspace.storage)) := by
  refine ⟨?_, ?_⟩
  · rintro world reachable ⟨index, declared, covered⟩ lasting
    refine Contest.contested_run (Document.contest keyspace usable key good index covered
      (keyspace.contexts key creations)) ⟨reachable.sound, declared⟩ ?_ ?_
    · intro client member
      obtain ⟨creation, listed, rfl⟩ := List.mem_map.mp member
      obtain ⟨own, namedOwn⟩ := named creation listed
      exact DocumentDao.settles_create (Keyspace.mem_contexts listed) namedOwn namedOwn.contends_eq
    · exact lasting.checks
  · intro past world spec reached created covered lasting
    obtain ⟨table, found, isSpec, follows⟩ := reached.exists_table created
    refine Contest.contested_run (KeyValue.contest keyspace key good spec covered
      (keyspace.contexts key creations)) ⟨table, found, isSpec, follows.toPlaced⟩ ?_ ?_
    · intro client member
      obtain ⟨creation, listed, rfl⟩ := List.mem_map.mp member
      obtain ⟨own, namedOwn⟩ := named creation listed
      exact KeyValueDao.settles_create usable (Keyspace.mem_contexts listed) namedOwn
        namedOwn.contends_eq
    · exact lasting.checks

end

namespace Keyspace

def people : Keyspace where
  storage := "people"
  mapping := [("people", [{ use := .renamed, field := "id", column := "_id" }])]
  primary := { fields := ["id"] }

def newcomer (id name : String) (transactionalCreate : Bool) : Creation where
  context := .withDeadline 10
  object := { root := .map [("id", .string id), ("name", .string name)] }
  config := { transactionalCreate }

def newcomers : List Creation :=
  [newcomer "1" "Ada" true, newcomer "1" "Ida" false, newcomer "2" "Bob" false]

/-- The second client finds nothing, and by the time it inserts the first one is done. -/
def rush : List Turn :=
  [.client 1, .client 0, .client 0, .around (.elapse 5), .client 1, .client 2, .client 2]

theorem usable_people : people.Usable where
  nonempty := by decide
  plain := by decide
  undotted := by decide
  ordinary := by decide

theorem names_newcomers : ∀ creation ∈ newcomers, ∃ own, people.Names own creation.object := by
  intro creation member
  simp only [newcomers, List.mem_cons, List.not_mem_nil, or_false] at member
  rcases member with rfl | rfl | rfl
  · exact ⟨[.string "1"], ⟨_, rfl, by decide⟩, by decide, by decide⟩
  · exact ⟨[.string "1"], ⟨_, rfl, by decide⟩, by decide, by decide⟩
  · exact ⟨[.string "2"], ⟨_, rfl, by decide⟩, by decide, by decide⟩

def emptyCollections : World Document.Store := { store := { ids := { name := fun _ => "none" } } }

def emptyTable : World KeyValue.Store :=
  { store := ({} : KeyValue.Store).createTable "people" { partitionKey := "_id" } }

def collectionsAfterRush : Crowd Document.interface Document.Store :=
  (people.crowd [.string "1"] people.createDocument newcomers emptyCollections).run
    Document.connection rush

def tableAfterRush : Crowd KeyValue.interface KeyValue.Store :=
  (people.crowd [.string "1"] people.createItem newcomers emptyTable).run KeyValue.connection rush

theorem rush_stores_one_record :
    collectionsAfterRush.clients.countP Client.won = 1 ∧
      people.stored [.string "1"]
        (collectionsAfterRush.world.store.collection "people").documents = 1 ∧
      tableAfterRush.clients.countP Client.won = 1 ∧
      people.stored [.string "1"] (tableAfterRush.world.store.items "people") = 1 := by
  obtain ⟨documents, items⟩ := @concurrent_creates_store_one_record people [.string "1"]
    newcomers rush usable_people (by decide) names_newcomers
  have ofDocuments := documents emptyCollections (.fresh _ _ _) ⟨["_id"], by decide, by decide⟩
    (by decide)
  have ofItems := items [.create "people" { partitionKey := "_id" }] emptyTable
    { partitionKey := "_id" } (.created _ _ (.fresh _ _)) (by decide) (by decide) (by decide)
  have documentWon : collectionsAfterRush.clients.countP Client.won = 1 := by decide
  have itemWon : tableAfterRush.clients.countP Client.won = 1 := by decide
  exact ⟨documentWon, ofDocuments.kept (.inr (documentWon ▸ Nat.one_ne_zero)), itemWon,
    ofItems.kept (.inr (itemWon ▸ Nat.one_ne_zero))⟩

end Keyspace

end DataAccess
