import DataAccess.Document.Store
import DataAccess.Proofs.Document.Collection
import DataAccess.Proofs.Program
import DataAccess.Proofs.Value

namespace DataAccess.Document

/-- Every document has an `_id`, and no two of them have one another's key. -/
structure Collection.Sound (collection : Collection) : Prop where
  identified : ∀ document ∈ collection.documents, Dict.contains document idField = true
  apart : ∀ index ∈ collection.indexes, collection.documents.Pairwise (Apart index)

namespace Collection

variable {collection after : Collection} {name : String} {document : Record}

theorem sound_empty : Sound {} where
  identified := by simp
  apart := by simp

theorem sound_createIndex {index : List String} (sound : collection.Sound)
    (created : collection.createIndex name index = .ok after) : after.Sound := by
  simp only [createIndex] at created
  split at created
  · cases created
  · rename_i unrepeated
    cases created
    refine ⟨sound.identified, ?_⟩
    intro other member
    have listed : other ∈ collection.indexes ++ [index] := member
    rcases List.mem_append.mp listed with old | added
    · exact sound.apart other old
    · rw [List.mem_singleton.mp added]
      exact pairwise_apart_of_repetition? unrepeated

theorem sound_insert (sound : collection.Sound)
    (identified : Dict.contains document idField = true)
    (inserted : collection.insert name document = .ok after) : after.Sound := by
  obtain ⟨_, accepted, result⟩ := bind_eq_ok.mp inserted
  cases result
  refine ⟨?_, ?_⟩
  · intro other member
    rcases List.mem_append.mp member with old | added
    · exact sound.identified other old
    · rw [List.mem_singleton.mp added]
      exact identified
  · intro index member
    exact pairwise_append_singleton (sound.apart index member)
      (apart_of_checkUnique accepted index member)

/-- A replacement has the `_id` of what it replaces, or one of its own. -/
theorem contains_replacement {old new result : Record}
    (identified : Dict.contains old idField = true)
    (replaced : replacement old new = .ok result) : Dict.contains result idField = true := by
  obtain ⟨oldId, found⟩ := Option.isSome_iff_exists.mp identified
  simp only [replacement, found] at replaced
  cases given : Dict.get? new idField with
  | some newId =>
      simp only [given] at replaced
      split at replaced
      · cases replaced
        simp [Dict.contains, given]
      · cases replaced
  | none =>
      simp only [given] at replaced
      cases replaced
      simp [Dict.contains, Dict.get?_insert_self]

theorem sound_replaceAt {position : Nat} {old new : Record} {outcome : ReplaceOutcome}
    (sound : collection.Sound) (located : collection.documents[position]? = some old)
    (replaced : collection.replaceAt name position old new = .ok (outcome, after)) :
    after.Sound := by
  obtain ⟨document, replacedBy, checked⟩ := bind_eq_ok.mp replaced
  obtain ⟨_, accepted, result⟩ := bind_eq_ok.mp checked
  cases result
  have oldIdentified := sound.identified old (List.mem_of_getElem? located)
  refine ⟨?_, ?_⟩
  · intro other member
    rcases List.mem_or_eq_of_mem_set member with kept | added
    · exact sound.identified other kept
    · rw [added]
      exact contains_replacement oldIdentified replacedBy
  · intro index member
    exact pairwise_set (sound.apart index member) (apart_of_checkUnique accepted index member)

theorem sound_sublist {documents : List Record} (sound : collection.Sound)
    (kept : documents.Sublist collection.documents) :
    Sound { collection with documents } where
  identified document member := sound.identified document (kept.subset member)
  apart index member := (sound.apart index member).sublist kept

end Collection

/-- All collections of a store are sound. -/
def Store.Sound (store : Store) : Prop :=
  ∀ name collection, Dict.get? store.collections name = some collection → collection.Sound

namespace Store

variable {store : Store} {name : String} {collection : Collection}

theorem sound_collection (sound : store.Sound) (name : String) : (store.collection name).Sound := by
  rw [Store.collection]
  cases found : Dict.get? store.collections name with
  | none => exact Collection.sound_empty
  | some collection => exact sound name collection found

theorem sound_put (sound : store.Sound) (whole : collection.Sound) :
    (store.put name collection).Sound := by
  intro other held located
  by_cases same : name = other
  · subst other
    rw [put, Dict.get?_insert_self] at located
    exact Option.some.inj located ▸ whole
  · rw [put, Dict.get?_insert_of_ne _ _ same] at located
    exact sound other held located

theorem sound_createIndex {index : List String} (sound : store.Sound) :
    (store.createIndex name index).2.Sound := by
  simp only [createIndex]
  split
  · rename_i created
    exact sound_put sound (Collection.sound_createIndex (sound_collection sound name) created)
  · exact sound

theorem collections_identify (store : Store) (document : Record) :
    (store.identify document).2.collections = store.collections := by
  simp only [identify]
  split <;> rfl

theorem contains_identify (store : Store) (document : Record) :
    Dict.contains (store.identify document).1 idField = true := by
  simp only [identify]
  split
  · assumption
  · simp [Dict.contains, Dict.get?_insert_self]

theorem sound_identify (sound : store.Sound) (document : Record) :
    (store.identify document).2.Sound := by
  intro name collection located
  rw [collections_identify] at located
  exact sound name collection located

theorem sound_insert (sound : store.Sound) (document : Record) :
    (store.insert name document).2.Sound := by
  have named := sound_identify sound document
  simp only [insert]
  split
  · rename_i inserted
    exact sound_put named (Collection.sound_insert (sound_collection named name)
      (contains_identify store document) inserted)
  · exact named

theorem located_of_locate {filter old : Record} {position : Nat}
    (located : store.locate name filter = .ok (some (position, old))) :
    (store.collection name).documents[position]? = some old := by
  obtain ⟨found, _, result⟩ := bind_eq_ok.mp located
  obtain ⟨first, _, pair⟩ := Option.bind_eq_some_iff.mp (pure_eq_ok.mp result)
  obtain ⟨document, atPosition, same⟩ := Option.map_eq_some_iff.mp pair
  cases same
  exact atPosition

theorem sound_replace (sound : store.Sound) (filter document : Record) (upsert : Bool) :
    (store.replace name filter document upsert).2.Sound := by
  simp only [replace]
  split
  · exact sound
  · rename_i located
    split
    · rename_i replaced
      exact sound_put sound (Collection.sound_replaceAt (sound_collection sound name)
        (located_of_locate located) replaced)
    · exact sound
  · split
    · have inserted : (store.insert name (seed document filter)).2.Sound :=
        sound_insert sound (seed document filter)
      split
      · rename_i result
        rw [result] at inserted
        exact inserted
      · rename_i result
        rw [result] at inserted
        exact inserted
    · exact sound

theorem sound_delete (sound : store.Sound) (filter : Record) (many : Bool) :
    (store.delete name filter many).2.Sound := by
  simp only [delete]
  split
  · exact sound
  · rename_i located
    have whole := sound name _ located
    split
    · rename_i removed
      exact sound_put sound (Collection.sound_sublist whole (Collection.remove_sublist removed))
    · exact sound_put sound (Collection.sound_sublist whole (List.nil_sublist _))

theorem sound_act (request : Call) (store : Store) (sound : store.Sound) :
    (act request store).2.Sound := by
  cases request with
  | findOne name filter => exact sound
  | find name filter options => exact sound
  | insertOne name document => exact sound_insert sound document
  | replaceOne name filter document upsert => exact sound_replace sound filter document upsert
  | deleteOne name filter => exact sound_delete sound filter false
  | deleteMany name filter => exact sound_delete sound filter true

end Store

theorem connection_keeps_sound : connection.Keeps Store.Sound :=
  Connection.keeps_of_act Store.sound_act fun _ _ before => before

/-- The worlds that an empty store comes to by declarations of indexes and by programs, which may
look at every answer, run transactions inside transactions and go on after any failure. -/
inductive Reachable : World Store → Prop
  | fresh (ids : IdSupply) (config : StoreConfig) (surroundings : Surroundings) :
      Reachable { store := { ids, config }, surroundings }
  | indexed {world : World Store} (name : String) (index : List String) :
      Reachable world →
        Reachable { world with store := (world.store.createIndex name index).2 }
  | ran {world : World Store} {α : Type} (program : Program interface α) :
      Reachable world → Reachable (program.run connection world).2

theorem Reachable.sound {world : World Store} (reachable : Reachable world) :
    world.store.Sound := by
  induction reachable with
  | fresh ids config surroundings =>
      intro name collection located
      cases located
  | indexed name index _ sound => exact Store.sound_createIndex sound
  | ran program _ sound => exact program.run_keeps connection_keeps_sound sound

theorem sameKey_comm {left right : Record} (wellLeft : (Value.map left).WellFormed)
    (wellRight : (Value.map right).WellFormed) (index : List String) :
    sameKey left right index = sameKey right left index := by
  simp only [sameKey]
  congr 1
  funext field
  cases atLeft : Record.field? left field with
  | none => cases Record.field? right field <;> rfl
  | some x =>
      cases atRight : Record.field? right field with
      | none => rfl
      | some y =>
          exact Value.equal_comm (Record.wellFormed_field? wellLeft atLeft)
            (Record.wellFormed_field? wellRight atRight)

/-- In every reachable store each document has an `_id`, and documents at different positions, with
distinct keys in all their maps, agree neither on `_id` nor on a declared index. -/
theorem reachable_keys_unique {world : World Store} (reachable : Reachable world)
    {name : String} {collection : Collection}
    (held : Dict.get? world.store.collections name = some collection) :
    (∀ document ∈ collection.documents, Dict.contains document idField = true) ∧
      ∀ index ∈ collection.indexes, ∀ (first second : Nat) (left right : Record),
        first ≠ second → collection.documents[first]? = some left →
          collection.documents[second]? = some right → (Value.map left).WellFormed →
            (Value.map right).WellFormed → sameKey left right index = false := by
  have sound := reachable.sound name collection held
  refine ⟨sound.identified, ?_⟩
  intro index member first second left right different atFirst atSecond wellLeft wellRight
  have apart : Apart index left right := by
    obtain ⟨firstInside, atFirst⟩ := List.getElem?_eq_some_iff.mp atFirst
    obtain ⟨secondInside, atSecond⟩ := List.getElem?_eq_some_iff.mp atSecond
    have ordered := List.pairwise_iff_getElem.mp (sound.apart index member)
    rcases Nat.lt_or_gt_of_ne different with before | after
    · exact atFirst ▸ atSecond ▸ ordered first second firstInside secondInside before
    · exact (atFirst ▸ atSecond ▸ ordered second first secondInside firstInside after).symm
  rw [Bool.eq_false_iff]
  intro shared
  exact apart ⟨shared, sameKey_comm wellLeft wellRight index ▸ shared⟩

def person (id email : String) : Record := [("_id", .string id), ("email", .string email)]

/-- No documents yet, and an index on the addresses of people. -/
def emptyDirectory : World Store :=
  let world : World Store := { store := { ids := { name := fun _ => "none" } } }
  { world with store := (world.store.createIndex "people" ["email"]).2 }

/-- Two people come in by nested transactions, and a third is refused for the address of the
first. -/
def registration : Program interface (Outcome (Option (Outcome (Option Unit)))) :=
  .transaction .background .snapshot
    (.call .background (.insertOne "people" (person "1" "ada@x")) fun _ =>
      .transaction .background .snapshot
        (.call .background (.insertOne "people" (person "2" "ada@x")) fun _ =>
          .call .background (.insertOne "people" (person "3" "bob@x")) fun _ => .done (.ok (), ()))
        fun outcome => .done (.ok (), outcome))
    .done

theorem registered_people_differ :
    Dict.get? (registration.run connection emptyDirectory).2.store.collections "people" =
        some { uniqueIndexes := [["email"]]
               documents := [person "1" "ada@x", person "3" "bob@x"] } ∧
      sameKey (person "1" "ada@x") (person "3" "bob@x") ["email"] = false := by
  have reachable : Reachable (registration.run connection emptyDirectory).2 :=
    .ran registration (.indexed "people" ["email"] (.fresh _ _ _))
  have held : Dict.get? (registration.run connection emptyDirectory).2.store.collections "people" =
      some { uniqueIndexes := [["email"]]
             documents := [person "1" "ada@x", person "3" "bob@x"] } := rfl
  refine ⟨held, ?_⟩
  exact (reachable_keys_unique reachable held).2 ["email"] (by decide) 0 1 _ _ (by decide) rfl rfl
    ⟨by decide, trivial, trivial, trivial⟩ ⟨by decide, trivial, trivial, trivial⟩

end DataAccess.Document
