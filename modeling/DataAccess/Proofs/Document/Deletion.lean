import DataAccess.Proofs.Document.Creation

/-!
# Failed deletions

A deletion evaluates its filter document by document, and the filter may fail on any of them. The
documents have been taken out by then, so the collection is left without any. No other call that
fails touches a document, and neither does a deletion that its context refuses.
-/

namespace DataAccess.Document

variable {filter : Record} {many : Bool} {error : StoreError} {name : String}

namespace Collection

/-- The filter fails on a document that a deletion comes to: it decides the documents before, and a
deletion of one document has not ended with one of them. -/
inductive FailsAmong (filter : Record) (many : Bool) (error : StoreError) : List Record → Prop
  | here {document : Record} {rest : List Record} :
      matches? document filter = .error error → FailsAmong filter many error (document :: rest)
  | later {document : Record} {rest : List Record} {holds : Bool} :
      matches? document filter = .ok holds → (holds = true → many = true) →
        FailsAmong filter many error rest → FailsAmong filter many error (document :: rest)

theorem remove_eq_error {documents : List Record} :
    remove filter many documents = .error error ↔ FailsAmong filter many error documents := by
  induction documents with
  | nil =>
      constructor
      · intro failed
        cases failed
      · intro fails
        cases fails
  | cons document rest ih =>
      constructor
      · intro failed
        rcases bind_eq_error.mp failed with undecided | ⟨holds, decided, failed⟩
        · exact .here undecided
        · cases holds with
          | false =>
              rcases bind_eq_error.mp failed with inRest | ⟨_, _, done⟩
              · exact .later decided (nomatch ·) (ih.mp inRest)
              · cases done
          | true =>
              cases many with
              | false => cases failed
              | true =>
                  rcases bind_eq_error.mp failed with inRest | ⟨_, _, done⟩
                  · exact .later decided (fun _ => rfl) (ih.mp inRest)
                  · cases done
      · intro fails
        cases fails with
        | here undecided => simp only [remove, undecided]; rfl
        | later decided goesOn fails =>
            rename_i holds
            simp only [remove, decided, ok_bind, ih.mpr fails]
            cases holds with
            | false => rfl
            | true => simp only [goesOn rfl]; rfl

theorem FailsAmong.ne_nil {documents : List Record} (fails : FailsAmong filter many error documents) :
    documents ≠ [] := by
  rintro rfl
  cases fails

end Collection

open Collection (FailsAmong remove_eq_error)

/-- The call that deletes the first document that matches, or all of them. -/
def Call.deletion (name : String) (filter : Record) : Bool → Call
  | false => .deleteOne name filter
  | true => .deleteMany name filter

namespace Store

variable {store : Store}

theorem collection_put_of_ne {other : String} (different : name ≠ other) (collection : Collection) :
    (store.put name collection).collection other = store.collection other := by
  simp only [Store.collection, put, Dict.get?_insert_of_ne _ _ different]

theorem collection_of_get? {collection : Collection}
    (held : Dict.get? store.collections name = some collection) :
    store.collection name = collection := by
  simp only [Store.collection, held, Option.getD_some]

theorem delete_of_failsAmong
    (fails : FailsAmong filter many error (store.collection name).documents) :
    store.delete name filter many =
      (.error error, store.put name { store.collection name with documents := [] }) := by
  cases held : Dict.get? store.collections name with
  | none =>
      have absent : store.collection name = {} := by
        simp only [Store.collection, held, Option.getD_none]
      exact absurd (absent ▸ rfl) fails.ne_nil
  | some collection =>
      have same := collection_of_get? held
      simp only [delete, held, remove_eq_error.mpr (same ▸ fails), same]

theorem delete_eq_error : (store.delete name filter many).1 = .error error ↔
    FailsAmong filter many error (store.collection name).documents := by
  constructor
  · intro failed
    cases held : Dict.get? store.collections name with
    | none =>
        simp only [delete, held] at failed
        cases failed
    | some collection =>
        cases removed : Collection.remove filter many collection.documents with
        | ok left =>
            simp only [delete, held, removed] at failed
            cases failed
        | error other =>
            simp only [delete, held, removed] at failed
            cases failed
            exact collection_of_get? held ▸ remove_eq_error.mp removed
  · intro fails
    rw [delete_of_failsAmong fails]

theorem insert_eq_error {document : Record} (failed : (store.insert name document).1 = .error error) :
    (store.insert name document).2.collections = store.collections := by
  rcases store.insert_cases name document with ⟨_, inserted⟩ | ⟨_, refused⟩
  · rw [inserted] at failed
    cases failed
  · rw [refused]
    exact collections_identify store document

theorem replace_eq_error {document : Record} {upsert : Bool}
    (failed : (store.replace name filter document upsert).1 = .error error) :
    (store.replace name filter document upsert).2.collections = store.collections := by
  simp only [replace] at failed ⊢
  split
  · rfl
  · rename_i located
    simp only [located] at failed
    split
    · rename_i replaced
      simp only [replaced] at failed
      cases failed
    · rfl
  · rename_i located
    simp only [located] at failed
    cases upsert with
    | false => rfl
    | true =>
        rcases inserted : store.insert name (seed document filter) with ⟨_ | _, after⟩
        · have kept := store.insert_eq_error (congrArg Prod.fst inserted)
          rw [inserted] at kept
          exact kept
        · simp only [inserted] at failed
          cases failed

end Store

variable {world : World Store} {context : Context}

theorem perform_deletion_eq_error
    (failed : (connection.perform context (.deletion name filter many) world).1 = .error error) :
    context.check world.surroundings = .error error ∧
        (connection.perform context (.deletion name filter many) world).2 = world ∨
      context.check world.surroundings = .ok () ∧
        FailsAmong filter many error (world.store.collection name).documents ∧
        (connection.perform context (.deletion name filter many) world).2.store =
          world.store.put name { world.store.collection name with documents := [] } := by
  rcases Connection.checked_eq_error failed with refused | ⟨allowed, refused, kept⟩
  · exact .inl refused
  · have deleted : (world.store.delete name filter many).1 = .error error := by
      cases many <;> exact refused
    have fails := Store.delete_eq_error.mp deleted
    refine .inr ⟨allowed, fails, kept.trans ?_⟩
    cases many <;> exact congrArg Prod.snd (Store.delete_of_failsAmong fails)

/-- A deletion that fails keeps all documents exactly when its context refuses it. Otherwise its
filter fails on a document that it comes to, and its collection, whatever it held, is left without
documents; the other collections stay as they are. -/
theorem failed_deletion_empties_collection
    (failed : (connection.perform context (.deletion name filter many) world).1 = .error error) :
    let after := (connection.perform context (.deletion name filter many) world).2.store
    ((∀ other, (after.collection other).documents = (world.store.collection other).documents) ↔
        context.check world.surroundings = .error error) ∧
      (∀ other, other ≠ name → after.collection other = world.store.collection other) ∧
      (context.check world.surroundings = .ok () →
        FailsAmong filter many error (world.store.collection name).documents ∧
          after.collection name = { world.store.collection name with documents := [] }) := by
  intro after
  rcases perform_deletion_eq_error failed with ⟨refused, same⟩ | ⟨allowed, fails, emptied⟩
  · have kept : after = world.store := congrArg World.store same
    refine ⟨⟨fun _ => refused, fun _ _ => by rw [kept]⟩, fun _ _ => by rw [kept], ?_⟩
    intro allowed
    cases refused.symm.trans allowed
  · have left : after.collection name = { world.store.collection name with documents := [] } := by
      rw [show after = _ from emptied, Store.collection_put]
    refine ⟨⟨?_, ?_⟩, ?_, fun _ => ⟨fails, left⟩⟩
    · intro kept
      exact absurd ((kept name).symm.trans (congrArg Collection.documents left)) fails.ne_nil
    · intro refused
      cases refused.symm.trans allowed
    · intro other different
      rw [show after = _ from emptied, Store.collection_put_of_ne different.symm]

def users : World Store where
  store :=
    { collections :=
        [("users",
          { documents := [[("_id", .string "1"), ("name", .string "Ada")],
                          [("_id", .string "2"), ("name", .string "Alan")]] })]
      ids := { name := toString } }

/-- No operator has this name. -/
def byPattern : Record := [("name", .map [("$regex", .string "A")])]

theorem expired_deletion_keeps_users :
    (connection.perform (.withDeadline 0) (.deletion "users" byPattern true) users).1 =
        .error .timeout ∧
      ∀ other, ((connection.perform (.withDeadline 0) (.deletion "users" byPattern true)
        users).2.store.collection other).documents = (users.store.collection other).documents := by
  have failed : (connection.perform (.withDeadline 0) (.deletion "users" byPattern true) users).1 =
      .error .timeout := rfl
  exact ⟨failed, (failed_deletion_empties_collection failed).1.mpr rfl⟩

theorem failed_deletion_loses_users :
    (connection.perform .background (.deletion "users" byPattern true) users).1 =
        .error (.invalidQuery (.fieldOperator "$regex")) ∧
      (users.store.collection "users").documents.length = 2 ∧
      ((connection.perform .background (.deletion "users" byPattern true)
        users).2.store.collection "users").documents = [] :=
  ⟨rfl, rfl, rfl⟩

end DataAccess.Document
