import DataAccess.Proofs.Document.Writing

namespace DataAccess.Document

variable {filter document old : Record} {documents kept : List Record} {test : Record → Bool}
variable {name : String} {many : Bool} {position count : Nat}

theorem exists_firstMatch_or_noMatch
    (decides : ∀ document ∈ documents, matches? document filter = .ok (test document)) :
    (∃ position old, FirstMatch filter documents position old) ∨ NoMatch filter documents := by
  have searched := Collection.position?_eq decides
  cases found : documents.findIdx? test with
  | some position =>
      obtain ⟨old, first⟩ := Collection.position?_eq_some.mp (found ▸ searched)
      exact .inl ⟨position, old, first⟩
  | none => exact .inr (Collection.position?_eq_none.mp (found ▸ searched))

namespace Collection

theorem remove_of_firstMatch (first : FirstMatch filter documents position old) :
    remove filter false documents = .ok (1, documents.eraseIdx position) := by
  induction documents generalizing position with
  | nil => cases first.located
  | cons document rest ih =>
      cases position with
      | zero =>
          obtain ⟨rfl, accepted⟩ := firstMatch_zero.mp first
          simp only [remove, accepted]
          rfl
      | succ position =>
          obtain ⟨refused, later⟩ := firstMatch_succ.mp first
          simp only [remove, refused, ih later]
          rfl

theorem remove_of_noMatch (noMatch : NoMatch filter documents) :
    remove filter many documents = .ok (0, documents) := by
  induction documents with
  | nil => rfl
  | cons document rest ih =>
      obtain ⟨refused, others⟩ := List.forall_mem_cons.mp noMatch
      simp only [remove, refused, ih others]
      rfl

theorem remove_many_eq
    (decides : ∀ document ∈ documents, matches? document filter = .ok (test document)) :
    remove filter true documents =
      .ok (documents.countP test, documents.filter fun document => !test document) := by
  induction documents with
  | nil => rfl
  | cons document rest ih =>
      obtain ⟨first, others⟩ := List.forall_mem_cons.mp decides
      simp only [remove, first, ih others]
      cases decided : test document with
      | true =>
          rw [List.countP_cons_of_pos decided, List.filter_cons_of_neg (by simp [decided])]
          rfl
      | false =>
          rw [List.countP_cons_of_neg (by simp [decided]), List.filter_cons_of_pos (by simp [decided])]
          rfl

end Collection

namespace Store

variable {store : Store}

theorem delete_of_removed
    (removed : Collection.remove filter many (store.collection name).documents = .ok (count, kept)) :
    (store.delete name filter many).1 = .ok count ∧
      store.Rewritten name kept (store.delete name filter many).2 := by
  cases held : Dict.get? store.collections name with
  | some collection =>
      have same := collection_of_get? held
      rw [same] at removed
      simp only [delete, held, removed, true_and]
      exact same ▸ rewritten_put rfl rfl kept
  | none =>
      have absent : store.collection name = {} := by
        simp only [Store.collection, held, Option.getD_none]
      rw [absent] at removed
      cases removed
      simp only [delete, held, true_and]
      exact ⟨by rw [absent], fun _ _ => rfl, rfl⟩

theorem delete_of_noMatch (noMatch : NoMatch filter (store.collection name).documents) :
    store.delete name filter many = (.ok 0, store) := by
  cases held : Dict.get? store.collections name with
  | some collection =>
      rw [collection_of_get? held] at noMatch
      simp only [delete, held, Collection.remove_of_noMatch noMatch, put, Dict.insert_of_get? held]
  | none => simp only [delete, held]

end Store

variable {context : Context} {world : World Store}

/-- Where the filter decides on all documents, a deletion of many leaves just those that it refuses
and answers how many it has accepted. A deletion of one takes out the first that is accepted, and
changes nothing where there is none. All documents that are left stand as they stood, and so do the
indexes and the other collections. -/
theorem deletion_takes_out_matches (live : context.check world.surroundings = .ok ())
    (decides : ∀ document ∈ (world.store.collection name).documents,
      matches? document filter = .ok (test document)) :
    let documents := (world.store.collection name).documents
    let ofMany : Except StoreError Nat × World Store :=
      connection.perform context (.deleteMany name filter) world
    let ofOne : Except StoreError Nat × World Store :=
      connection.perform context (.deleteOne name filter) world
    (ofMany.1 = .ok (documents.countP test) ∧
        world.store.Rewritten name (documents.filter fun document => !test document)
          ofMany.2.store) ∧
      ((∃ position old, FirstMatch filter documents position old ∧ ofOne.1 = .ok 1 ∧
          world.store.Rewritten name (documents.eraseIdx position) ofOne.2.store) ∨
        NoMatch filter documents ∧ ofOne = (.ok 0, world)) := by
  intro documents ofMany ofOne
  have performed (request : Call) : connection.perform context request world =
      ((Store.act request world.store).1,
        { world with store := (Store.act request world.store).2 }) :=
    Connection.checked_ok (I := interface) Store.act live request
  refine ⟨?_, ?_⟩
  · rw [show ofMany = _ from performed (.deleteMany name filter)]
    exact Store.delete_of_removed (Collection.remove_many_eq decides)
  · rw [show ofOne = _ from performed (.deleteOne name filter)]
    rcases exists_firstMatch_or_noMatch decides with ⟨position, old, first⟩ | noMatch
    · exact .inl ⟨position, old, first,
        Store.delete_of_removed (Collection.remove_of_firstMatch first)⟩
    · refine .inr ⟨noMatch, ?_⟩
      simp only [Store.act, Store.delete_of_noMatch noMatch]
      rfl

def visitor (id role : String) : Record := [("_id", .string id), ("role", .string role)]

/-- A host among guests. -/
def party : World Store where
  store :=
    { collections :=
        [("visitors", { documents := [visitor "1" "host", visitor "2" "guest", visitor "3" "guest"] }),
          ("rooms", { documents := [[("_id", .string "1")]] })]
      ids := { name := toString } }

def byRole : Record := [("role", .string "guest")]

theorem guests_leave :
    let ofMany : Except StoreError Nat × World Store :=
      connection.perform .background (.deleteMany "visitors" byRole) party
    let ofOne : Except StoreError Nat × World Store :=
      connection.perform .background (.deleteOne "visitors" byRole) party
    ofMany.1 = .ok 2 ∧
      (ofMany.2.store.collection "visitors").documents = [visitor "1" "host"] ∧
      ofOne.1 = .ok 1 ∧
      (ofOne.2.store.collection "visitors").documents =
        [visitor "1" "host", visitor "3" "guest"] ∧
      ofOne.2.store.collection "rooms" = party.store.collection "rooms" := by
  intro ofMany ofOne
  have decides : ∀ document ∈ (party.store.collection "visitors").documents,
      matches? document byRole = .ok (Dict.get? document "role" == some (.string "guest")) := by
    decide
  obtain ⟨⟨counted, rewritten⟩, ⟨position, old, first, one, taken⟩ | ⟨noMatch, _⟩⟩ :=
    @deletion_takes_out_matches byRole _ "visitors" .background party rfl decides
  · refine ⟨counted, rewritten.documents_eq, one, ?_, taken.others "rooms" (by decide)⟩
    obtain rfl : position = 1 := first.unique ⟨rfl, rfl, by decide⟩
    exact taken.documents_eq
  · cases noMatch (visitor "2" "guest") (by decide)

end DataAccess.Document
