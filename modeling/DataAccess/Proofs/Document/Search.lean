import DataAccess.Proofs.Document.Sorting
import DataAccess.Proofs.Program

namespace DataAccess

section

variable {α : Type} (items : List α)

/-- What is left behind the skipped items, as far as a limit allows. -/
def cut (skip : Nat) : Option Nat → List α
  | none => items.drop skip
  | some limit => (items.drop skip).take limit

theorem cut_append (skip first second : Nat) :
    cut items skip (some first) ++ cut items (skip + first) (some second) =
      cut items skip (some (first + second)) := by
  simp only [cut]
  rw [List.take_add, List.drop_drop]

theorem cut_nil (skip : Nat) (limit : Option Nat) : cut ([] : List α) skip limit = [] := by
  cases limit <;> simp [cut]

end

namespace Document

variable {filter : Record} {test : Record → Bool} {sort : Option Record} {name : String}

/-- The directions of a sort document are 1 and -1. -/
def Directed (sort : Record) : Prop :=
  ∀ entry ∈ sort, entry.2 = .number (.int .one) ∨ entry.2 = .number (.int .minusOne)

instance (sort : Record) : Decidable (Directed sort) :=
  inferInstanceAs (Decidable (∀ entry ∈ sort, _ ∨ _))

def keysOf (sort : Record) : Sorting :=
  sort.map fun entry =>
    { field := entry.1, descending := decide (entry.2 = .number (.int .minusOne)) }

theorem sortKeys_eq_keysOf {sort : Record} (directed : Directed sort) :
    sortKeys sort = .ok (keysOf sort) := by
  induction sort with
  | nil => rfl
  | cons entry rest ih =>
      obtain ⟨field, direction⟩ := entry
      obtain ⟨first, others⟩ := List.forall_mem_cons.mp directed
      have known : direction? direction =
          some (decide (direction = .number (.int .minusOne))) := by
        rcases first with rfl | rfl <;> decide
      rw [sortKeys, known, ih others]
      rfl

theorem Collection.find_eq_cut {collection : Collection}
    (decides : ∀ document ∈ collection.documents, matches? document filter = .ok (test document))
    (directed : Directed (sort.getD [])) (skip : Nat) (limit : Option Nat) :
    collection.find filter { sort, skip, limit } =
      .ok (cut ((keysOf (sort.getD [])).sort (collection.documents.filter test)) skip limit) := by
  rw [find, matching_eq decides]
  cases sort with
  | none => cases limit <;> simp [keysOf, Sorting.sort_nil, cut]
  | some sort =>
      rw [Option.getD_some] at directed
      cases limit <;> simp [sortKeys_eq_keysOf directed, cut, ok_bind]

theorem Store.find_eq_cut {store : Store}
    (decides : ∀ document ∈ (store.collection name).documents,
      matches? document filter = .ok (test document))
    (directed : Directed (sort.getD [])) (skip : Nat) (limit : Option Nat) :
    store.find name filter { sort, skip, limit } =
      .ok (cut ((keysOf (sort.getD [])).sort ((store.collection name).documents.filter test)) skip
        limit) := by
  unfold Store.find
  unfold Store.collection at decides ⊢
  cases held : Dict.get? store.collections name with
  | some collection =>
      rw [held] at decides
      exact Collection.find_eq_cut decides directed skip limit
  | none =>
      simp only [Option.getD_none, List.filter_nil]
      rw [show (keysOf (sort.getD [])).sort [] = [] from rfl, cut_nil]

/-- A search filters, sorts stably by the keys of its sort document, the earlier ones first, skips
and cuts, in this order. There is one such arrangement, so pages of it follow one another. -/
theorem search_is_page_of_sorted_matches {context : Context} {world : World Store}
    (live : context.check world.surroundings = .ok ())
    (decides : ∀ document ∈ (world.store.collection name).documents,
      matches? document filter = .ok (test document))
    (directed : Directed (sort.getD []))
    (simple : ∀ document ∈ (world.store.collection name).documents, test document = true →
      ∀ entry ∈ sort.getD [], Value.isSimple (Record.field? document entry.1) = true) :
    let found := (world.store.collection name).documents.filter test
    let order := (keysOf (sort.getD [])).compareBy Value.sortOrder Record.field?
    let search := fun skip limit =>
      connection.perform context (.find name filter { sort, skip, limit }) world
    ∃ sorted, StablySorted order found sorted ∧
      (∀ other, StablySorted order found other → other = sorted) ∧
      (∀ skip, search skip none = (.ok (Cursor.ofList (sorted.drop skip)), world)) ∧
      (∀ skip limit, search skip (some limit) =
        (.ok (Cursor.ofList ((sorted.drop skip).take limit)), world)) ∧
      ∀ skip first second, ∃ front back,
        search skip (some first) = (.ok (Cursor.ofList front), world) ∧
          search (skip + first) (some second) = (.ok (Cursor.ofList back), world) ∧
          search skip (some (first + second)) = (.ok (Cursor.ofList (front ++ back)), world) := by
  intro found order search
  have simpleKeys : ∀ row ∈ found, ∀ key ∈ keysOf (sort.getD []),
      Value.isSimple (Record.field? row key.field) = true := by
    intro row member key listed
    obtain ⟨entry, atEntry, rfl⟩ := List.mem_map.mp listed
    obtain ⟨stored, matched⟩ := List.mem_filter.mp member
    exact simple row stored matched entry atEntry
  -- On simple values the comparison that sorts is the order that the statement speaks of.
  have arranged : StablySorted order found ((keysOf (sort.getD [])).sort found) :=
    (Sorting.stablySorted_sort_of_simple simpleKeys).congr fun left member right otherMember =>
      (Sorting.compareBy_sortOrder_eq_order simpleKeys left member right otherMember).symm
  have answers : ∀ skip limit, search skip limit =
      (.ok (Cursor.ofList (cut ((keysOf (sort.getD [])).sort found) skip limit)), world) := by
    intro skip limit
    refine (Connection.checked_ok (I := interface) Store.act live _).trans ?_
    simp only [Store.act, Store.find_eq_cut decides directed skip limit]
    rfl
  refine ⟨_, arranged, fun other rearranged => rearranged.eq arranged,
    fun skip => answers skip none, fun skip limit => answers skip (some limit), ?_⟩
  intro skip first second
  refine ⟨_, _, answers skip (some first), answers (skip + first) (some second), ?_⟩
  rw [cut_append]
  exact answers skip (some (first + second))

/-- From the highest level on; the two low ones are tied. -/
def highestFirst : Record := [("level", .number (.int .minusOne))]

theorem low_levels_follow :
    let world : World Store := { store := DocumentDao.measured }
    connection.perform .background (.find "readings" []
        { sort := some highestFirst, skip := 1, limit := some 2 }) world =
      (.ok (Cursor.ofList [DocumentDao.kitchen, DocumentDao.attic]), world) ∧
    ∃ front back,
      connection.perform .background (.find "readings" []
          { sort := some highestFirst, skip := 1, limit := some 1 }) world =
        (.ok (Cursor.ofList front), world) ∧
      connection.perform .background (.find "readings" []
          { sort := some highestFirst, skip := 2, limit := some 1 }) world =
        (.ok (Cursor.ofList back), world) ∧ front ++ back = [DocumentDao.kitchen, DocumentDao.attic] := by
  intro world
  have whole : connection.perform .background (.find "readings" []
        { sort := some highestFirst, skip := 1, limit := some 2 }) world =
      (.ok (Cursor.ofList [DocumentDao.kitchen, DocumentDao.attic]), world) := rfl
  obtain ⟨_, _, _, _, _, pages⟩ := @search_is_page_of_sorted_matches [] (fun _ => true)
    (some highestFirst) "readings" .background world rfl (fun _ _ => rfl) (by decide) (by decide)
  obtain ⟨front, back, first, second, both⟩ := pages 1 1 1
  refine ⟨whole, front, back, first, second, ?_⟩
  have same : (front ++ back).map Except.ok =
      [DocumentDao.kitchen, DocumentDao.attic].map (Except.ok : Record → Except StoreError Record) :=
    Except.ok.inj (congrArg Prod.fst (both.symm.trans whole))
  exact List.map_injective_iff.mpr (fun _ _ => Except.ok.inj) same

end Document

end DataAccess
