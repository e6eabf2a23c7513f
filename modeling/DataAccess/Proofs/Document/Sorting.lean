import DataAccess.Dao.Document
import DataAccess.Proofs.Document.Collection
import DataAccess.Proofs.Except
import DataAccess.Proofs.Path.Keys
import DataAccess.Proofs.Shape
import DataAccess.Proofs.Sorting

/-!
# Sort documents

A sort document has one direction for each column: a column that is named again keeps its place and
takes the later direction. The client sorts by all keys, of which the first with a column decides.
The two agree on all rows just when each column is last named with the direction that it is first
named with.
-/

namespace DataAccess

namespace Sorting

variable {sorting : Sorting}

/-- The columns with their directions, key after key. -/
def directions (sorting : Sorting) : List (String × Bool) :=
  sorting.map fun key => (key.field, key.descending)

def ofDirections (directions : List (String × Bool)) : Sorting :=
  directions.map fun entry => { field := entry.1, descending := entry.2 }

/-- The keys that a sort document keeps: of two with one column, the place of the earlier and the
direction of the later. -/
def collapsed (sorting : Sorting) : Sorting := ofDirections (Dict.ofList sorting.directions)

/-- Each column is last named with the direction that it is first named with. -/
def Steady (sorting : Sorting) : Prop :=
  ∀ key ∈ sorting, Dict.get? sorting.directions key.field =
    Dict.get? sorting.directions.reverse key.field

instance : Decidable sorting.Steady := inferInstanceAs (Decidable (∀ key ∈ sorting, _))

theorem directions_ofDirections (entries : List (String × Bool)) :
    (ofDirections entries).directions = entries := by
  simp [directions, ofDirections, Function.comp_def]

theorem ofDirections_directions (sorting : Sorting) :
    ofDirections sorting.directions = sorting := by
  simp [directions, ofDirections, Function.comp_def]

theorem keys_directions (sorting : Sorting) :
    Dict.keys sorting.directions = sorting.map SortKey.field := by
  simp [directions, Dict.keys, Function.comp_def]

theorem collapsed_of_distinct (distinct : (sorting.map SortKey.field).Nodup) :
    sorting.collapsed = sorting := by
  have columns : Dict.Distinct sorting.directions := by
    rwa [Dict.Distinct, keys_directions]
  rw [collapsed, Dict.ofList_eq_self columns, ofDirections_directions]

/-- Without keys all rows are tied. -/
theorem sort_nil (rows : List Record) : Sorting.sort [] rows = rows := by
  cases rows with
  | nil => rfl
  | cons row rest =>
      have sortable : Sortable [] (row :: rest) := by simp [Sortable]
      have stable := (stablySorted_sort sortable).stable row List.mem_cons_self
      simpa [order] using stable

/-- A key whose column an earlier key has decides nothing. -/
theorem order_append_repeated {key earlier : SortKey} (listed : earlier ∈ sorting)
    (same : earlier.field = key.field) (left right : Record) :
    Sorting.order (sorting ++ [key]) left right = sorting.order left right := by
  rw [order_append]
  cases ahead : sorting.order left right with
  | lt => rfl
  | gt => rfl
  | eq =>
      rw [order_eq_compareBy] at ahead
      have tied := order_of_compareBy_eq ahead earlier listed
      rw [same] at tied
      cases descending : key.descending <;> simp [order, SortKey.order, tied, descending]

theorem order_ofListNew (sorting : Sorting) (left right : Record) :
    (ofDirections (Dict.ofListNew (directions sorting))).order left right =
      sorting.order left right := by
  -- From the end: the last key is new, or repeats a column that was kept before.
  induction sorting using List.reverseRecOn with
  | nil => rfl
  | append_singleton sorting key ih =>
      have last : directions (sorting ++ [key]) =
          directions sorting ++ [(key.field, key.descending)] := by
        simp [directions]
      rw [last, Dict.ofListNew_concat, order_append, ← ih, ← order_append]
      cases found : Dict.get? (Dict.ofListNew (directions sorting)) key.field with
      | none =>
          rw [Dict.insertNew_of_get?_eq_none found,
            Dict.insert_of_not_mem (Dict.get?_eq_none_iff.mp found), ofDirections, List.map_append]
          rfl
      | some direction =>
          have listed : { field := key.field, descending := direction } ∈
              ofDirections (Dict.ofListNew (directions sorting)) :=
            List.mem_map.mpr ⟨_, Dict.mem_of_get? found, rfl⟩
          rw [Dict.insertNew_of_contains (by simp [Dict.contains, found])]
          exact (@order_append_repeated _ key _ listed rfl left right).symm

theorem ofList_eq_ofListNew_of_steady (steady : sorting.Steady) :
    Dict.ofList sorting.directions = Dict.ofListNew sorting.directions := by
  refine Dict.eq_of_keys_of_get? (Dict.distinct_ofList _) (Dict.keys_ofListNew _).symm ?_
  intro column member
  rw [Dict.mem_keys_ofList, keys_directions] at member
  obtain ⟨key, listed, rfl⟩ := List.mem_map.mp member
  rw [Dict.get?_ofList, Dict.get?_ofListNew, steady key listed]

theorem order_collapsed_of_steady (steady : sorting.Steady) :
    sorting.collapsed.order = sorting.order := by
  funext left right
  rw [collapsed, ofList_eq_ofListNew_of_steady steady, order_ofListNew]

/-- No other name is a column of such a row, nor one below its column. -/
theorem field?_single (column name : String) (flag : Bool) :
    Record.field? [(column, .bool flag)] name =
      if column = name then some (.bool flag) else none := by
  by_cases dotted : '.' ∈ name.toList
  · obtain ⟨first, second, rest, parts⟩ := Record.nameParts_of_dotted dotted
    by_cases same : column = name
    · simp [Record.field?, Dict.get?, same]
    · by_cases heads : column = first
      · subst heads
        simp [Record.field?, Record.descend, Record.part?, Dict.get?, parts, same]
      · simp [Record.field?, Record.descend, Record.part?, Dict.get?, parts, same, heads]
  · simp [Record.field?_undotted dotted, Dict.get?]

/-- The first key with the column decides. -/
theorem order_single (sorting : Sorting) (column : String) :
    sorting.order [(column, .bool true)] [(column, .bool false)] =
      (Dict.get? sorting.directions column).elim .eq fun descending =>
        if descending then .lt else .gt := by
  induction sorting with
  | nil => rfl
  | cons key rest ih =>
      rw [order, ih, SortKey.order, field?_single, field?_single]
      by_cases same : column = key.field
      · have falling : Value.totalOrder (some (.bool true)) (some (.bool false)) = .gt := rfl
        cases descending : key.descending <;>
          simp [directions, Dict.get?, same, descending, falling]
      · have apart : ¬ key.field = column := fun equal => same equal.symm
        simp [directions, Dict.get?, same, apart, Value.totalOrder, Value.rank]

theorem sort_single (sorting : Sorting) (column : String) :
    sorting.sort [[(column, .bool false)], [(column, .bool true)]] =
      if Dict.get? sorting.directions column = some true then
        [[(column, .bool true)], [(column, .bool false)]]
      else [[(column, .bool false)], [(column, .bool true)]] := by
  have order := order_single sorting column
  rcases first : Dict.get? sorting.directions column with _ | _ | _ <;>
    simp [sort, stableSort, insertSorted, order, first]

theorem sortable_single (sorting : Sorting) (column : String) :
    sorting.Sortable [[(column, .bool false)], [(column, .bool true)]] := by
  intro row member key _
  rcases List.mem_pair.mp member with rfl | rfl
  · rw [field?_single]
    split <;> rfl
  · rw [field?_single]
    split <;> rfl

/-- The kept keys sort all rows as the keys do just when the keys are steady. -/
theorem sort_collapsed_iff_steady :
    (∀ rows, sorting.Sortable rows → sorting.collapsed.sort rows = sorting.sort rows) ↔
      sorting.Steady := by
  constructor
  · -- Two rows that differ in a single column show with which direction it is named.
    intro alike key member
    have listed : (key.field, key.descending) ∈ sorting.directions :=
      List.mem_map.mpr ⟨key, member, rfl⟩
    obtain ⟨first, isFirst⟩ := Dict.exists_of_mem_keys (Dict.mem_keys_of_mem listed)
    obtain ⟨last, isLast⟩ := Dict.exists_of_mem_keys
      (Dict.mem_keys_of_mem (List.mem_reverse.mpr listed))
    have single := alike _ (sortable_single sorting key.field)
    rw [sort_single, sort_single, collapsed, directions_ofDirections, Dict.get?_ofList, isFirst,
      isLast] at single
    rw [isFirst, isLast]
    cases first <;> cases last <;> simp_all
  · intro steady rows _
    rw [sort, order_collapsed_of_steady steady, sort]

end Sorting

namespace Document

theorem direction?_sign (descending : Bool) :
    direction? (.number (.int (if descending then .minusOne else .one))) = some descending := by
  cases descending <;> rfl

/-- A sort document says which keys it kept. -/
theorem sortKeys_sortDocument (sorting : Sorting) :
    sortKeys (sortDocument sorting) = .ok sorting.collapsed := by
  have signed : sortDocument sorting = Dict.mapValues (fun descending =>
      Value.number (.int (if descending then .minusOne else .one)))
        (Dict.ofList sorting.directions) := by
    rw [Dict.ofList_mapValues, sortDocument, Sorting.directions, List.map_map]
    rfl
  rw [signed, Sorting.collapsed]
  induction Dict.ofList sorting.directions with
  | nil => rfl
  | cons entry rest ih =>
      simp only [Dict.mapValues] at ih ⊢
      simp only [List.map_cons, sortKeys, direction?_sign, ih]
      rfl

end Document

namespace DocumentDao

open Document (Store Collection)

variable {storage : String} {filter : Record} {found : List Record}

/-- A search sorts what it finds by the kept keys and cuts it to a page. -/
theorem find_options (dao : DocumentDao) {store : Store}
    (matched : Collection.matching filter (store.collection storage).documents = .ok found)
    (sorting : Sorting) (offset limit : Nat) :
    store.find storage filter (dao.options storage sorting offset limit) =
      .ok (page ((dao.mapper.sortKeys storage sorting).collapsed.sort found) offset limit) := by
  have searched (collection : Collection)
      (within : Collection.matching filter collection.documents = .ok found) :
      collection.find filter (dao.options storage sorting offset limit) =
        .ok (page ((dao.mapper.sortKeys storage sorting).collapsed.sort found) offset limit) := by
    cases sorting with
    | nil =>
        have unsorted : Sorting.collapsed (dao.mapper.sortKeys storage []) = [] := rfl
        rw [unsorted, Sorting.sort_nil]
        by_cases unlimited : limit = 0 <;> simp [Collection.find, within, options, page, unlimited]
    | cons key rest =>
        by_cases unlimited : limit = 0 <;>
          simp [Collection.find, within, options, page, unlimited, Document.sortKeys_sortDocument,
            ok_bind]
  unfold Store.find
  unfold Store.collection at matched
  cases held : Dict.get? store.collections storage with
  | some collection =>
      rw [held] at matched
      exact searched collection matched
  | none =>
      rw [held] at matched
      cases matched
      simp [page, Sorting.sort, stableSort]

/-- The client sorts sortable rows stably in the order of the keys, earlier ones first. Searches give
what they find in the same order just when each column that the keys repeat is last named with the
direction that it is first named with. -/
theorem searches_sort_alike_iff_steady (dao : DocumentDao) (kind : RowKind) (storage : String)
    (sorting : Sorting) :
    let mapper : RowMapper := { kind, mapping := dao.mapping }
    let columns := mapper.sortKeys storage sorting
    (∀ rows, columns.Sortable rows →
      StablySorted columns.order rows (mapper.sortRows storage sorting rows)) ∧
    ((∀ (store : Store) filter found,
        Collection.matching filter (store.collection storage).documents = .ok found →
        columns.Sortable found → ∀ offset limit,
          store.find storage filter (dao.options storage sorting offset limit) =
            .ok (page (mapper.sortRows storage sorting found) offset limit)) ↔
      columns.Steady) := by
  intro mapper columns
  refine ⟨fun rows sortable => Sorting.stablySorted_sort sortable, ?_⟩
  rw [← Sorting.sort_collapsed_iff_steady]
  constructor
  · intro alike rows sortable
    let store : Store :=
      { collections := [(storage, { documents := rows })], ids := { name := toString } }
    have documents : (store.collection storage).documents = rows := by
      simp [store, Store.collection, Dict.get?]
    have matched : Collection.matching [] (store.collection storage).documents = .ok rows := by
      rw [documents, Collection.matching_eq fun _ _ => rfl, List.filter_true]
    have searched := (dao.find_options matched sorting 0 0).symm.trans
      (alike store [] rows matched sortable 0 0)
    simp only [page, ↓reduceIte, List.drop_zero, Except.ok.injEq] at searched
    exact searched
  · intro alike store filter found matched sortable offset limit
    have sorted : columns.collapsed.sort found = mapper.sortRows storage sorting found :=
      alike found sortable
    rw [← sorted]
    exact dao.find_options matched sorting offset limit

def readings : DocumentDao where
  key := PrimaryKey.filter { fields := ["id"] }

def kitchen : Record :=
  [("_id", .string "1"), ("room", .string "kitchen"), ("level", .number (.int .minusOne))]

def heatedKitchen : Record :=
  [("_id", .string "2"), ("room", .string "kitchen"), ("level", .number (.int .one))]

def attic : Record :=
  [("_id", .string "3"), ("room", .string "attic"), ("level", .number (.int .minusOne))]

def measured : Store where
  collections := [("readings", { documents := [kitchen, heatedKitchen, attic] })]
  ids := { name := toString }

/-- By room and, in a room, from the highest level on; the room is named once more. -/
def byRoom : Sorting :=
  [{ field := "room", descending := false }, { field := "level", descending := true },
    { field := "room", descending := false }]

theorem rooms_are_sorted :
    Sorting.Steady byRoom ∧
      measured.find "readings" [] (readings.options "readings" byRoom 0 0) =
        .ok [attic, heatedKitchen, kitchen] := by
  have steady : Sorting.Steady byRoom := by decide
  have sortable : Sorting.Sortable byRoom [kitchen, heatedKitchen, attic] := by decide
  exact ⟨steady, (searches_sort_alike_iff_steady readings .document "readings" byRoom).2.mpr
    steady measured [] _ rfl sortable 0 0⟩

/-- From the lowest level on, and the other way round. -/
def levelTwice : Sorting :=
  [{ field := "level", descending := false }, { field := "level", descending := true }]

theorem repeated_level_is_turned :
    Sorting.Sortable levelTwice [kitchen, heatedKitchen, attic] ∧
      readings.mapper.sortRows "readings" levelTwice [kitchen, heatedKitchen, attic] =
        [kitchen, attic, heatedKitchen] ∧
      measured.find "readings" [] (readings.options "readings" levelTwice 0 0) =
        .ok [heatedKitchen, kitchen, attic] :=
  ⟨by decide, rfl, rfl⟩

end DocumentDao

end DataAccess
