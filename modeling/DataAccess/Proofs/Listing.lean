import DataAccess.Proofs.Dict
import DataAccess.Proofs.Document.Agreement
import DataAccess.Proofs.Registry
import DataAccess.Proofs.Sorting

namespace DataAccess

/-- Creates one object after the other, until one cannot be created. -/
def Dao.createAll {I : Interface} (dao : Dao I) (storage : String) : List Entry → Operation I Unit
  | [] => pure ()
  | entry :: rest => do
      let _ ← dao.create .background storage entry.object
      dao.createAll storage rest

theorem Dao.createAll_represents {I : Interface} {S : Type} {dao : Dao I}
    {connection : Connection I S} {storage : String} {represents : S → Registry → Prop}
    (refines : ∀ entry, dao.RefinesAt connection storage represents (.create entry))
    {entries : List Entry} (distinct : (entries.map Entry.key).Nodup) {world : World S}
    {registry : Registry} {held : Entry → Prop} (represented : represents world.store registry)
    (lists : registry.Lists held)
    (fresh : ∀ entry ∈ entries, ∀ old, held old → old.key ≠ entry.key) :
    ∃ after full, (dao.createAll storage entries).on connection world = (.ok (), after) ∧
      represents after.store full ∧ full.Lists fun entry => held entry ∨ entry ∈ entries := by
  induction entries generalizing world registry held with
  | nil => exact ⟨world, registry, rfl, represented, by simpa using lists⟩
  | cons entry rest ih =>
      obtain ⟨freshKey, distinctRest⟩ := List.nodup_cons.mp distinct
      have free := Registry.lookup_of_free lists (fresh entry List.mem_cons_self)
      obtain ⟨between, performed, represented⟩ := refines entry world registry represented
      have answered : registry.answer (.create entry) =
          (.ok (.count 1), registry.insert entry.key entry.object) := by
        simp only [Registry.answer, free]
      rw [answered] at performed represented
      have created : (dao.create .background storage entry.object).on connection world =
          (.ok 1, between) :=
        Operation.on_of_map Answer.count performed fun _ same => Answer.count.inj same
      have inserted : Registry.Lists (registry.insert entry.key entry.object)
          fun other => other = entry ∨ held other := by
        refine Registry.lists_insert lists fun other => or_congr_right ?_
        exact (and_iff_left_of_imp (fresh entry List.mem_cons_self other)).symm
      have restFresh : ∀ next ∈ rest, ∀ old, old = entry ∨ held old → old.key ≠ next.key := by
        rintro next later old (rfl | earlier)
        · exact fun same => freshKey (same ▸ List.mem_map_of_mem later)
        · exact fresh next (List.mem_cons_of_mem _ later) old earlier
      -- The entry joins those that are held, and the keys of the rest are still free.
      obtain ⟨after, full, ran, represents, lists⟩ := ih distinctRest represented inserted restFresh
      refine ⟨after, full, (Operation.on_bind_ok _ created).trans ran, represents, ?_⟩
      simpa [or_assoc, or_left_comm] using lists

/-- From an empty store on, entries with different keys are created, and then are its content. -/
theorem Dao.createAll_fresh {I : Interface} {S : Type} {dao : Dao I} {connection : Connection I S}
    {storage : String} {represents : S → Registry → Prop}
    (refines : ∀ entry, dao.RefinesAt connection storage represents (.create entry))
    {entries : List Entry} (distinct : (entries.map Entry.key).Nodup) (world : World S)
    (empty : represents world.store ∅) :
    ∃ after full, (dao.createAll storage entries).on connection world = (.ok (), after) ∧
      represents after.store full ∧ full.Lists (· ∈ entries) := by
  have nothing : Registry.Lists ∅ fun _ => False := Registry.lists_empty fun _ => id
  simpa using Dao.createAll_represents refines distinct empty nothing fun _ _ _ => False.elim

/-- Lists of entries with different keys that a map has are the same but for their order. -/
theorem Registry.perm_of_lists {registry : Registry} {entries others : List Entry}
    (lists : registry.Lists (· ∈ entries)) (otherLists : registry.Lists (· ∈ others))
    (distinct : (entries.map Entry.key).Nodup) (otherDistinct : (others.map Entry.key).Nodup) :
    entries.Perm others :=
  (List.perm_ext_iff_of_nodup (distinct.of_map _) (otherDistinct.of_map _)).mpr fun _ =>
    ⟨Registry.held_of_held lists otherLists, Registry.held_of_held otherLists lists⟩

/-- Creates objects, and lists those of them that satisfy a filter. -/
def Dao.createAndList {I : Interface} (dao : Dao I) (storage : String) (entries : List Entry)
    (filter : Filter) (sorting : Sorting) (offset limit : Nat) :
    Operation I (List BusinessObject) := do
  dao.createAll storage entries
  dao.fetchMany .background storage (some filter) sorting offset limit

/-- A plain name that no store uses for its own purposes. -/
structure Path.Ordinary (name : String) : Prop extends Path.Plain name where
  ordinary : Document.isOperator name = false
  unclaimed : name ≠ "_id"

instance (name : String) : Decidable (Path.Ordinary name) :=
  decidable_of_iff (Path.Plain name ∧ Document.isOperator name = false ∧ name ≠ "_id")
    ⟨fun ⟨plain, ordinary, unclaimed⟩ => { toPlain := plain, ordinary, unclaimed },
      fun name => ⟨name.toPlain, name.ordinary, name.unclaimed⟩⟩

/-- A search that can be asked of entries in any store. Inequality and comparisons of two fields are
about values of one kind, and what is sorted by has values of kinds that sort. -/
structure Listable (entries : List Entry) (filter : Filter) (sorting : Sorting) : Prop where
  valid : filter.validate = .ok ()
  read : ∀ name ∈ filter.fields, Path.Ordinary name
  settled : ∀ entry ∈ entries, ∀ test ∈ filter.tests, DocumentDao.Settled entry.object test
  sorted : ∀ key ∈ sorting, Path.Ordinary key.field
  distinct : (sorting.map SortKey.field).Nodup
  byId : "id" ∈ sorting.map SortKey.field
  sortable : ∀ entry ∈ entries, ∀ key ∈ sorting,
    Value.isSortable (entry.object.attribute? key.field) = true

theorem Listable.perm {entries others : List Entry} {filter : Filter} {sorting : Sorting}
    (listable : Listable entries filter sorting) (rearranged : entries.Perm others) :
    Listable others filter sorting :=
  { listable with
    settled := fun entry member => listable.settled entry (rearranged.mem_iff.mpr member)
    sortable := fun entry member => listable.sortable entry (rearranged.mem_iff.mpr member) }

namespace Entry

variable {entries others : List Entry} {filter : Filter} {sorting : Sorting}

theorem attribute?_eq (entry : Entry) {name : String} (plain : Path.Plain name) :
    entry.object.attribute? name = Dict.get? entry.fields name := by
  have root : entry.object.root = .map entry.fields := rfl
  rw [BusinessObject.attribute?_plain root plain]
  cases found : Dict.get? entry.fields name with
  | none => rfl
  | some value =>
      have listed : value ∈ Dict.values entry.fields :=
        List.mem_map.mpr ⟨(name, value), Dict.mem_of_get? found, rfl⟩
      simp [entry.noNulls value listed]

/-- An entry comes before another one in the order of a sorting. -/
def before (sorting : Sorting) (left right : Entry) : Bool :=
  sorting.compareBy Value.sortOrder BusinessObject.attribute? left.object right.object == .lt

/-- The entries that satisfy a filter, sorted. -/
def selected (filter : Filter) (sorting : Sorting) (entries : List Entry) : List Entry :=
  stableSort (before sorting) (entries.filter fun entry => filter.evaluate entry.object)

theorem before_trans {first second third : Entry} (earlier : before sorting first second = true)
    (later : before sorting second third = true) : before sorting first third = true := by
  rw [before, beq_iff_eq] at earlier later ⊢
  exact Std.TransCmp.lt_trans earlier later

theorem not_before_of_before {first second : Entry} (earlier : before sorting first second = true) :
    ¬ before sorting second first = true := by
  rw [before, beq_iff_eq] at earlier ⊢
  intro later
  have greater := Std.OrientedCmp.gt_iff_lt.mpr later
  rw [earlier] at greater
  cases greater

/-- Entries with different keys are not tied when `id` is sorted by. -/
theorem before_or_before (byId : "id" ∈ sorting.map SortKey.field) {first second : Entry}
    (apart : first.key ≠ second.key) :
    before sorting first second = true ∨ before sorting second first = true := by
  simp only [before, beq_iff_eq]
  cases order : sorting.compareBy Value.sortOrder BusinessObject.attribute? first.object
      second.object with
  | lt => exact .inl rfl
  | gt => exact .inr (Std.OrientedCmp.gt_iff_lt.mp order)
  | eq =>
      obtain ⟨key, member, isId⟩ := List.mem_map.mp byId
      have tied := Sorting.order_of_compareBy_eq order key member
      have plain : Path.Plain "id" := by decide
      rw [isId, attribute?_eq first plain, attribute?_eq second plain, first.keyed, second.keyed]
        at tied
      exact (apart (Value.eq_of_sortOrder_string tied)).elim

/-- What is sorted by columns under any names is sorted as its entries are. -/
theorem sort_map {row : Entry → Record} {columnOf : String → String}
    (held : ∀ entry ∈ entries, ∀ key ∈ sorting,
      Record.field? (row entry) (columnOf key.field) = entry.object.attribute? key.field)
    (sortable : ∀ entry ∈ entries, ∀ key ∈ sorting,
      Value.isSortable (entry.object.attribute? key.field) = true) :
    Sorting.sort (sorting.map fun key => { key with field := columnOf key.field })
        (entries.map row) = (stableSort (before sorting) entries).map row := by
  refine stableSort_map fun left member right otherMember => ?_
  rw [Sorting.order_eq_compareBy, Sorting.compareBy_rename, before]
  refine congrArg (· == .lt) (Sorting.compareBy_congr fun key listed => ?_)
  rw [held left member key listed, held right otherMember key listed]
  exact Value.totalOrder_eq_sortOrder
    (Value.isSimple_of_isSortable (sortable left member key listed))
    (Value.isSimple_of_isSortable (sortable right otherMember key listed))

theorem total_filter (byId : "id" ∈ sorting.map SortKey.field)
    (distinct : (entries.map Entry.key).Nodup) :
    (entries.filter fun entry => filter.evaluate entry.object).Pairwise fun first second =>
      before sorting first second = true ∨ before sorting second first = true := by
  refine List.Pairwise.filter _ ((List.pairwise_map.mp distinct).imp ?_)
  exact fun apart => before_or_before byId apart

theorem perm_selected (filter : Filter) (sorting : Sorting) (entries : List Entry) :
    (selected filter sorting entries).Perm
      (entries.filter fun entry => filter.evaluate entry.object) :=
  perm_stableSort _ _

theorem pairwise_selected (listable : Listable entries filter sorting)
    (distinct : (entries.map Entry.key).Nodup) :
    (selected filter sorting entries).Pairwise fun left right =>
      sorting.compareBy Value.totalOrder BusinessObject.attribute? left.object right.object =
        .lt := by
  have total : (entries.filter fun entry => filter.evaluate entry.object).Pairwise
      fun first second => before sorting first second = true ∨ before sorting second first = true :=
    total_filter listable.byId distinct
  have inside : ∀ entry ∈ selected filter sorting entries, entry ∈ entries := fun entry member =>
    (List.mem_filter.mp ((perm_selected filter sorting entries).subset member)).1
  have ordered : (selected filter sorting entries).Pairwise fun first second =>
      before sorting first second = true :=
    pairwise_stableSort (fun _ _ _ => before_trans) total
  refine ordered.imp_of_mem fun member otherMember earlier => ?_
  rw [before, beq_iff_eq] at earlier
  rw [← earlier]
  refine Sorting.compareBy_congr fun key listed => ?_
  exact Value.totalOrder_eq_sortOrder
    (Value.isSimple_of_isSortable (listable.sortable _ (inside _ member) key listed))
    (Value.isSimple_of_isSortable (listable.sortable _ (inside _ otherMember) key listed))

theorem selected_eq_of_perm (byId : "id" ∈ sorting.map SortKey.field)
    (distinct : (entries.map Entry.key).Nodup) (rearranged : entries.Perm others) :
    selected filter sorting entries = selected filter sorting others := by
  exact stableSort_eq_of_perm (fun _ _ _ => before_trans) (fun _ _ => not_before_of_before)
    (total_filter byId distinct) (rearranged.filter _)

end Entry

end DataAccess
