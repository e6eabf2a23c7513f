import DataAccess.Sorting
import Mathlib.Data.List.Induction
import Mathlib.Order.Defs.LinearOrder

namespace DataAccess

variable {α β : Type} {precedes : α → α → Bool} {item : α} {items others : List α}

theorem perm_insertSorted (precedes : α → α → Bool) (item : α) (items : List α) :
    (insertSorted precedes item items).Perm (item :: items) := by
  induction items with
  | nil => exact .refl _
  | cons first rest ih =>
      rw [insertSorted]
      split
      · exact .refl _
      · exact (ih.cons first).trans (.swap item first rest)

theorem stableSort_concat (precedes : α → α → Bool) (items : List α) (item : α) :
    stableSort precedes (items ++ [item]) =
      insertSorted precedes item (stableSort precedes items) := by
  simp [stableSort]

theorem perm_stableSort (precedes : α → α → Bool) (items : List α) :
    (stableSort precedes items).Perm items := by
  induction items using List.reverseRecOn with
  | nil => exact .refl _
  | append_singleton items item ih =>
      rw [stableSort_concat]
      exact (perm_insertSorted precedes item _).trans
        ((ih.cons item).trans (List.perm_append_singleton item items).symm)

section

variable {before : β → β → Bool} {f : α → β}

theorem insertSorted_map
    (agree : ∀ other ∈ items, before (f item) (f other) = precedes item other) :
    insertSorted before (f item) (items.map f) = (insertSorted precedes item items).map f := by
  induction items with
  | nil => rfl
  | cons first rest ih =>
      have same : ((first :: rest).map f).all (before (f item)) =
          (first :: rest).all (precedes item) := by
        rw [List.all_map, Bool.eq_iff_iff, List.all_eq_true, List.all_eq_true]
        exact forall₂_congr fun other member => by rw [Function.comp_apply, agree other member]
      rw [List.map_cons] at same ⊢
      rw [insertSorted, insertSorted, same]
      split
      · rfl
      · rw [ih fun other later => agree other (List.mem_cons_of_mem _ later), List.map_cons]

theorem stableSort_map (agree : ∀ first ∈ items, ∀ second ∈ items,
    before (f first) (f second) = precedes first second) :
    stableSort before (items.map f) = (stableSort precedes items).map f := by
  induction items using List.reverseRecOn with
  | nil => rfl
  | append_singleton items item ih =>
      have earlier := ih fun first member second secondMember =>
        agree first (List.mem_append_left _ member) second (List.mem_append_left _ secondMember)
      rw [List.map_append, List.map_singleton, stableSort_concat, stableSort_concat, earlier]
      refine insertSorted_map fun other member => ?_
      exact agree item (by simp) other (List.mem_append_left _ (mem_stableSort.mp member))

end

theorem page_map (f : α → β) (items : List α) (offset limit : Nat) :
    page (items.map f) offset limit = (page items offset limit).map f := by
  simp only [page]
  split
  · rw [List.map_drop]
  · rw [List.map_take, List.map_drop]

/-- An item goes behind the last one that it does not precede, so what is in order stays in order. -/
theorem pairwise_insertSorted {R : α → α → Prop}
    (trans : ∀ first second third : α, R first second → R second third → R first third)
    (before : ∀ other ∈ items, precedes item other = true → R item other)
    (behind : ∀ other ∈ items, precedes item other ≠ true → R other item)
    (sorted : items.Pairwise R) : (insertSorted precedes item items).Pairwise R := by
  induction items with
  | nil => exact List.pairwise_singleton _ _
  | cons first rest ih =>
      obtain ⟨least, sortedRest⟩ := List.pairwise_cons.mp sorted
      rw [insertSorted]
      split
      · rename_i greater
        refine List.pairwise_cons.mpr ⟨fun other member => ?_, sorted⟩
        exact before other member (List.all_eq_true.mp greater other member)
      · rename_i greater
        -- Not all are greater, so one is smaller than the item, and the first is the least of all.
        have smaller : R first item := by
          rw [List.all_eq_true, not_forall₂] at greater
          obtain ⟨other, member, notGreater⟩ := greater
          have below := behind other member notGreater
          rcases List.mem_cons.mp member with rfl | later
          · exact below
          · exact trans _ _ _ (least other later) below
        refine List.pairwise_cons.mpr ⟨?_, ih (fun other later => before other
          (List.mem_cons_of_mem _ later)) (fun other later => behind other
          (List.mem_cons_of_mem _ later)) sortedRest⟩
        intro other member
        rcases mem_insertSorted.mp member with rfl | later
        · exact smaller
        · exact least other later

/-- Items that pass a test stay in their order where none of them precedes the new one. -/
theorem filter_insertSorted {test : α → Bool}
    (behind : test item = true → ∀ other ∈ items, test other = true → precedes item other = false) :
    (insertSorted precedes item items).filter test = (items ++ [item]).filter test := by
  induction items with
  | nil => rfl
  | cons first rest ih =>
      rw [insertSorted]
      split
      · rename_i greater
        rw [List.filter_append]
        by_cases passes : test item = true
        · have alone : (first :: rest).filter test = [] := by
            refine List.filter_eq_nil_iff.mpr fun other member accepted => ?_
            have preceded := List.all_eq_true.mp greater other member
            rw [behind passes other member accepted] at preceded
            cases preceded
          simp [passes, alone]
        · simp [passes]
      · have later := ih fun passes other member => behind passes other
          (List.mem_cons_of_mem _ member)
        rw [List.cons_append, List.filter_cons, List.filter_cons, later]

/-- A rearrangement in ascending order in which items that are tied stand as they stood before. -/
structure StablySorted (order : α → α → Ordering) (items sorted : List α) : Prop where
  rearranged : sorted.Perm items
  ascending : sorted.Pairwise fun first second => (order first second).isLE = true
  stable : ∀ item ∈ items, (sorted.filter fun other => order item other == .eq) =
    items.filter fun other => order item other == .eq

theorem StablySorted.congr {order other : α → α → Ordering} {sorted : List α}
    (arranged : StablySorted order items sorted)
    (agree : ∀ first ∈ items, ∀ second ∈ items, order first second = other first second) :
    StablySorted other items sorted where
  rearranged := arranged.rearranged
  ascending := by
    refine arranged.ascending.imp_of_mem fun member otherMember before => ?_
    rwa [← agree _ (arranged.rearranged.mem_iff.mp member) _
      (arranged.rearranged.mem_iff.mp otherMember)]
  stable item member := by
    have same : ∀ next ∈ items, (order item next == .eq) = (other item next == .eq) :=
      fun next listed => by rw [agree item member next listed]
    calc sorted.filter (fun next => other item next == .eq)
      _ = sorted.filter (fun next => order item next == .eq) :=
          List.filter_congr fun next listed =>
            (same next (arranged.rearranged.mem_iff.mp listed)).symm
      _ = items.filter (fun next => order item next == .eq) := arranged.stable item member
      _ = items.filter (fun next => other item next == .eq) := List.filter_congr same

section

variable (order : α → α → Ordering) [Std.TransCmp order]

theorem filter_tied_stableSort (pivot : α) (items : List α) :
    ((stableSort (fun first second => order first second == .lt) items).filter fun other =>
      order pivot other == .eq) = items.filter fun other => order pivot other == .eq := by
  induction items using List.reverseRecOn with
  | nil => rfl
  | append_singleton items item ih =>
      rw [stableSort_concat, filter_insertSorted, List.filter_append, List.filter_append, ih]
      intro tied other _ otherTied
      -- Two items that are tied with a third are tied with each other.
      have equal : order item other = .eq := Std.TransCmp.eq_trans
        (Std.OrientedCmp.eq_symm (beq_iff_eq.mp tied)) (beq_iff_eq.mp otherTied)
      rw [equal]
      rfl

theorem stablySorted_stableSort (items : List α) :
    StablySorted order items
      (stableSort (fun first second => order first second == .lt) items) where
  rearranged := perm_stableSort _ items
  ascending := by
    induction items using List.reverseRecOn with
    | nil => exact .nil
    | append_singleton items item ih =>
        rw [stableSort_concat]
        refine pairwise_insertSorted (fun _ _ _ => Std.TransCmp.isLE_trans) ?_ ?_ ih
        · intro other _ smaller
          rw [beq_iff_eq.mp smaller]
          rfl
        · intro other _ notSmaller
          have swapped : order other item = (order item other).swap := Std.OrientedCmp.eq_swap
          rw [swapped, Ordering.isLE_swap, Ordering.isGE_iff_ne_lt]
          exact fun smaller => notSmaller (beq_iff_eq.mpr smaller)
  stable pivot _ := filter_tied_stableSort order pivot items

variable {order}

theorem eq_of_stable {first second : List α} (rearranged : first.Perm second)
    (ascending : first.Pairwise fun left right => (order left right).isLE = true)
    (otherAscending : second.Pairwise fun left right => (order left right).isLE = true)
    (stable : ∀ item ∈ first, (first.filter fun other => order item other == .eq) =
      second.filter fun other => order item other == .eq) : first = second := by
  induction first generalizing second with
  | nil => exact rearranged.symm.eq_nil.symm
  | cons item rest ih =>
      cases second with
      | nil => exact absurd rearranged.eq_nil (List.cons_ne_nil item rest)
      | cons other tail =>
          obtain ⟨least, ascending⟩ := List.pairwise_cons.mp ascending
          obtain ⟨otherLeast, others⟩ := List.pairwise_cons.mp otherAscending
          -- Each of the two heads is the least of all, so they are tied, and stability decides.
          have below : (order item other).isLE = true := by
            rcases List.mem_cons.mp (rearranged.symm.subset List.mem_cons_self) with same | later
            · exact same ▸ Std.ReflCmp.isLE_rfl
            · exact least other later
          have above : (order other item).isLE = true := by
            rcases List.mem_cons.mp (rearranged.subset List.mem_cons_self) with same | later
            · exact same ▸ Std.ReflCmp.isLE_rfl
            · exact otherLeast item later
          have tied : order item other = .eq := Std.OrientedCmp.isLE_antisymm below above
          have heads := stable item List.mem_cons_self
          rw [List.filter_cons_of_pos (by simp [Std.ReflCmp.compare_self]),
            List.filter_cons_of_pos (by simp [tied])] at heads
          obtain ⟨rfl, _⟩ := List.cons.inj heads
          refine congrArg (item :: ·) (ih rearranged.cons_inv ascending others ?_)
          intro pivot member
          have whole := stable pivot (List.mem_cons_of_mem _ member)
          rw [List.filter_cons, List.filter_cons] at whole
          split at whole
          · exact (List.cons.inj whole).2
          · exact whole

/-- A list has one stable arrangement. -/
theorem StablySorted.eq {first second : List α} (arranged : StablySorted order items first)
    (rearranged : StablySorted order items second) : first = second := by
  refine eq_of_stable (arranged.rearranged.trans rearranged.rearranged.symm) arranged.ascending
    rearranged.ascending fun item member => ?_
  have listed := arranged.rearranged.mem_iff.mp member
  exact (arranged.stable item listed).trans (rearranged.stable item listed).symm

end

section

variable (trans : ∀ first second third : α, precedes first second = true →
  precedes second third = true → precedes first third = true)

include trans

/-- Where no two items are tied, each precedes the later ones after sorting. -/
theorem pairwise_stableSort
    (total : items.Pairwise fun first second =>
      precedes first second = true ∨ precedes second first = true) :
    (stableSort precedes items).Pairwise fun first second => precedes first second = true := by
  induction items using List.reverseRecOn with
  | nil => exact .nil
  | append_singleton items item ih =>
      obtain ⟨earlier, _, between⟩ := List.pairwise_append.mp total
      have either : ∀ other ∈ stableSort precedes items,
          precedes item other = true ∨ precedes other item = true :=
        fun other member => (between other (mem_stableSort.mp member) item (by simp)).symm
      rw [stableSort_concat]
      refine pairwise_insertSorted trans (fun _ _ before => before) ?_ (ih earlier)
      exact fun other member notBefore => (either other member).resolve_left notBefore

theorem stableSort_eq_of_perm (asymm : ∀ first second : α, precedes first second = true →
      ¬ precedes second first = true)
    (total : items.Pairwise fun first second =>
      precedes first second = true ∨ precedes second first = true)
    (rearranged : items.Perm others) : stableSort precedes items = stableSort precedes others := by
  have otherTotal := rearranged.pairwise total Or.symm
  refine List.Perm.eq_of_pairwise ?_ (pairwise_stableSort trans total)
    (pairwise_stableSort trans otherTotal) ?_
  · exact fun _ _ _ _ before after => (asymm _ _ before after).elim
  · exact (perm_stableSort precedes items).trans
      (rearranged.trans (perm_stableSort precedes others).symm)

end

namespace Value

/-- What is missing, and truth values, strings and integers. -/
def isSortable : Option Value → Bool
  | none => true
  | some (.bool _) => true
  | some (.string _) => true
  | some (.number (.int _)) => true
  | _ => false

/-- Sortable values and nulls, which stand where missing values do. -/
def isSimple : Option Value → Bool
  | some .null => true
  | value => isSortable value

theorem isSimple_of_isSortable {value : Option Value} (sortable : isSortable value = true) :
    isSimple value = true := by
  rcases value with _ | (_ | _ | _ | _ | _ | _) <;> first | rfl | exact sortable

def whole : Option Value → Int
  | some (.bool b) => b.toNat
  | some (.number (.int n)) => n.val
  | _ => 0

def text : Option Value → String
  | some (.string s) => s
  | _ => ""

/-- The order of sortable values, by kind first. -/
def sortOrder : Option Value → Option Value → Ordering :=
  compareLex (compareOn rank) (compareLex (compareOn whole) (compareOn text))

instance : Std.TransCmp sortOrder :=
  inferInstanceAs (Std.TransCmp (compareLex _ (compareLex _ _)))

theorem isSimple_cases {value : Option Value} (simple : isSimple value = true) :
    value = none ∨ value = some .null ∨ (∃ b, value = some (.bool b)) ∨
      (∃ s, value = some (.string s)) ∨ ∃ n, value = some (.number (.int n)) := by
  rcases value with _ | (_ | b | (n | x) | s | items | fields) <;> simp_all [isSimple, isSortable]

theorem totalOrder_eq_sortOrder {left right : Option Value} (simple : isSimple left = true)
    (otherSimple : isSimple right = true) : totalOrder left right = sortOrder left right := by
  rcases isSimple_cases simple with rfl | rfl | ⟨b, rfl⟩ | ⟨s, rfl⟩ | ⟨m, rfl⟩ <;>
    rcases isSimple_cases otherSimple with rfl | rfl | ⟨c, rfl⟩ | ⟨t, rfl⟩ | ⟨n, rfl⟩
  -- Two truth values and two integers are left; kinds that differ compare by rank.
  all_goals try rfl
  · cases b <;> cases c <;> rfl
  · simp [totalOrder, sortOrder, compareLex, compareOn, rank, whole, text, compare?]
    rfl

theorem eq_of_sortOrder_string {s t : String}
    (tied : sortOrder (some (.string s)) (some (.string t)) = .eq) : s = t := by
  simpa [sortOrder, compareLex, compareOn, rank, whole, text] using tied

end Value

namespace Sorting

/-- The order by the first key on whose field two things differ, for any way to read fields and any
order of values. -/
def compareBy (order : Option Value → Option Value → Ordering) (read : α → String → Option Value) :
    Sorting → α → α → Ordering
  | [], _, _ => .eq
  | key :: rest, left, right =>
      let ascending := order (read left key.field) (read right key.field)
      (if key.descending then ascending.swap else ascending).then
        (compareBy order read rest left right)

theorem order_eq_compareBy (sorting : Sorting) (left right : Record) :
    sorting.order left right = sorting.compareBy Value.totalOrder Record.field? left right := by
  induction sorting with
  | nil => rfl
  | cons key rest ih => rw [order, ih, compareBy, SortKey.order]

variable {order other : Option Value → Option Value → Ordering}

theorem compareBy_congr {read : α → String → Option Value} {otherRead : β → String → Option Value}
    {sorting : Sorting} {left right : α} {otherLeft otherRight : β}
    (agree : ∀ key ∈ sorting, order (read left key.field) (read right key.field) =
      other (otherRead otherLeft key.field) (otherRead otherRight key.field)) :
    sorting.compareBy order read left right =
      sorting.compareBy other otherRead otherLeft otherRight := by
  induction sorting with
  | nil => rfl
  | cons key rest ih =>
      rw [compareBy, compareBy, agree key List.mem_cons_self,
        ih fun next later => agree next (List.mem_cons_of_mem _ later)]

theorem compareBy_rename (rename : String → String) (read : α → String → Option Value)
    (sorting : Sorting) (left right : α) :
    compareBy order read (sorting.map fun key => { key with field := rename key.field }) left
        right =
      sorting.compareBy order (fun item name => read item (rename name)) left right := by
  induction sorting with
  | nil => rfl
  | cons key rest ih => rw [List.map_cons, compareBy, compareBy, ih]

theorem compareBy_cons [Std.OrientedCmp order] (read : α → String → Option Value) (key : SortKey)
    (rest : Sorting) : compareBy order read (key :: rest) =
      compareLex (fun left right =>
        if key.descending then order (read right key.field) (read left key.field)
        else order (read left key.field) (read right key.field)) (rest.compareBy order read) := by
  funext left right
  rw [compareBy, compareLex, ← Std.OrientedCmp.eq_swap]

instance (read : α → String → Option Value) (sorting : Sorting) [Std.TransCmp order] :
    Std.TransCmp (sorting.compareBy order read) := by
  induction sorting with
  | nil => exact { eq_swap := rfl, isLE_trans := fun _ _ => rfl }
  | cons key rest ih =>
      have ascending : Std.TransCmp fun left right : α =>
          order (read left key.field) (read right key.field) :=
        { eq_swap := Std.OrientedCmp.eq_swap, isLE_trans := Std.TransCmp.isLE_trans }
      rw [compareBy_cons]
      have either : Std.TransCmp fun left right : α =>
          if key.descending then order (read right key.field) (read left key.field)
          else order (read left key.field) (read right key.field) := by
        cases key.descending with
        | true => exact @Std.TransCmp.opposite _ _ ascending
        | false => exact ascending
      infer_instance

theorem order_of_compareBy_eq {read : α → String → Option Value} {sorting : Sorting}
    {left right : α} (tied : sorting.compareBy order read left right = .eq) :
    ∀ key ∈ sorting, order (read left key.field) (read right key.field) = .eq := by
  induction sorting with
  | nil => simp
  | cons key rest ih =>
      obtain ⟨first, remaining⟩ := Ordering.then_eq_eq.mp tied
      intro next member
      rcases List.mem_cons.mp member with rfl | later
      · cases descending : next.descending <;> simpa [descending] using first
      · exact ih remaining next later

theorem order_append (first second : Sorting) (left right : Record) :
    Sorting.order (first ++ second) left right =
      (first.order left right).then (second.order left right) := by
  induction first with
  | nil => rfl
  | cons key rest ih =>
      rw [List.cons_append, Sorting.order, Sorting.order, ih, Ordering.then_assoc]

/-- Each row has a value of a sortable kind, or none, in each column. -/
def Sortable (sorting : Sorting) (rows : List Record) : Prop :=
  ∀ row ∈ rows, ∀ key ∈ sorting, Value.isSortable (Record.field? row key.field) = true

instance (sorting : Sorting) (rows : List Record) : Decidable (sorting.Sortable rows) :=
  inferInstanceAs (Decidable (∀ row ∈ rows, ∀ key ∈ sorting, _ = true))

section

variable {sorting : Sorting} {rows : List Record}

/-- On simple values the order by several keys is a total preorder. -/
theorem compareBy_sortOrder_eq_order
    (simple : ∀ row ∈ rows, ∀ key ∈ sorting, Value.isSimple (Record.field? row key.field) = true) :
    ∀ first ∈ rows, ∀ second ∈ rows,
      sorting.compareBy Value.sortOrder Record.field? first second =
        sorting.order first second := by
  intro first member second otherMember
  rw [order_eq_compareBy]
  exact compareBy_congr fun key listed => (Value.totalOrder_eq_sortOrder
    (simple first member key listed) (simple second otherMember key listed)).symm

theorem stablySorted_sort_of_simple
    (simple : ∀ row ∈ rows, ∀ key ∈ sorting, Value.isSimple (Record.field? row key.field) = true) :
    StablySorted sorting.order rows (sorting.sort rows) := by
  have agree := compareBy_sortOrder_eq_order simple
  have sorted : stableSort (fun left right =>
      sorting.compareBy Value.sortOrder Record.field? left right == .lt) (rows.map id) =
        (sorting.sort rows).map id := stableSort_map fun first member second otherMember =>
    congrArg (· == .lt) (agree first member second otherMember)
  rw [List.map_id, List.map_id] at sorted
  rw [← sorted]
  exact (stablySorted_stableSort _ rows).congr agree

theorem stablySorted_sort (sortable : sorting.Sortable rows) :
    StablySorted sorting.order rows (sorting.sort rows) :=
  stablySorted_sort_of_simple fun row member key listed =>
    Value.isSimple_of_isSortable (sortable row member key listed)

end

end Sorting

end DataAccess
