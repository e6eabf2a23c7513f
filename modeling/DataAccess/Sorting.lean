import DataAccess.Value.Field
import DataAccess.Value.Order

namespace DataAccess

/-- A field to sort by, from the smallest to the largest value or the other way round. -/
structure SortKey where
  field : String
  descending : Bool
deriving DecidableEq

abbrev Sorting := List SortKey

/-- Puts an item in front of the longest tail that holds only greater ones. -/
def insertSorted {α : Type} (precedes : α → α → Bool) (item : α) : List α → List α
  | [] => [item]
  | first :: rest =>
      if (first :: rest).all (precedes item) then item :: first :: rest
      else first :: insertSorted precedes item rest

/-- Sorts items one after the other; equal ones keep their order. -/
def stableSort {α : Type} (precedes : α → α → Bool) (items : List α) : List α :=
  items.foldl (fun sorted item => insertSorted precedes item sorted) []

theorem mem_insertSorted {α : Type} {precedes : α → α → Bool} {item other : α} {items : List α} :
    other ∈ insertSorted precedes item items ↔ other = item ∨ other ∈ items := by
  induction items with
  | nil => simp [insertSorted]
  | cons first rest ih =>
      rw [insertSorted]
      split
      · simp
      · simp only [List.mem_cons, ih]
        exact or_left_comm

theorem mem_stableSort {α : Type} {precedes : α → α → Bool} {item : α} {items : List α} :
    item ∈ stableSort precedes items ↔ item ∈ items := by
  have placed (sorted : List α) :
      item ∈ items.foldl (fun sorted item => insertSorted precedes item sorted) sorted ↔
        item ∈ sorted ∨ item ∈ items := by
    induction items generalizing sorted with
    | nil => simp
    | cons first rest ih =>
        rw [List.foldl_cons, ih, mem_insertSorted, List.mem_cons, or_assoc]
        exact or_left_comm
  exact (placed []).trans (by simp)

namespace SortKey

def order (key : SortKey) (left right : Record) : Ordering :=
  let ascending :=
    Value.totalOrder (Record.field? left key.field) (Record.field? right key.field)
  if key.descending then ascending.swap else ascending

end SortKey

namespace Sorting

/-- The order by the first key on which two records differ. -/
def order : Sorting → Record → Record → Ordering
  | [], _, _ => .eq
  | key :: rest, left, right => (key.order left right).then (order rest left right)

def sort (sorting : Sorting) (records : List Record) : List Record :=
  stableSort (fun left right => sorting.order left right == .lt) records

end Sorting

/-- What remains of a list without its first `offset` items and cut to `limit` items, where 0 sets
no limit. -/
def page {α : Type} (items : List α) (offset limit : Nat) : List α :=
  if limit = 0 then items.drop offset else (items.drop offset).take limit

end DataAccess
