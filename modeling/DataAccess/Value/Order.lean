import DataAccess.Json.Printer

/-!
# Comparing values

Stores compare two values only within one kind, and containers only for equality. Sorting needs an
answer for any two values, missing ones included: `totalOrder` first compares kinds by rank.
-/

namespace DataAccess.Value

/-- The order of two comparable values: nulls are equal, false comes before true, numbers compare by
value and strings by code points. Containers are comparable when they are equal. -/
def compare? : Value → Value → Option Ordering
  | .null, .null => some .eq
  | .bool x, .bool y => some (compare x.toNat y.toNat)
  | .number x, .number y => some (x.order y)
  | .string x, .string y => some (compare x y)
  | .sequence xs, .sequence ys => if same (.sequence xs) (.sequence ys) then some .eq else none
  | .map xs, .map ys => if same (.map xs) (.map ys) then some .eq else none
  | _, _ => none

/-- Equality by value: `1` equals `1.0`. -/
def equal (x y : Value) : Bool := compare? x y == some .eq

/-- The place of a kind in sorted results; a missing value stands with the nulls. -/
def rank : Option Value → Nat
  | none => 0
  | some .null => 0
  | some (.number _) => 1
  | some (.string _) => 2
  | some (.map _) => 3
  | some (.sequence _) => 4
  | some (.bool _) => 5

/-- Order for sorting. Containers that are not equal are ordered by their text. -/
def totalOrder (left right : Option Value) : Ordering :=
  match compare (rank left) (rank right), left, right with
  | .eq, some x, some y => (compare? x y).getD (compare x.toJson y.toJson)
  | .eq, _, _ => .eq
  | order, _, _ => order

end DataAccess.Value
