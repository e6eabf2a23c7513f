import DataAccess.Dict
import DataAccess.Number

/-!
# Values

The values of attributes, columns and documents: JSON values whose maps keep the order of their
keys. Equality `=` is identity, order of keys included; `Value.same` is the equality that stores
use, which ignores that order.
-/

namespace DataAccess

inductive Value
  | null
  | bool (b : Bool)
  | number (n : Number)
  | string (s : String)
  | sequence (items : List Value)
  | map (fields : List (String × Value))

/-- A map of values: a document, a row, an item, or the root of a business object. -/
abbrev Record := Dict Value

namespace Value

instance : Inhabited Value := ⟨.null⟩

mutual

def identical : Value → Value → Bool
  | .null, .null => true
  | .bool a, .bool b => a == b
  | .number a, .number b => decide (a = b)
  | .string a, .string b => a == b
  | .sequence xs, .sequence ys => identicalItems xs ys
  | .map xs, .map ys => identicalFields xs ys
  | _, _ => false

def identicalItems : List Value → List Value → Bool
  | [], [] => true
  | x :: xs, y :: ys => identical x y && identicalItems xs ys
  | _, _ => false

def identicalFields : List (String × Value) → List (String × Value) → Bool
  | [], [] => true
  | (k, x) :: xs, (l, y) :: ys => k == l && identical x y && identicalFields xs ys
  | _, _ => false

end

mutual

theorem identical_iff : (x y : Value) → identical x y = true ↔ x = y
  | .null, y => by cases y <;> simp [identical]
  | .bool _, y => by cases y <;> simp [identical]
  | .number _, y => by cases y <;> simp [identical]
  | .string _, y => by cases y <;> simp [identical]
  | .sequence xs, y => by
      cases y with
      | sequence ys => simp [identical, identicalItems_iff xs ys]
      | _ => simp [identical]
  | .map xs, y => by
      cases y with
      | map ys => simp [identical, identicalFields_iff xs ys]
      | _ => simp [identical]

theorem identicalItems_iff : (xs ys : List Value) → identicalItems xs ys = true ↔ xs = ys
  | [], ys => by cases ys <;> simp [identicalItems]
  | x :: xs, ys => by
      cases ys with
      | nil => simp [identicalItems]
      | cons y ys => simp [identicalItems, identical_iff x y, identicalItems_iff xs ys]

theorem identicalFields_iff :
    (xs ys : List (String × Value)) → identicalFields xs ys = true ↔ xs = ys
  | [], ys => by cases ys <;> simp [identicalFields]
  | (k, x) :: xs, ys => by
      cases ys with
      | nil => simp [identicalFields]
      | cons y ys =>
          obtain ⟨l, y⟩ := y
          simp [identicalFields, identical_iff x y, identicalFields_iff xs ys]

end

instance : DecidableEq Value := fun x y => decidable_of_iff _ (identical_iff x y)

inductive Kind
  | null | bool | number | string | sequence | map
deriving DecidableEq

def Kind.name : Kind → String
  | .null => "null"
  | .bool => "bool"
  | .number => "number"
  | .string => "string"
  | .sequence => "sequence"
  | .map => "map"

def kind : Value → Kind
  | .null => .null
  | .bool _ => .bool
  | .number _ => .number
  | .string _ => .string
  | .sequence _ => .sequence
  | .map _ => .map

def isNull : Value → Bool
  | .null => true
  | _ => false

mutual

/-- How many containers are nested in one another. -/
def depth : Value → Nat
  | .sequence items => depthItems items + 1
  | .map fields => depthFields fields + 1
  | _ => 0

def depthItems : List Value → Nat
  | [] => 0
  | item :: items => max (depth item) (depthItems items)

def depthFields : List (String × Value) → Nat
  | [] => 0
  | (_, value) :: fields => max (depth value) (depthFields fields)

end

mutual

/-- Every map in the value has distinct keys. -/
def WellFormed : Value → Prop
  | .sequence items => WellFormedItems items
  | .map fields => Dict.Distinct fields ∧ WellFormedFields fields
  | _ => True

def WellFormedItems : List Value → Prop
  | [] => True
  | item :: items => WellFormed item ∧ WellFormedItems items

def WellFormedFields : List (String × Value) → Prop
  | [] => True
  | (_, value) :: fields => WellFormed value ∧ WellFormedFields fields

end

mutual

/-- Equality of content: maps are equal when they have equally many entries and each entry of the
one has an equal value in the other, in whatever order. -/
def same : Value → Value → Bool
  | .null, .null => true
  | .bool a, .bool b => a == b
  | .number a, .number b => a.same b
  | .string a, .string b => a == b
  | .sequence xs, .sequence ys => sameItems xs ys
  | .map xs, .map ys => xs.length == ys.length && sameFields xs ys
  | _, _ => false

def sameItems : List Value → List Value → Bool
  | [], [] => true
  | x :: xs, y :: ys => same x y && sameItems xs ys
  | _, _ => false

/-- Each entry of the first list has an equal value in the second. -/
def sameFields : List (String × Value) → Record → Bool
  | [], _ => true
  | (key, x) :: xs, ys =>
      (match Dict.get? ys key with
        | some y => same x y
        | none => false) && sameFields xs ys

end

/-- Integers within the range of 64-bit words. -/
def ofInt? (i : Int) : Option Value := (WideInt.ofInt? i).map fun wide => .number (.int wide)

/-- A natural number below `2^64`. -/
def ofNat (n : Nat) (small : n < 18446744073709551616) : Value :=
  .number (.int ⟨n, by omega, by omega⟩)

end Value

end DataAccess
