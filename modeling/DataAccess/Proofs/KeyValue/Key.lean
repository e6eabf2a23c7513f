import DataAccess.KeyValue.Store
import DataAccess.Proofs.Decimal
import DataAccess.Proofs.Except
import DataAccess.Proofs.Json.Token
import DataAccess.Proofs.Value
import Mathlib.Data.Option.Basic

namespace DataAccess

namespace Value

theorem ofInt_ne_quote (i : Int) (s : String) : Decimal.ofInt i ≠ Json.quote s := by
  intro same
  cases i with
  | ofNat n =>
      have digit := Decimal.isDigit_of_ofNat_eq_cons same
      revert digit
      decide
  | negSucc n =>
      have first : '-' = '"' := (List.cons.inj same).1
      revert first
      decide

/-- Among strings and integers, the JSON text tells which value it is. -/
theorem eq_of_toJson_eq {x y : Value} (key : x.isKey = true) (otherKey : y.isKey = true)
    (same : x.toJson = y.toJson) : x = y := by
  have written : Json.write x = Json.write y := String.ofList_injective same
  rcases isKey_cases key with ⟨s, rfl⟩ | ⟨⟨i, _, _⟩, rfl⟩
  · rcases isKey_cases otherKey with ⟨t, rfl⟩ | ⟨⟨j, _, _⟩, rfl⟩
    · rw [toJson_string_injective same]
    · exact (ofInt_ne_quote j s written.symm).elim
  · rcases isKey_cases otherKey with ⟨t, rfl⟩ | ⟨⟨j, _, _⟩, rfl⟩
    · exact (ofInt_ne_quote i t written).elim
    · obtain rfl : i = j := Decimal.ofInt_injective written
      rfl

theorem map_toJson_inj {left right : List Value} (keys : ∀ x ∈ left, x.isKey = true)
    (otherKeys : ∀ x ∈ right, x.isKey = true) (same : left.map toJson = right.map toJson) :
    left = right := by
  induction left generalizing right with
  | nil => exact (List.map_eq_nil_iff.mp same.symm).symm
  | cons x rest ih =>
      cases right with
      | nil => cases same
      | cons y others =>
          obtain ⟨first, remaining⟩ := List.cons.inj same
          rw [eq_of_toJson_eq (keys x List.mem_cons_self) (otherKeys y List.mem_cons_self) first,
            ih (fun x later => keys x (List.mem_cons_of_mem _ later))
              (fun y later => otherKeys y (List.mem_cons_of_mem _ later)) remaining]

end Value

namespace KeyValue

/-- The key attributes of an item have these values. -/
def TableSpec.HasKey (spec : TableSpec) (item : Record) (values : List Value) : Prop :=
  spec.keyAttributes.map (Dict.get? item) = values.map some

instance (spec : TableSpec) (item : Record) (values : List Value) :
    Decidable (spec.HasKey item values) :=
  inferInstanceAs (Decidable (_ = _))

variable {spec : TableSpec} {table : String} {item : Record} {values others : List Value}
variable {key : Key}

theorem TableSpec.HasKey.unique (hasKey : spec.HasKey item values)
    (hasOther : spec.HasKey item others) : others = values :=
  List.map_injective_iff.mpr (Option.some_injective _) (hasOther.symm.trans hasKey)

theorem attributeText_eq {name : String} {value : Value} (found : Dict.get? item name = some value)
    (good : value.isKey = true) : attributeText table name item = .ok value.toJson := by
  rcases Value.isKey_cases good with ⟨s, rfl⟩ | ⟨n, rfl⟩
  · simp only [attributeText, found]
  · simp only [attributeText, found]
    rfl

theorem keyText_eq_ok : keyText spec table item = .ok key ↔
    spec.keyAttributes.map (attributeText table · item) = key.map .ok := by
  rw [← mapM_eq_ok, keyText]
  cases spec.keyAttributes.mapM (attributeText table · item) <;> simp

theorem keyText_of_hasKey (hasKey : spec.HasKey item values)
    (good : ∀ value ∈ values, value.isKey = true) :
    keyText spec table item = .ok (values.map Value.toJson) := by
  rw [keyText_eq_ok]
  simp only [TableSpec.HasKey] at hasKey
  generalize spec.keyAttributes = names at hasKey ⊢
  induction names generalizing values with
  | nil =>
      cases values with
      | nil => rfl
      | cons => cases hasKey
  | cons name rest ih =>
      cases values with
      | nil => cases hasKey
      | cons value others =>
          obtain ⟨found, remaining⟩ := List.cons.inj hasKey
          simp only [List.map_cons, attributeText_eq found (good value List.mem_cons_self),
            ih (fun other later => good other (List.mem_cons_of_mem _ later)) remaining]

theorem exists_hasKey (placed : keyText spec table item = .ok key) :
    ∃ values, spec.HasKey item values := by
  rw [keyText_eq_ok] at placed
  simp only [TableSpec.HasKey]
  generalize spec.keyAttributes = names at placed ⊢
  induction names generalizing key with
  | nil => exact ⟨[], rfl⟩
  | cons name rest ih =>
      cases key with
      | nil => cases placed
      | cons text texts =>
          obtain ⟨ofFirst, ofRest⟩ := List.cons.inj placed
          obtain ⟨values, remaining⟩ := ih ofRest
          cases found : Dict.get? item name with
          | none => simp [attributeText, found] at ofFirst
          | some value => exact ⟨value :: values, by simp [found, remaining]⟩

/-- The key attributes hold strings or integers, as far as they are there. -/
def TableSpec.GoodKey (spec : TableSpec) (item : Record) : Prop :=
  ∀ name ∈ spec.keyAttributes, ∀ value, Dict.get? item name = some value → value.isKey = true

theorem TableSpec.HasKey.good (hasKey : spec.HasKey item values) (good : spec.GoodKey item) :
    ∀ value ∈ values, value.isKey = true := by
  intro value member
  have listed : some value ∈ spec.keyAttributes.map (Dict.get? item) :=
    hasKey ▸ List.mem_map_of_mem member
  obtain ⟨name, atName, found⟩ := List.mem_map.mp listed
  exact good name atName value found

/-- A good key leads to no other items than those with its values. -/
theorem texts_eq_iff (placed : keyText spec table item = .ok key) (good : spec.GoodKey item)
    (goodValues : ∀ value ∈ values, value.isKey = true) :
    values.map Value.toJson = key ↔ spec.HasKey item values := by
  obtain ⟨own, hasKey⟩ := exists_hasKey placed
  have goodOwn := hasKey.good good
  obtain rfl : own.map Value.toJson = key :=
    Except.ok.inj ((keyText_of_hasKey hasKey goodOwn).symm.trans placed)
  constructor
  · intro same
    rw [Value.map_toJson_inj goodValues goodOwn same]
    exact hasKey
  · intro shared
    rw [hasKey.unique shared]

end KeyValue

end DataAccess
