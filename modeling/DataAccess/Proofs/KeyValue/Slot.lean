import DataAccess.Proofs.KeyValue.Key
import DataAccess.Proofs.Number.Layout

namespace DataAccess

/-- An integer, and a float that is too large to be written as one. -/
def Number.Parted : Number → Number → Prop
  | .int _, .float x => KeyValue.integerTextLimit ≤ x.truncate.natAbs
  | .float x, .int _ => KeyValue.integerTextLimit ≤ x.truncate.natAbs
  | _, _ => False

def Value.Parted : Value → Value → Prop
  | .number m, .number n => m.Parted n
  | _, _ => False

/-- The values that a key can be made of. -/
def Value.isScalar : Value → Bool
  | .string _ => true
  | .number _ => true
  | _ => false

theorem Value.isScalar_of_isKey {value : Value} (key : value.isKey = true) :
    value.isScalar = true := by
  rcases isKey_cases key with ⟨_, rfl⟩ | ⟨_, rfl⟩ <;> rfl

namespace KeyValue

variable {x y : Binary64} {i : WideInt}

def IsWhole (x : Binary64) : Prop :=
  x.isIntegral = true ∧ x.truncate.natAbs < integerTextLimit

instance (x : Binary64) : Decidable (IsWhole x) := inferInstanceAs (Decidable (_ ∧ _))

theorem numberText_whole (whole : IsWhole x) :
    numberText (.float x) = Decimal.ofInt x.truncate := by
  simp only [numberText, whole.1, whole.2, decide_true, Bool.and_self, ↓reduceIte]

theorem numberText_rest (rest : ¬IsWhole x) : numberText (.float x) = x.text := by
  unfold IsWhole at rest
  simp only [numberText, Bool.and_eq_true, decide_eq_true_eq, rest, ↓reduceIte]

theorem units_ne_zero (rest : ¬IsWhole x) : x.units ≠ 0 := by
  intro zero
  refine rest ⟨?_, ?_⟩
  · rw [Binary64.isIntegral, zero, Nat.zero_mod]
    rfl
  · rw [Binary64.natAbs_truncate, zero, Nat.zero_div]
    decide

theorem isWhole_congr (same : x.signedUnits = y.signedUnits) : IsWhole x ↔ IsWhole y := by
  simp only [IsWhole, Binary64.isIntegral, Binary64.natAbs_truncate,
    Binary64.units_of_signedUnits same]

theorem text_ne_ofInt (rest : ¬IsWhole x) (i : Int) : x.text ≠ Decimal.ofInt i := by
  have plain := Decimal.marks_not_mem_ofInt i
  intro same
  rw [← same] at plain
  exact (Binary64.text_marked (units_ne_zero rest)).elim plain.1 plain.2

theorem numberText_ne_quote (n : Number) (s : String) : numberText n ≠ Json.quote s := by
  cases n with
  | int i => exact Value.ofInt_ne_quote i.val s
  | float x =>
      by_cases whole : IsWhole x
      · rw [numberText_whole whole]
        exact Value.ofInt_ne_quote x.truncate s
      · obtain ⟨first, _, begins, signOrDigit⟩ := Binary64.text_begins (units_ne_zero whole)
        rw [numberText_rest whole, begins]
        intro same
        rw [(List.cons.inj same).1] at signOrDigit
        exact absurd signOrDigit (by decide)

theorem numberText_floats :
    numberText (.float x) = numberText (.float y) ↔ x.signedUnits = y.signedUnits := by
  by_cases first : IsWhole x <;> by_cases second : IsWhole y
  · rw [numberText_whole first, numberText_whole second,
      Decimal.ofInt_injective.eq_iff, Binary64.signedUnits_of_integral first.1,
      Binary64.signedUnits_of_integral second.1]
    have positive := Binary64.unitsOfOne_pos
    exact (Int.mul_eq_mul_right_iff (by omega)).symm
  · rw [numberText_whole first, numberText_rest second]
    exact iff_of_false (text_ne_ofInt second _).symm fun same =>
      second ((isWhole_congr same).mp first)
  · rw [numberText_rest first, numberText_whole second]
    exact iff_of_false (text_ne_ofInt first _) fun same =>
      first ((isWhole_congr same).mpr second)
  · rw [numberText_rest first, numberText_rest second]
    constructor
    · intro same
      rw [Binary64.text_injective (units_ne_zero first) (units_ne_zero second) same]
    · intro same
      rw [Binary64.eq_of_signedUnits (units_ne_zero first) same]

/-- An integer rounds to an integral float, so it equals no other. -/
theorem numberText_int_float : numberText (.int i) = numberText (.float x) ↔
    i.toBinary64.signedUnits = x.signedUnits ∧ x.truncate.natAbs < integerTextLimit := by
  have word : integerTextLimit < powerOfTwo 53 := by decide
  by_cases whole : IsWhole x
  · rw [numberText_whole whole, Binary64.signedUnits_of_integral whole.1, numberText,
      Decimal.ofInt_injective.eq_iff, and_iff_left whole.2]
    have small : x.truncate.natAbs < powerOfTwo 53 := Nat.lt_trans whole.2 word
    constructor
    · intro same
      rw [← same, WideInt.signedUnits_toBinary64 (by omega)]
    · exact WideInt.val_eq_of_signedUnits small
  · rw [numberText_rest whole]
    refine iff_of_false (text_ne_ofInt whole _).symm ?_
    rintro ⟨same, small⟩
    refine whole ⟨?_, small⟩
    rw [Binary64.isIntegral_iff, ← Binary64.units_of_signedUnits same]
    exact Binary64.isIntegral_iff.mp (WideInt.isIntegral_toBinary64 i)

theorem numberText_eq_iff (m n : Number) :
    numberText m = numberText n ↔ m.order n = .eq ∧ ¬m.Parted n := by
  cases m with
  | int i =>
      cases n with
      | int j =>
          simp only [numberText, Decimal.ofInt_injective.eq_iff, Number.order, Number.Parted,
            not_false_eq_true, and_true]
          exact Int.compare_eq_eq.symm
      | float x =>
          rw [numberText_int_float, Number.Parted, Nat.not_le]
          exact and_congr_left fun _ => Binary64.order_eq_iff.symm
  | float x =>
      cases n with
      | int j =>
          rw [eq_comm, numberText_int_float, Number.Parted, Nat.not_le, eq_comm]
          exact and_congr_left fun _ => Binary64.order_eq_iff.symm
      | float y =>
          have together : ¬(Number.float x).Parted (.float y) := id
          rw [numberText_floats, and_iff_left together]
          exact Binary64.order_eq_iff.symm

/-- The text of a value in a key. -/
def slotText : Value → String
  | .string s => (Value.string s).toJson
  | .number n => String.ofList (numberText n)
  | _ => ""

theorem slotText_eq_iff {u v : Value} (scalar : u.isScalar = true)
    (otherScalar : v.isScalar = true) :
    slotText u = slotText v ↔ u.equal v = true ∧ ¬u.Parted v := by
  have mixed (s : String) (n : Number) : (Value.string s).toJson ≠ String.ofList (numberText n) :=
    fun same => numberText_ne_quote n s (String.ofList_injective same).symm
  cases u with
  | string s =>
      cases v with
      | string t =>
          have together : ¬(Value.string s).Parted (.string t) := id
          rw [and_iff_left together, Value.equal_string, beq_iff_eq]
          exact ⟨Value.toJson_string_injective, fun same => same ▸ rfl⟩
      | number n => exact iff_of_false (mixed s n) fun equal => nomatch equal.1
      | _ => cases otherScalar
  | number m =>
      cases v with
      | string t => exact iff_of_false (mixed t m).symm fun equal => nomatch equal.1
      | number n =>
          have equal : (Value.number m).equal (.number n) = true ↔ m.order n = .eq := by
            simp [Value.equal, Value.compare?]
          rw [equal]
          refine Iff.trans ?_ (numberText_eq_iff m n)
          exact ⟨fun same => String.ofList_injective same, congrArg String.ofList⟩
      | _ => cases otherScalar
  | _ => cases scalar

variable {spec : TableSpec} {table : String} {item other : Record}

theorem attributeText_eq_slotText {name : String} {value : Value}
    (found : Dict.get? item name = some value) (scalar : value.isScalar = true) :
    attributeText table name item = .ok (slotText value) := by
  cases value with
  | string s => simp only [attributeText, found, slotText]
  | number n => simp only [attributeText, found, slotText]
  | _ => cases scalar

/-- The key attributes are there and hold strings or numbers. -/
def TableSpec.Scalar (spec : TableSpec) (item : Record) : Prop :=
  ∀ name ∈ spec.keyAttributes, ∃ value, Dict.get? item name = some value ∧ value.isScalar = true

def slot (spec : TableSpec) (item : Record) : Key :=
  spec.keyAttributes.map fun name => slotText ((Dict.get? item name).getD .null)

theorem keyText_of_scalar (scalar : spec.Scalar item) :
    keyText spec table item = .ok (slot spec item) := by
  rw [keyText_eq_ok, slot, List.map_map]
  refine List.map_congr_left fun name member => ?_
  obtain ⟨value, found, isScalar⟩ := scalar name member
  rw [attributeText_eq_slotText found isScalar, Function.comp_apply, found, Option.getD_some]

/-- Items share a key just when their key attributes hold equal values, apart from integers and
floats at or beyond the limit. -/
theorem keyText_shared_iff (scalar : spec.Scalar item) (otherScalar : spec.Scalar other) :
    ∃ key otherKey, keyText spec table item = .ok key ∧ keyText spec table other = .ok otherKey ∧
      (key = otherKey ↔ ∀ name ∈ spec.keyAttributes, ∀ x y, Dict.get? item name = some x →
        Dict.get? other name = some y → x.equal y = true ∧ ¬x.Parted y) := by
  refine ⟨_, _, keyText_of_scalar scalar, keyText_of_scalar otherScalar, ?_⟩
  rw [slot, slot, List.map_inj_left]
  refine forall₂_congr fun name member => ?_
  obtain ⟨u, found, isScalar⟩ := scalar name member
  obtain ⟨v, otherFound, otherIsScalar⟩ := otherScalar name member
  rw [found, otherFound, Option.getD_some, Option.getD_some,
    slotText_eq_iff isScalar otherIsScalar]
  constructor
  · rintro shared x y ⟨⟩ ⟨⟩
    exact shared
  · intro shared
    exact shared u v rfl rfl

def numbered : TableSpec := { partitionKey := "id" }

def numberItem (n : Number) : Record := [("id", .number n)]

theorem scalar_numberItem (n : Number) : numbered.Scalar (numberItem n) := by
  intro name member
  cases List.mem_singleton.mp member
  exact ⟨_, rfl, rfl⟩

theorem equal_toBinary64 (n : WideInt) :
    (Value.number (.int n)).equal (.number (.float n.toBinary64)) = true := by
  have alike : (Number.int n).order (.float n.toBinary64) = .eq := Binary64.order_eq_iff.mpr rfl
  simp [Value.equal, Value.compare?, alike]

theorem one_shares_key_with_float :
    ∃ key, keyText numbered "t" (numberItem (.int .one)) = .ok key ∧
      keyText numbered "t" (numberItem (.float WideInt.one.toBinary64)) = .ok key := by
  obtain ⟨key, otherKey, text, otherText, shared⟩ :=
    @keyText_shared_iff numbered "t" _ _ (scalar_numberItem (.int .one))
      (scalar_numberItem (.float WideInt.one.toBinary64))
  have small : ¬integerTextLimit ≤ WideInt.one.toBinary64.truncate.natAbs := by
    rw [WideInt.natAbs_truncate_toBinary64 (by decide)]
    decide
  have same : key = otherKey := by
    refine shared.mpr fun name member x y atX atY => ?_
    cases List.mem_singleton.mp member
    cases atX
    cases atY
    exact ⟨equal_toBinary64 .one, small⟩
  exact ⟨key, text, same ▸ otherText⟩

def nineQuadrillion : WideInt := ⟨9000000000000000, by decide, by decide⟩

theorem nine_quadrillion_is_two_keys :
    (Value.number (.int nineQuadrillion)).equal (.number (.float nineQuadrillion.toBinary64)) =
        true ∧
      ∃ key otherKey, keyText numbered "t" (numberItem (.int nineQuadrillion)) = .ok key ∧
        keyText numbered "t" (numberItem (.float nineQuadrillion.toBinary64)) = .ok otherKey ∧
        key ≠ otherKey := by
  refine ⟨equal_toBinary64 _, _, _, keyText_of_scalar (scalar_numberItem _),
    keyText_of_scalar (scalar_numberItem _), fun same => ?_⟩
  have parted : integerTextLimit ≤ nineQuadrillion.toBinary64.truncate.natAbs := by
    rw [WideInt.natAbs_truncate_toBinary64 (by decide)]
    decide
  have texts : slotText (.number (.int nineQuadrillion)) =
      slotText (.number (.float nineQuadrillion.toBinary64)) := List.singleton_inj.mp same
  exact ((slotText_eq_iff rfl rfl).mp texts).2 parted

end KeyValue

end DataAccess
