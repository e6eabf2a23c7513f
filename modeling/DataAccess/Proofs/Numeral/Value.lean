import DataAccess.Proofs.Number.Rounding
import DataAccess.Proofs.Numeral

namespace DataAccess.Numeral

/-- The power of ten that is written. -/
def power (n : Numeral) : ℤ :=
  match n.exponent with
  | some (sign, digits) =>
      if sign = some '-' then -(Nat.ofDigitChars 10 digits 0 : ℤ) else Nat.ofDigitChars 10 digits 0
  | none => 0

/-- What is written, but for the sign. -/
def magnitude (n : Numeral) : ℚ :=
  (Nat.ofDigitChars 10 n.whole 0 +
    Nat.ofDigitChars 10 n.fractionDigits 0 / 10 ^ n.fractionDigits.length) * 10 ^ n.power

/-- The rational number that a numeral denotes. -/
def value (n : Numeral) : ℚ := if n.isNegative then -n.magnitude else n.magnitude

variable {n : Numeral} {text digits body : List Char} {mark : Char} {sign : Option Char}

theorem magnitude_eq (n : Numeral) : n.magnitude = n.digits * 10 ^ n.scale := by
  have shifted : n.scale = n.power - n.fractionDigits.length := rfl
  have joined : n.digits = 10 ^ n.fractionDigits.length * Nat.ofDigitChars 10 n.whole 0 +
      Nat.ofDigitChars 10 n.fractionDigits 0 := by
    rw [Numeral.digits, Nat.ofDigitChars_append, Nat.ofDigitChars_eq_ofDigitChars_zero]
  rw [magnitude, shifted, joined, zpow_sub₀ (by norm_num), zpow_natCast]
  push_cast
  field_simp

/-- The integer that the digits and the sign stand for. -/
def integer (n : Numeral) : ℤ := if n.isNegative then -(n.digits : ℤ) else n.digits

theorem value_eq (n : Numeral) : n.value = n.integer * 10 ^ n.scale := by
  rw [value, integer, magnitude_eq]
  split
  · rw [Int.cast_neg, neg_mul, Int.cast_natCast]
  · rw [Int.cast_natCast]

theorem isNearest_of_toBinary64? {x : Binary64} (found : n.toBinary64? = some x) :
    x.IsNearest n.value := by
  rw [toBinary64?] at found
  rw [value, magnitude_eq]
  cases sign : n.isNegative with
  | false =>
      rw [sign] at found
      exact Binary64.isNearest_of_ofDecimal? found
  | true =>
      rw [sign, Binary64.ofDecimal?_true] at found
      obtain ⟨y, read, rfl⟩ := Option.map_eq_some_iff.mp found
      exact (Binary64.isNearest_of_ofDecimal? read).negate

theorem le_of_toBinary64?_eq_none (overflows : n.toBinary64? = none) :
    (powerOfTwo 1023 : ℚ) ≤ |n.value| := by
  have large := Binary64.le_of_ofDecimal?_eq_none overflows
  rw [← magnitude_eq] at large
  have size := large.trans (le_abs_self n.magnitude)
  rw [value]
  split
  · rwa [abs_neg]
  · exact size

theorem toNat?_digits (areDigits : AreDigits digits) :
    Decimal.toNat? digits = some (Nat.ofDigitChars 10 digits 0) := by
  obtain ⟨nonempty, each⟩ := areDigits
  simp [Decimal.toNat?, nonempty, List.all_eq_true.mpr each]

theorem toNat?_of_mem {c : Char} (member : c ∈ body) (other : Decimal.isDigit c = false) :
    Decimal.toNat? body = none := by
  have mixed : body.all Decimal.isDigit = false :=
    List.all_eq_false.mpr ⟨c, member, by simp [other]⟩
  simp [Decimal.toNat?, mixed]

theorem signed?_append (signed : sign = none ∨ sign = some '-' ∨ sign = some '+')
    (unsigned : Unsigned body) : Decimal.signed? (sign.toList ++ body) =
      (Decimal.toNat? body).map fun m : Nat => if sign = some '-' then -(m : ℤ) else m := by
  rcases signed with rfl | rfl | rfl
  · cases body with
    | nil => rfl
    | cons c rest =>
        obtain ⟨notMinus, notPlus⟩ := unsigned c rfl
        simp [Decimal.signed?, Decimal.unsigned?, notMinus, notPlus]
        rfl
  · cases read : Decimal.toNat? body <;> simp [Decimal.signed?, read]
  · rfl

theorem unsigned?_append (signed : sign = none ∨ sign = some '-' ∨ sign = some '+')
    (unsigned : Unsigned body) : Decimal.unsigned? (sign.toList ++ body) =
      if sign = some '-' then none else Decimal.toNat? body := by
  rcases signed with rfl | rfl | rfl
  · cases body with
    | nil => rfl
    | cons c rest =>
        obtain ⟨-, notPlus⟩ := unsigned c rfl
        simp [Decimal.unsigned?, notPlus]
  · exact toNat?_of_mem List.mem_cons_self rfl
  · rfl

theorem toNat?_body (well : n.WellSpelled) (marks : mark = 'e' ∨ mark = 'E') :
    Decimal.toNat? (n.whole ++ (fractionText n.fraction ++ markedExponent mark n.exponent)) =
      if n.isInteger then some n.digits else none := by
  have other : Decimal.isDigit mark = false := by rcases marks with rfl | rfl <;> rfl
  cases fraction : n.fraction with
  | some digits =>
      have integer : n.isInteger = false := by simp [isInteger, fraction]
      rw [integer]
      exact toNat?_of_mem (c := '.') (by simp [fractionText]) rfl
  | none =>
      cases exponent : n.exponent with
      | some marked =>
          have integer : n.isInteger = false := by simp [isInteger, exponent]
          rw [integer]
          exact toNat?_of_mem (c := mark) (by simp [markedExponent]) other
      | none =>
          have integer : n.isInteger = true := by simp [isInteger, fraction, exponent]
          have nonempty : n.whole ≠ [] := by simpa [fractionDigits, fraction] using well.nonempty
          have read := toNat?_digits ⟨nonempty, well.whole⟩
          simpa [integer, Numeral.digits, fractionDigits, fraction, fractionText,
            markedExponent] using read

theorem value_of_isInteger (integral : n.isInteger = true) : n.value = n.integer := by
  obtain ⟨fraction, exponent⟩ : n.fraction = none ∧ n.exponent = none := by
    simpa [isInteger] using integral
  have unscaled : n.scale = 0 := by simp [scale, fractionDigits, fraction, exponent]
  rw [value_eq, unscaled, zpow_zero, mul_one]

theorem Spells.signed? (spells : n.Spells text) :
    Decimal.signed? text = if n.isInteger then some n.integer else none := by
  obtain ⟨mark, marks, rfl⟩ := spells.spelling
  have well := spells.wellSpelled
  rw [spelled, signed?_append well.sign (unsigned_body well mark), toNat?_body well marks]
  cases n.isInteger with
  | false => rfl
  | true =>
      simp [integer, isNegative]

theorem Spells.unsigned? (spells : n.Spells text) :
    Decimal.unsigned? text = if n.isInteger ∧ n.isNegative = false then some n.digits else none := by
  obtain ⟨mark, marks, rfl⟩ := spells.spelling
  have well := spells.wellSpelled
  rw [spelled, unsigned?_append well.sign (unsigned_body well mark), toNat?_body well marks]
  by_cases minus : n.sign = some '-' <;> simp [isNegative, minus]

end DataAccess.Numeral
