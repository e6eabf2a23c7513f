/-!
# Finite binary64 numbers

A finite binary64 number is a sign and a magnitude counted in units of `2^-1074`, the least positive
magnitude. A count of units is representable when it has at most 53 significant bits and lies below
`2^2098`. Equality of the data therefore tells the two zeros apart, and every comparison of numbers
is a comparison of integers.

`nearest` rounds a quotient to a representable count, ties going to the even one;
`nearest_significant` says that it has no more than 53 significant bits.
-/

namespace DataAccess

/-- A power of two, kept folded in proofs. -/
def powerOfTwo (exponent : Nat) : Nat := Nat.pow 2 exponent

def powerOfTen (exponent : Nat) : Nat := Nat.pow 10 exponent

theorem powerOfTwo_pos (exponent : Nat) : 0 < powerOfTwo exponent := Nat.two_pow_pos exponent

theorem powerOfTwo_mono {low high : Nat} (ordered : low ≤ high) :
    powerOfTwo low ≤ powerOfTwo high :=
  Nat.pow_le_pow_right (by decide) ordered

theorem powerOfTwo_add (left right : Nat) :
    powerOfTwo (left + right) = powerOfTwo left * powerOfTwo right :=
  Nat.pow_add 2 left right

theorem powerOfTwo_dvd {low high : Nat} (ordered : low ≤ high) :
    powerOfTwo low ∣ powerOfTwo high :=
  Nat.pow_dvd_pow 2 ordered

theorem log2_powerOfTwo (exponent : Nat) : (powerOfTwo exponent).log2 = exponent :=
  Nat.log2_two_pow

theorem log2_lt_iff {n exponent : Nat} (nonzero : n ≠ 0) :
    n.log2 < exponent ↔ n < powerOfTwo exponent :=
  Nat.log2_lt nonzero

theorem lt_powerOfTwo_log2 (n : Nat) : n < powerOfTwo (n.log2 + 1) := Nat.lt_log2_self

theorem powerOfTwo_succ (exponent : Nat) :
    powerOfTwo (exponent + 1) = powerOfTwo exponent + powerOfTwo exponent := by
  rw [powerOfTwo_add]
  exact Nat.mul_two _

theorem mul_powerOfTwo_lt {factor : Nat} (exponent shift : Nat)
    (below : factor < powerOfTwo exponent) :
    factor * powerOfTwo shift < powerOfTwo (exponent + shift) := by
  rw [powerOfTwo_add]
  exact Nat.mul_lt_mul_of_pos_right below (powerOfTwo_pos shift)

theorem powerOfTen_pos (exponent : Nat) : 0 < powerOfTen exponent := Nat.pow_pos (by decide)

theorem powerOfTen_mono {low high : Nat} (ordered : low ≤ high) :
    powerOfTen low ≤ powerOfTen high :=
  Nat.pow_le_pow_right (by decide) ordered

theorem powerOfTen_add (left right : Nat) :
    powerOfTen (left + right) = powerOfTen left * powerOfTen right :=
  Nat.pow_add 10 left right

theorem powerOfTen_succ (exponent : Nat) : powerOfTen (exponent + 1) = 10 * powerOfTen exponent :=
  Nat.pow_succ'

/-- The first count of units beyond the finite numbers. -/
def Binary64.limit : Nat := powerOfTwo 2098

/-- The counts of units that 53 significant bits can write. -/
def Binary64.Significant (units : Nat) : Prop :=
  powerOfTwo (units.log2 - 52) ∣ units

/-- The counts of units that a finite number can have. -/
def Binary64.Representable (units : Nat) : Prop :=
  units < Binary64.limit ∧ Binary64.Significant units

instance (units : Nat) : Decidable (Binary64.Significant units) :=
  inferInstanceAs (Decidable (powerOfTwo (units.log2 - 52) ∣ units))

instance (units : Nat) : Decidable (Binary64.Representable units) :=
  inferInstanceAs (Decidable (units < Binary64.limit ∧ Binary64.Significant units))

/-- A finite binary64 number, `units · 2^-1074` with a sign. -/
structure Binary64 where
  negative : Bool
  units : Nat
  representable : Binary64.Representable units
deriving DecidableEq

namespace Binary64

def zero (negative : Bool) : Binary64 :=
  ⟨negative, 0, powerOfTwo_pos 2098, Nat.dvd_zero _⟩

instance : Inhabited Binary64 := ⟨zero false⟩

/-- The signed count of units; the two zeros have the same one. -/
def signedUnits (x : Binary64) : Int :=
  if x.negative then -(x.units : Int) else x.units

/-- Numeric order; the two zeros are equal. -/
def order (x y : Binary64) : Ordering :=
  compare x.signedUnits y.signedUnits

def unitsOfOne : Nat := powerOfTwo 1074

def isIntegral (x : Binary64) : Bool :=
  x.units % unitsOfOne == 0

/-- The integer part, cut toward zero. -/
def truncate (x : Binary64) : Int :=
  let whole : Int := (x.units / unitsOfOne : Nat)
  if x.negative then -whole else whole

/-- The natural number nearest to `numerator / denominator`; of two equally near, the even one. -/
def divideToEven (numerator denominator : Nat) : Nat :=
  let quotient := numerator / denominator
  let rest := 2 * (numerator % denominator)
  if rest < denominator then quotient
  else if denominator < rest then quotient + 1
  else if quotient % 2 = 0 then quotient
  else quotient + 1

/-- The count of units with at most 53 significant bits that is nearest to
`numerator / denominator`. The step between such counts at that magnitude is `2^shift`. -/
def nearest (numerator denominator : Nat) : Nat :=
  let shift := (numerator / denominator).log2 - 52
  divideToEven numerator (denominator * powerOfTwo shift) * powerOfTwo shift

theorem divideToEven_le (numerator denominator : Nat) :
    divideToEven numerator denominator ≤ numerator / denominator + 1 := by
  unfold divideToEven
  simp only
  split
  · omega
  · split
    · omega
    · split <;> omega

theorem significant_of_factor {factor shift : Nat} (bounded : factor ≤ powerOfTwo 53) :
    Significant (factor * powerOfTwo shift) := by
  unfold Significant
  by_cases zero : factor = 0
  · simp [zero]
  by_cases top : factor = powerOfTwo 53
  · subst factor
    rw [← powerOfTwo_add, log2_powerOfTwo]
    exact powerOfTwo_dvd (by omega)
  have nonzero : factor * powerOfTwo shift ≠ 0 :=
    Nat.mul_ne_zero zero (Nat.ne_of_gt (powerOfTwo_pos shift))
  have below : factor * powerOfTwo shift < powerOfTwo (53 + shift) :=
    mul_powerOfTwo_lt 53 shift (by omega)
  have log : (factor * powerOfTwo shift).log2 < 53 + shift := (log2_lt_iff nonzero).mpr below
  exact Nat.dvd_trans (powerOfTwo_dvd (by omega)) (Nat.dvd_mul_left _ _)

theorem quotient_lt_of_log2 (numerator denominator : Nat) :
    numerator / (denominator * powerOfTwo ((numerator / denominator).log2 - 52)) <
      powerOfTwo 53 := by
  rw [← Nat.div_div_eq_div_mul, Nat.div_lt_iff_lt_mul (powerOfTwo_pos _), ← powerOfTwo_add]
  exact Nat.lt_of_lt_of_le (lt_powerOfTwo_log2 _) (powerOfTwo_mono (by omega))

theorem nearest_significant (numerator denominator : Nat) :
    Significant (nearest numerator denominator) := by
  unfold nearest
  apply significant_of_factor
  have near := divideToEven_le numerator
    (denominator * powerOfTwo ((numerator / denominator).log2 - 52))
  have small := quotient_lt_of_log2 numerator denominator
  omega

theorem nearest_le (numerator denominator : Nat) :
    nearest numerator denominator ≤
      numerator / denominator + powerOfTwo ((numerator / denominator).log2 - 52) := by
  unfold nearest
  simp only
  have near := divideToEven_le numerator
    (denominator * powerOfTwo ((numerator / denominator).log2 - 52))
  refine Nat.le_trans (Nat.mul_le_mul_right _ near) ?_
  rw [Nat.add_mul, Nat.one_mul, ← Nat.div_div_eq_div_mul]
  exact Nat.add_le_add_right (Nat.div_mul_le_self _ _) _

/-- The number nearest to `numerator / denominator`, unless it lies beyond the finite ones. -/
def ofQuotient? (negative : Bool) (numerator denominator : Nat) : Option Binary64 :=
  let units := nearest (numerator * unitsOfOne) denominator
  if bounded : units < limit then
    some ⟨negative, units, bounded, nearest_significant _ _⟩
  else none

/-- The number nearest to `digits · 10^exponent`, unless it lies beyond the finite ones. Exponents
that cannot matter are settled by the number of digits, without computing a power. -/
def ofDecimal? (negative : Bool) (digits : Nat) (exponent : Int) : Option Binary64 :=
  if digits = 0 then some (zero negative)
  else
    let magnitude := exponent + (Nat.toDigits 10 digits).length
    if 400 < magnitude then none
    else if magnitude < -400 then some (zero negative)
    else match exponent with
      | .ofNat power => ofQuotient? negative (digits * powerOfTen power) 1
      | .negSucc power => ofQuotient? negative digits (powerOfTen (power + 1))

theorem nearest_lt {numerator exponent : Nat} (below : numerator < powerOfTwo exponent) :
    nearest numerator 1 < powerOfTwo (exponent + 1) := by
  have log : numerator.log2 ≤ exponent := by
    by_cases zero : numerator = 0
    · simp [zero]
    · exact Nat.le_of_lt ((log2_lt_iff zero).mpr below)
  have near := nearest_le numerator 1
  rw [Nat.div_one] at near
  have step : powerOfTwo (numerator.log2 - 52) ≤ powerOfTwo exponent :=
    powerOfTwo_mono (by omega)
  rw [powerOfTwo_succ]
  omega

theorem nearest_bounded {magnitude : Nat} (small : magnitude < powerOfTwo 64) :
    nearest (magnitude * unitsOfOne) 1 < limit := by
  unfold unitsOfOne
  exact Nat.lt_of_lt_of_le (nearest_lt (mul_powerOfTwo_lt 64 1074 small))
    (powerOfTwo_mono (by decide))

/-- The number nearest to a signed magnitude below `2^64`. -/
def ofMagnitude (negative : Bool) (magnitude : Nat) (small : magnitude < powerOfTwo 64) :
    Binary64 :=
  ⟨negative, nearest (magnitude * unitsOfOne) 1, nearest_bounded small, nearest_significant _ _⟩

/-- The units of the number nearest to a power of ten. -/
def unitsOfTen (power : Nat) : Nat := nearest (powerOfTen power * unitsOfOne) 1

/-- The rounded product with the number nearest to a power of ten. -/
def times? (x : Binary64) (power : Nat) : Option Binary64 :=
  ofQuotient? x.negative (x.units * unitsOfTen power) (unitsOfOne * unitsOfOne)

/-- The rounded quotient by the number nearest to a power of ten. -/
def over? (x : Binary64) (power : Nat) : Option Binary64 :=
  ofQuotient? x.negative x.units (unitsOfTen power)

/-- The greatest power of ten near to which there is a finite number. -/
def greatestPower : Nat := 308

/-- Divides by a power of ten, in several rounded steps where it is a great one. -/
def lowered? (x : Binary64) (power : Nat) : Option Binary64 :=
  if power ≤ greatestPower then x.over? power
  else if x.units = 0 then some x
  else (x.over? greatestPower).bind (·.lowered? (power - greatestPower))
termination_by power
decreasing_by
  unfold greatestPower at *
  omega

/-- Multiplies by a power of ten, unless the product lies beyond the finite numbers. -/
def raised? (x : Binary64) (power : Nat) : Option Binary64 :=
  if power ≤ greatestPower then x.times? power
  else if x.units = 0 then some x
  else none

def scaled? (x : Binary64) : Int → Option Binary64
  | .ofNat power => x.raised? power
  | .negSucc less => x.lowered? (less + 1)

end Binary64

end DataAccess
