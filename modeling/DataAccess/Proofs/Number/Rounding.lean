import DataAccess.Proofs.Number.Shortest
import Mathlib.Algebra.Order.Field.Basic
import Mathlib.Algebra.Order.Field.Power
import Mathlib.Tactic.FieldSimp
import Mathlib.Tactic.Linarith

namespace DataAccess.Binary64

variable {numerator denominator units other : Nat}

/-- How far a count of units is from a quotient, in parts of the denominator. -/
def distance (numerator denominator units : Nat) : Nat :=
  ((units * denominator : Nat) - (numerator : Int)).natAbs

theorem divideToEven_wins (positive : 0 < denominator)
    (different : other ≠ divideToEven numerator denominator) :
    distance numerator denominator (divideToEven numerator denominator) <
        distance numerator denominator other ∨
      distance numerator denominator (divideToEven numerator denominator) =
        distance numerator denominator other ∧ divideToEven numerator denominator % 2 = 0 := by
  have parts := Nat.div_add_mod' numerator denominator
  have rest := Nat.mod_lt numerator positive
  -- Multiples that are not next to the quotient are farther away by a whole denominator.
  have apart {low high : Nat} (below : low < high) :
      low * denominator + denominator ≤ high * denominator := by
    rw [← Nat.succ_mul]
    exact Nat.mul_le_mul_right _ below
  have next : (numerator / denominator + 1) * denominator =
      numerator / denominator * denominator + denominator := Nat.succ_mul _ _
  unfold divideToEven at different ⊢
  simp only [distance] at different ⊢
  generalize numerator / denominator = quotient at *
  rcases Nat.lt_trichotomy other quotient with below | rfl | above
  · have := apart below
    split_ifs at different ⊢ <;> omega
  · split_ifs at different ⊢ <;> omega
  · rcases Nat.lt_or_eq_of_le (show quotient + 1 ≤ other from above) with far | rfl
    · have := apart far
      split_ifs at different ⊢ <;> omega
    · split_ifs at different ⊢ <;> omega

/-- Below this power of two the steps are narrower; from it on, counts are multiples of the step. -/
theorem dvd_or_lt_of_significant (significant : Significant units) (shift : Nat) :
    powerOfTwo shift ∣ units ∨ shift ≠ 0 ∧ units < powerOfTwo (52 + shift) := by
  by_cases wide : shift ≤ units.log2 - 52
  · exact .inl (Nat.dvd_trans (powerOfTwo_dvd wide) significant)
  · by_cases zero : units = 0
    · exact .inl (zero ▸ Nat.dvd_zero _)
    · exact .inr ⟨by omega, (log2_lt_iff zero).mp (by omega)⟩

theorem powerOfTwo_shift_le {quotient : Nat} (shifted : quotient.log2 - 52 ≠ 0) :
    powerOfTwo (52 + (quotient.log2 - 52)) ≤ quotient := by
  have nonzero : quotient ≠ 0 := by
    rintro rfl
    simp at shifted
  have exponent : 52 + (quotient.log2 - 52) = quotient.log2 := by omega
  rw [exponent]
  exact Nat.log2_self_le nonzero

/-- A rounded significand that is even stays even in the steps of the rounded number. -/
theorem even_in_steps {factor shift : Nat} (bounded : factor ≤ powerOfTwo 53)
    (normal : shift = 0 ∨ powerOfTwo 52 ≤ factor) (even : factor % 2 = 0) :
    factor * powerOfTwo shift / step (factor * powerOfTwo shift) % 2 = 0 := by
  by_cases top : factor = powerOfTwo 53
  · have whole : factor * powerOfTwo shift = powerOfTwo (52 + (shift + 1)) := by
      rw [top, ← powerOfTwo_add]
      congr 1
      omega
    have quotient : powerOfTwo (52 + (shift + 1)) / powerOfTwo (shift + 1) = powerOfTwo 52 := by
      rw [powerOfTwo_add, Nat.mul_div_cancel _ (powerOfTwo_pos _)]
    rw [step, whole, log2_powerOfTwo, Nat.add_sub_cancel_left, quotient]
    rfl
  · have shifted : (factor * powerOfTwo shift).log2 - 52 = shift := by
      have positive := powerOfTwo_pos shift
      by_cases zero : factor = 0
      · have := powerOfTwo_pos 52
        subst zero
        simp
        omega
      have nonzero : factor * powerOfTwo shift ≠ 0 := Nat.mul_ne_zero zero (Nat.ne_of_gt positive)
      have upper := (log2_lt_iff nonzero).mpr (mul_powerOfTwo_lt 53 shift (by omega))
      rcases normal with rfl | full
      · omega
      · have lower := log2_mono (Nat.mul_le_mul_right (powerOfTwo shift) full)
        rw [← powerOfTwo_add, log2_powerOfTwo] at lower
        omega
    rwa [step, shifted, Nat.mul_div_cancel _ (powerOfTwo_pos shift)]

theorem divideToEven_le_distance (positive : 0 < denominator) (other : Nat) :
    distance numerator denominator (divideToEven numerator denominator) ≤
      distance numerator denominator other := by
  by_cases same : other = divideToEven numerator denominator
  · rw [same]
  · rcases divideToEven_wins positive same with nearer | ⟨alike, -⟩ <;> omega

theorem distance_mul_powerOfTwo (factor shift : Nat) :
    distance numerator denominator (factor * powerOfTwo shift) =
      distance numerator (denominator * powerOfTwo shift) factor := by
  rw [distance, distance, Nat.mul_assoc, Nat.mul_comm (powerOfTwo shift)]

/-- Where steps are wider than a unit, a rounded significand has all its bits. -/
theorem powerOfTwo_le_divideToEven (shifted : (numerator / denominator).log2 - 52 ≠ 0) :
    powerOfTwo 52 ≤ divideToEven numerator
      (denominator * powerOfTwo ((numerator / denominator).log2 - 52)) := by
  have full := powerOfTwo_shift_le shifted
  generalize (numerator / denominator).log2 - 52 = shift at full ⊢
  calc powerOfTwo 52
      ≤ numerator / denominator / powerOfTwo shift := by
        rw [Nat.le_div_iff_mul_le (powerOfTwo_pos shift), ← powerOfTwo_add]
        exact full
    _ = numerator / (denominator * powerOfTwo shift) := Nat.div_div_eq_div_mul ..
    _ ≤ divideToEven numerator (denominator * powerOfTwo shift) := div_le_divideToEven

theorem nearest_wins (positive : 0 < denominator) (significant : Significant other)
    (different : other ≠ nearest numerator denominator) :
    distance numerator denominator (nearest numerator denominator) <
        distance numerator denominator other ∨
      distance numerator denominator (nearest numerator denominator) =
          distance numerator denominator other ∧
        nearest numerator denominator / step (nearest numerator denominator) % 2 = 0 := by
  have small := quotient_lt_of_log2 numerator denominator
  have full := @powerOfTwo_shift_le (numerator / denominator)
  have normal := or_iff_not_imp_left.mpr (@powerOfTwo_le_divideToEven numerator denominator)
  unfold nearest at different ⊢
  dsimp only at different ⊢
  generalize (numerator / denominator).log2 - 52 = shift at *
  have widePositive : 0 < denominator * powerOfTwo shift :=
    Nat.mul_pos positive (powerOfTwo_pos shift)
  have bounded : divideToEven numerator (denominator * powerOfTwo shift) ≤ powerOfTwo 53 :=
    Nat.le_trans (divideToEven_le ..) small
  rw [distance_mul_powerOfTwo]
  rcases dvd_or_lt_of_significant significant shift with ⟨factor, rfl⟩ | ⟨shifted, low⟩
  · rw [Nat.mul_comm (powerOfTwo shift)] at different ⊢
    rw [distance_mul_powerOfTwo]
    have unequal : factor ≠ divideToEven numerator (denominator * powerOfTwo shift) :=
      fun same => different (by rw [same])
    rcases divideToEven_wins widePositive unequal with nearer | ⟨alike, even⟩
    · exact .inl nearer
    · exact .inr ⟨alike, even_in_steps bounded normal even⟩
  · -- The least count with steps this wide lies between the other count and the quotient.
    have edge := @divideToEven_le_distance numerator _ widePositive (powerOfTwo 52)
    have scaled : powerOfTwo 52 * (denominator * powerOfTwo shift) =
        powerOfTwo (52 + shift) * denominator := by
      rw [powerOfTwo_add]
      ring
    have reached : powerOfTwo (52 + shift) * denominator ≤ numerator :=
      (Nat.le_div_iff_mul_le positive).mp (full shifted)
    have farther : other * denominator < powerOfTwo (52 + shift) * denominator :=
      Nat.mul_lt_mul_of_pos_right low positive
    left
    refine Nat.lt_of_le_of_lt edge ?_
    simp only [distance, scaled]
    omega

/-- The rational number that a number of binary64 is. -/
def value (x : Binary64) : ℚ := x.signedUnits / unitsOfOne

/-- Any other number is farther from `q`, or just as far if the significand of this one is even. -/
def IsNearest (x : Binary64) (q : ℚ) : Prop :=
  ∀ y : Binary64, y.value ≠ x.value → |x.value - q| < |y.value - q| ∨
    |x.value - q| = |y.value - q| ∧ x.units / step x.units % 2 = 0

variable {x y : Binary64} {q : ℚ}

theorem unitsOfOne_cast_pos : (0 : ℚ) < unitsOfOne := by exact_mod_cast unitsOfOne_pos

theorem abs_value (x : Binary64) : |x.value| = x.units / unitsOfOne := by
  rw [value, abs_div, abs_of_pos unitsOfOne_cast_pos, ← Int.cast_abs, ← Nat.cast_natAbs,
    natAbs_signedUnits]

theorem value_of_signedUnits {j : ℤ} (count : x.signedUnits = j * unitsOfOne) : x.value = j := by
  rw [value, count, Int.cast_mul, Int.cast_natCast]
  exact mul_div_cancel_right₀ _ unitsOfOne_cast_pos.ne'

theorem value_eq_intCast_iff {j : ℤ} : x.value = j ↔ x.isIntegral = true ∧ x.truncate = j := by
  constructor
  · intro whole
    have count : x.signedUnits = j * unitsOfOne := by
      rw [value, div_eq_iff unitsOfOne_cast_pos.ne'] at whole
      exact_mod_cast whole
    have integral : x.isIntegral = true := by
      rw [isIntegral_iff, ← natAbs_signedUnits, count, Int.natAbs_mul, Int.natAbs_natCast]
      exact Nat.dvd_mul_left _ _
    have truncated := value_of_signedUnits (signedUnits_of_integral integral)
    exact ⟨integral, Int.cast_injective (truncated.symm.trans (value_of_signedUnits count))⟩
  · rintro ⟨integral, truncated⟩
    rw [← truncated]
    exact value_of_signedUnits (signedUnits_of_integral integral)

theorem IsNearest.le (nearest : x.IsNearest q) (y : Binary64) : |x.value - q| ≤ |y.value - q| := by
  by_cases same : y.value = x.value
  · rw [same]
  · rcases nearest y same with nearer | ⟨alike, -⟩
    · exact nearer.le
    · exact alike.le

/-- Rounding up or down crosses no float. -/
theorem IsNearest.le_value (nearest : x.IsNearest q) (below : y.value ≤ q) : y.value ≤ x.value := by
  have nearer := nearest.le y
  rw [abs_of_nonpos (sub_nonpos.mpr below)] at nearer
  have side := neg_abs_le (x.value - q)
  linarith

theorem IsNearest.value_le (nearest : x.IsNearest q) (above : q ≤ y.value) : x.value ≤ y.value := by
  have nearer := nearest.le y
  rw [abs_of_nonneg (sub_nonneg.mpr above)] at nearer
  have side := le_abs_self (x.value - q)
  linarith

def negate (x : Binary64) : Binary64 := ⟨!x.negative, x.units, x.representable⟩

theorem signedUnits_negate (x : Binary64) : x.negate.signedUnits = -x.signedUnits := by
  unfold signedUnits negate
  cases x.negative <;> simp

theorem value_negate (x : Binary64) : x.negate.value = -x.value := by
  rw [value, signedUnits_negate, Int.cast_neg, neg_div, value]

theorem IsNearest.negate (nearest : x.IsNearest q) : x.negate.IsNearest (-q) := by
  intro y different
  have mirrored : y.negate.value ≠ x.value := by
    rw [value_negate] at different ⊢
    intro same
    exact different (by rw [← same, neg_neg])
  have farther := nearest y.negate mirrored
  have swap (a : ℚ) : |-a - q| = |a - -q| := by
    rw [← abs_neg]
    congr 1
    ring
  have own : |x.negate.value - -q| = |x.value - q| := by
    rw [value_negate, ← swap, neg_neg]
  rw [value_negate, swap] at farther
  rw [own]
  exact farther

theorem isNearest_value (x : Binary64) : x.IsNearest x.value := by
  intro y different
  left
  rw [sub_self, abs_zero]
  exact abs_pos.mpr (sub_ne_zero.mpr different)

theorem IsNearest.value_eq (nearest : x.IsNearest y.value) : x.value = y.value := by
  have nearer := nearest.le y
  rw [sub_self, abs_zero] at nearer
  exact sub_eq_zero.mp (abs_eq_zero.mp (le_antisymm nearer (abs_nonneg _)))

theorem abs_sub_quotient (positive : 0 < denominator) (units : Nat) :
    |(units : ℚ) / unitsOfOne - numerator / denominator| =
      distance (numerator * unitsOfOne) denominator units / (unitsOfOne * denominator) := by
  have one := unitsOfOne_cast_pos
  have below : (0 : ℚ) < denominator := by exact_mod_cast positive
  have difference : (units : ℚ) / unitsOfOne - numerator / denominator =
      ((units * denominator : Nat) - (numerator * unitsOfOne : Nat) : Int) /
        (unitsOfOne * denominator) := by
    push_cast
    rw [div_sub_div _ _ one.ne' below.ne']
    ring
  rw [difference, abs_div, abs_of_pos (mul_pos one below), distance, Nat.cast_natAbs, Int.cast_abs]

theorem value_of_nonneg (nonnegative : x.negative = false) :
    x.value = x.units / unitsOfOne := by
  have positive : x.signedUnits = x.units := by simp [signedUnits, nonnegative]
  rw [value, positive, Int.cast_natCast]

theorem value_of_value_nonneg (upper : 0 ≤ x.value) : x.value = x.units / unitsOfOne := by
  rw [← abs_value, abs_of_nonneg upper]

theorem exists_value_powerOfTwo (exponent : Nat) (below : exponent < 1024) :
    ∃ y : Binary64, y.value = powerOfTwo exponent := by
  have bounded : powerOfTwo (exponent + 1074) < limit := by
    rw [limit, ← log2_lt_iff (powerOfTwo_pos _).ne', log2_powerOfTwo]
    omega
  have significant : Significant (powerOfTwo (exponent + 1074)) := by
    rw [Significant, log2_powerOfTwo]
    exact powerOfTwo_dvd (Nat.sub_le _ _)
  have whole : (powerOfTwo (exponent + 1074) : ℚ) = powerOfTwo exponent * unitsOfOne := by
    rw [powerOfTwo_add, ← unitsOfOne, Nat.cast_mul]
  refine ⟨⟨false, powerOfTwo (exponent + 1074), bounded, significant⟩, ?_⟩
  rw [value_of_nonneg rfl, whole, mul_div_cancel_right₀ _ unitsOfOne_cast_pos.ne']

section Rounded

variable (positive : 0 < denominator) (nonnegative : x.negative = false)
  (rounded : x.units = nearest (numerator * unitsOfOne) denominator)
include positive nonnegative rounded

theorem rounded_wins (significant : Significant units) (different : units ≠ x.units) :
    |x.value - numerator / denominator| < |(units : ℚ) / unitsOfOne - numerator / denominator| ∨
      |x.value - numerator / denominator| =
          |(units : ℚ) / unitsOfOne - numerator / denominator| ∧
        x.units / step x.units % 2 = 0 := by
  have below : (0 : ℚ) < denominator := by exact_mod_cast positive
  have scale : (0 : ℚ) < unitsOfOne * denominator := mul_pos unitsOfOne_cast_pos below
  rw [value_of_nonneg nonnegative, abs_sub_quotient positive, abs_sub_quotient positive,
    div_lt_div_iff_of_pos_right scale, div_left_inj' scale.ne', Nat.cast_lt, Nat.cast_inj]
  rw [rounded] at different ⊢
  exact nearest_wins positive significant different

/-- Zero is among the numbers that are no nearer. -/
theorem abs_sub_le_quotient : |x.value - numerator / denominator| ≤ numerator / denominator := by
  have quotient : (0 : ℚ) ≤ numerator / denominator :=
    div_nonneg (Nat.cast_nonneg _) (Nat.cast_nonneg _)
  have fromZero : |((0 : Nat) : ℚ) / unitsOfOne - numerator / denominator| =
      numerator / denominator := by
    rw [Nat.cast_zero, zero_div, zero_sub, abs_neg, abs_of_nonneg quotient]
  by_cases zero : 0 = x.units
  · rw [value_of_nonneg nonnegative, ← zero, fromZero]
  · rcases rounded_wins positive nonnegative rounded (Nat.dvd_zero _) zero with nearer | ⟨alike, -⟩
    · exact nearer.le.trans fromZero.le
    · exact alike.le.trans fromZero.le

theorem isNearest_of_nearest : x.IsNearest (numerator / denominator) := by
  intro y different
  rcases le_or_gt 0 y.value with upper | lower
  · have positioned := value_of_value_nonneg upper
    rw [positioned]
    apply rounded_wins positive nonnegative rounded y.representable.2
    intro same
    exact different (by rw [positioned, same, value_of_nonneg nonnegative])
  · -- Zero lies between a negative number and the quotient.
    left
    calc |x.value - numerator / denominator|
        ≤ numerator / denominator := abs_sub_le_quotient positive nonnegative rounded
      _ < numerator / denominator - y.value := by linarith
      _ ≤ |y.value - numerator / denominator| := by
        rw [abs_sub_comm]
        exact le_abs_self _

end Rounded

theorem isNearest_of_ofQuotient? (positive : 0 < denominator)
    (found : ofQuotient? false numerator denominator = some x) :
    x.IsNearest (numerator / denominator) := by
  unfold ofQuotient? at found
  dsimp only at found
  split at found
  · cases found
    exact isNearest_of_nearest positive rfl rfl
  · cases found

/-- A quotient that is not finite is at least half of the limit. -/
theorem le_of_ofQuotient?_eq_none {negative : Bool} (positive : 0 < denominator)
    (overflows : ofQuotient? negative numerator denominator = none) :
    (powerOfTwo 1023 : ℚ) ≤ numerator / denominator := by
  have below : (0 : ℚ) < denominator := by exact_mod_cast positive
  have unbounded : limit ≤ nearest (numerator * unitsOfOne) denominator := by
    unfold ofQuotient? at overflows
    dsimp only at overflows
    split at overflows
    · cases overflows
    · rename_i large
      exact Nat.le_of_not_lt large
  have near := nearest_le (numerator * unitsOfOne) denominator
  have half : powerOfTwo 2097 ≤ numerator * unitsOfOne / denominator := by
    have double : limit = powerOfTwo 2097 + powerOfTwo 2097 := powerOfTwo_succ 2097
    have many := powerOfTwo_pos 2097
    by_cases zero : numerator * unitsOfOne / denominator = 0
    · have least : powerOfTwo (Nat.log2 0 - 52) = 1 := rfl
      rw [zero, least] at near
      omega
    · have step : powerOfTwo ((numerator * unitsOfOne / denominator).log2 - 52) ≤
          numerator * unitsOfOne / denominator := step_le zero
      omega
  have scaled : powerOfTwo 1023 * denominator ≤ numerator := by
    refine Nat.le_of_mul_le_mul_right ?_ unitsOfOne_pos
    calc powerOfTwo 1023 * denominator * unitsOfOne
        = powerOfTwo 2097 * denominator := by
          rw [Nat.mul_right_comm, unitsOfOne, ← powerOfTwo_add]
      _ ≤ numerator * unitsOfOne := (Nat.le_div_iff_mul_le positive).mp half
  rw [le_div_iff₀ below]
  exact_mod_cast scaled

variable {digits : Nat} {scale : Int}

theorem cast_powerOfTen (exponent : Nat) : (powerOfTen exponent : ℚ) = 10 ^ (exponent : ℤ) := by
  rw [zpow_natCast]
  exact Nat.cast_pow 10 exponent

theorem digits_lt (digits : Nat) : digits < powerOfTen (Nat.toDigits 10 digits).length :=
  (Nat.length_toDigits_le_iff (by decide) Nat.length_toDigits_pos).mp (Nat.le_refl _)

theorem le_digits (nonzero : digits ≠ 0) :
    powerOfTen ((Nat.toDigits 10 digits).length - 1) ≤ digits := by
  refine Nat.le_of_not_lt fun fewer => ?_
  by_cases single : (Nat.toDigits 10 digits).length - 1 = 0
  · rw [single] at fewer
    exact nonzero (Nat.lt_one_iff.mp fewer)
  · have shorter := (Nat.length_toDigits_le_iff (by decide) (Nat.pos_of_ne_zero single)).mpr fewer
    omega

theorem ofDecimal?_true : ofDecimal? true digits scale = (ofDecimal? false digits scale).map negate := by
  have quotients (numerator denominator : Nat) : ofQuotient? true numerator denominator =
      (ofQuotient? false numerator denominator).map negate := by
    unfold ofQuotient?
    dsimp only
    split <;> rfl
  unfold ofDecimal?
  dsimp only
  split_ifs
  · rfl
  · rfl
  · rfl
  · cases scale <;> exact quotients ..

theorem value_zero (negative : Bool) : (zero negative).value = 0 := by
  have nothing : (zero negative).signedUnits = 0 := by cases negative <;> rfl
  rw [value, nothing, Int.cast_zero, zero_div]

theorem one_le_abs_value (nonzero : y.value ≠ 0) : 1 ≤ |y.value| * unitsOfOne := by
  have one := unitsOfOne_cast_pos
  have units : y.units ≠ 0 := by
    intro none
    have magnitude := abs_value y
    rw [none, Nat.cast_zero, zero_div, abs_eq_zero] at magnitude
    exact nonzero magnitude
  rw [abs_value, div_mul_cancel₀ _ one.ne']
  exact_mod_cast Nat.pos_of_ne_zero units

theorem isNearest_zero {negative : Bool} (tiny : 2 * |q| * unitsOfOne < 1) :
    (zero negative).IsNearest q := by
  have one := unitsOfOne_cast_pos
  intro y different
  rw [value_zero] at different ⊢
  have least := one_le_abs_value different
  have half : 2 * |q| < |y.value| := lt_of_mul_lt_mul_right (tiny.trans_le least) one.le
  have apart := abs_sub_abs_le_abs_sub y.value q
  left
  rw [zero_sub, abs_neg]
  linarith

/-- Powers of ten are wider than powers of two by more than three bits each. -/
theorem powerOfTwo_le_powerOfTen (exponent : Nat) :
    powerOfTwo (3 * exponent) ≤ powerOfTen exponent :=
  calc powerOfTwo (3 * exponent)
      = Nat.pow 8 exponent := Nat.pow_mul 2 3 exponent
    _ ≤ powerOfTen exponent := Nat.pow_le_pow_left (by decide) exponent

theorem cast_powerOfTwo_le {exponent : Nat} (small : exponent ≤ 1200) :
    (powerOfTwo exponent : ℚ) ≤ 10 ^ (400 : ℤ) := by
  have bits : powerOfTwo exponent ≤ powerOfTen 400 :=
    (powerOfTwo_mono small).trans (powerOfTwo_le_powerOfTen 400)
  calc (powerOfTwo exponent : ℚ)
      ≤ powerOfTen 400 := Nat.cast_le.mpr bits
    _ = 10 ^ (400 : ℤ) := cast_powerOfTen 400

theorem tiny_of_scale (tiny : scale + (Nat.toDigits 10 digits).length < -400) :
    2 * |(digits * 10 ^ scale : ℚ)| * unitsOfOne < 1 := by
  have unit : (2 * unitsOfOne : ℚ) ≤ 10 ^ (400 : ℤ) := by
    have double : powerOfTwo 1075 = 2 * unitsOfOne := by
      rw [powerOfTwo_succ, unitsOfOne, Nat.two_mul]
    have bits : (powerOfTwo 1075 : ℚ) ≤ 10 ^ (400 : ℤ) := cast_powerOfTwo_le (by decide)
    rwa [double, Nat.cast_mul, Nat.cast_ofNat] at bits
  have digitsBound : (digits : ℚ) < 10 ^ ((Nat.toDigits 10 digits).length : ℤ) := by
    rw [← cast_powerOfTen]
    exact_mod_cast digits_lt digits
  rw [abs_of_nonneg (by positivity)]
  calc (2 * (digits * 10 ^ scale) * unitsOfOne : ℚ)
      = digits * 10 ^ scale * (2 * unitsOfOne) := by ring
    _ ≤ digits * 10 ^ scale * 10 ^ (400 : ℤ) := by gcongr
    _ < 10 ^ ((Nat.toDigits 10 digits).length : ℤ) * 10 ^ scale * 10 ^ (400 : ℤ) := by gcongr
    _ = 10 ^ ((Nat.toDigits 10 digits).length + scale + 400) := by
      rw [zpow_add₀ (by norm_num), zpow_add₀ (by norm_num)]
    _ ≤ 10 ^ (0 : ℤ) := zpow_le_zpow_right₀ (by norm_num) (by omega)
    _ = 1 := zpow_zero 10

theorem le_of_scale (nonzero : digits ≠ 0)
    (huge : 400 < scale + (Nat.toDigits 10 digits).length) :
    (powerOfTwo 1023 : ℚ) ≤ digits * 10 ^ scale := by
  have digitsBound : (10 : ℚ) ^ (((Nat.toDigits 10 digits).length - 1 : Nat) : ℤ) ≤ digits := by
    rw [← cast_powerOfTen]
    exact_mod_cast le_digits nonzero
  calc (powerOfTwo 1023 : ℚ)
      ≤ 10 ^ (400 : ℤ) := cast_powerOfTwo_le (by decide)
    _ ≤ 10 ^ ((((Nat.toDigits 10 digits).length - 1 : Nat) : ℤ) + scale) :=
      zpow_le_zpow_right₀ (by norm_num) (by omega)
    _ = 10 ^ (((Nat.toDigits 10 digits).length - 1 : Nat) : ℤ) * 10 ^ scale :=
      zpow_add₀ (by norm_num) _ _
    _ ≤ digits * 10 ^ scale := by gcongr

theorem isNearest_of_ofDecimal? (found : ofDecimal? false digits scale = some x) :
    x.IsNearest (digits * 10 ^ scale) := by
  unfold ofDecimal? at found
  dsimp only at found
  split at found
  · rename_i zeroDigits
    cases found
    rw [zeroDigits, Nat.cast_zero, zero_mul, ← value_zero false]
    exact isNearest_value _
  split at found
  · cases found
  split at found
  · rename_i nonzero small tiny
    cases found
    exact isNearest_zero (tiny_of_scale tiny)
  · cases scale with
    | ofNat power =>
        have nearest := isNearest_of_ofQuotient? Nat.one_pos found
        rwa [Nat.cast_mul, cast_powerOfTen, Nat.cast_one, div_one] at nearest
    | negSucc power =>
        have nearest := isNearest_of_ofQuotient? (powerOfTen_pos (power + 1)) found
        rwa [cast_powerOfTen, div_eq_mul_inv, ← zpow_neg] at nearest

/-- A decimal that is not finite lies far beyond the integers of 64-bit words. -/
theorem le_of_ofDecimal?_eq_none {negative : Bool}
    (overflows : ofDecimal? negative digits scale = none) :
    (powerOfTwo 1023 : ℚ) ≤ digits * 10 ^ scale := by
  unfold ofDecimal? at overflows
  dsimp only at overflows
  split at overflows
  · cases overflows
  rename_i nonzero
  split at overflows
  · rename_i huge
    exact le_of_scale nonzero huge
  split at overflows
  · cases overflows
  · cases scale with
    | ofNat power =>
        have large := le_of_ofQuotient?_eq_none Nat.one_pos overflows
        rwa [Nat.cast_mul, cast_powerOfTen, Nat.cast_one, div_one] at large
    | negSucc power =>
        have large := le_of_ofQuotient?_eq_none (powerOfTen_pos (power + 1)) overflows
        rwa [cast_powerOfTen, div_eq_mul_inv, ← zpow_neg] at large

theorem step_mono (ordered : units ≤ other) : step units ≤ step other :=
  powerOfTwo_mono (Nat.sub_le_sub_right (log2_mono ordered) 52)

theorem double_step_le (below : units < other) (widens : Widens other) :
    2 * step units ≤ step other := by
  obtain ⟨power, wide⟩ := widens
  obtain ⟨shift, shifted⟩ := Nat.exists_eq_succ_of_ne_zero wide
  have narrow : units.log2 - 52 ≤ shift := by
    by_cases zero : units = 0
    · simp [zero]
    · have log := (log2_lt_iff zero).mpr (power ▸ below)
      omega
  have half : step units ≤ powerOfTwo shift := powerOfTwo_mono narrow
  have double : step other = powerOfTwo shift + powerOfTwo shift := by
    rw [step, shifted, powerOfTwo_succ]
  omega

theorem not_both_even_of_next (significant : Significant units)
    (otherSignificant : Significant other) (next : units + step units = other) :
    ¬(units / step units % 2 = 0 ∧ other / step other % 2 = 0) := by
  have positive := step_pos units
  have below : units < other := by omega
  have upper := upperEnd_le_middle significant otherSignificant below
  have lower := middle_le_lowerEnd significant otherSignificant below
  apply odd_of_meeting significant otherSignificant below
  have steps := step_mono (Nat.le_of_lt below)
  rw [upperEnd] at upper ⊢
  by_cases widens : Widens other
  · have wide := double_step_le below widens
    rw [lowerEnd, if_pos widens] at lower ⊢
    omega
  · rw [lowerEnd, if_neg widens] at lower ⊢
    omega

theorem significant_add_step (significant : Significant units) :
    Significant (units + step units) := by
  obtain ⟨factor, whole⟩ : step units ∣ units := significant
  have bounded : factor < powerOfTwo 53 := by
    refine Nat.lt_of_mul_lt_mul_left (a := step units) ?_
    calc step units * factor
        = units := whole.symm
      _ < powerOfTwo (units.log2 - 52 + 53) :=
        Nat.lt_of_lt_of_le (lt_powerOfTwo_log2 units) (powerOfTwo_mono (by omega))
      _ = step units * powerOfTwo 53 := powerOfTwo_add ..
  have next : (factor + 1) * step units = units + step units := by
    rw [Nat.succ_mul, Nat.mul_comm factor, ← whole]
  rw [← next]
  exact significant_of_factor bounded

/-- What lies between two numbers that are equally near is nearer than both. -/
theorem IsNearest.not_between (nearest : x.IsNearest q)
    (alike : |x.value - q| = |y.value - q|) (middle : Binary64) :
    ¬(x.value < middle.value ∧ middle.value < y.value) := by
  rintro ⟨low, high⟩
  rcases abs_eq_abs.mp alike with same | opposite
  · linarith
  · have inside : |middle.value - q| < y.value - q := abs_lt.mpr ⟨by linarith, by linarith⟩
    have outside := le_abs_self (y.value - q)
    have nearer := nearest.le middle
    linarith

/-- Where a step up from one number does not reach another, it ends at a number in between. -/
theorem exists_value_between (upper : 0 ≤ x.value) (high : 0 ≤ y.value)
    (room : x.units + step x.units < y.units) :
    ∃ middle : Binary64, x.value < middle.value ∧ middle.value < y.value := by
  have bounded := Nat.lt_trans room y.representable.1
  let middle : Binary64 :=
    ⟨false, x.units + step x.units, bounded, significant_add_step x.representable.2⟩
  have ofMiddle : middle.value = (x.units + step x.units : Nat) / unitsOfOne := value_of_nonneg rfl
  refine ⟨middle, ?_⟩
  rw [ofMiddle, value_of_value_nonneg upper, value_of_value_nonneg high,
    div_lt_div_iff_of_pos_right unitsOfOne_cast_pos, div_lt_div_iff_of_pos_right unitsOfOne_cast_pos,
    Nat.cast_lt, Nat.cast_lt]
  exact ⟨Nat.lt_add_of_pos_right (step_pos _), room⟩

theorem IsNearest.not_below (first : x.IsNearest q) (second : y.IsNearest q) (upper : 0 ≤ x.value) :
    ¬x.value < y.value := by
  intro below
  obtain ⟨alike, even, otherEven⟩ : |x.value - q| = |y.value - q| ∧
      x.units / step x.units % 2 = 0 ∧ y.units / step y.units % 2 = 0 := by
    rcases first y below.ne' with nearer | ⟨alike, even⟩
    · exact absurd nearer (second.le x).not_gt
    · rcases second x below.ne with nearer | ⟨-, otherEven⟩
      · exact absurd nearer alike.le.not_gt
      · exact ⟨alike, even, otherEven⟩
  have high : 0 ≤ y.value := upper.trans below.le
  have counts : x.units < y.units := by
    rw [value_of_value_nonneg upper, value_of_value_nonneg high,
      div_lt_div_iff_of_pos_right unitsOfOne_cast_pos] at below
    exact_mod_cast below
  -- A number between the two would be nearer than both, so they are neighbours.
  have next : x.units + step x.units = y.units := by
    refine Nat.le_antisymm (add_step_le x.representable.2 y.representable.2 counts) ?_
    refine Nat.le_of_not_lt fun room => ?_
    obtain ⟨middle, between⟩ := exists_value_between upper high room
    exact first.not_between alike middle between
  exact not_both_even_of_next x.representable.2 y.representable.2 next ⟨even, otherEven⟩

/-- But for the sign of zero, one number is nearest. -/
theorem IsNearest.unique (first : x.IsNearest q) (second : y.IsNearest q) : x.value = y.value := by
  have ordered {x y : Binary64} {q : ℚ} (first : x.IsNearest q) (second : y.IsNearest q) :
      ¬x.value < y.value := by
    intro below
    by_cases upper : 0 ≤ x.value
    · exact first.not_below second upper below
    by_cases lower : y.value ≤ 0
    · apply second.negate.not_below first.negate
      · rw [value_negate]
        linarith
      · rw [value_negate, value_negate]
        linarith
    · have alike : |x.value - q| = |y.value - q| := le_antisymm (first.le y) (second.le x)
      apply first.not_between alike (zero false)
      rw [value_zero]
      exact ⟨not_le.mp upper, not_le.mp lower⟩
  exact le_antisymm (not_lt.mp (ordered second first)) (not_lt.mp (ordered first second))

end DataAccess.Binary64
