import DataAccess.Number

namespace DataAccess.Binary64

variable {numerator other denominator : Nat}

theorem div_le_divideToEven : numerator / denominator ≤ divideToEven numerator denominator := by
  unfold divideToEven
  grind

theorem divideToEven_mul (quotient : Nat) (positive : 0 < denominator) :
    divideToEven (quotient * denominator) denominator = quotient := by
  simp [divideToEven, Nat.mul_div_cancel _ positive, positive]

theorem divideToEven_mono (ordered : numerator ≤ other) :
    divideToEven numerator denominator ≤ divideToEven other denominator := by
  rcases Nat.lt_or_eq_of_le (Nat.div_le_div_right (c := denominator) ordered) with below | equal
  · calc divideToEven numerator denominator
        ≤ numerator / denominator + 1 := divideToEven_le ..
      _ ≤ other / denominator := below
      _ ≤ divideToEven other denominator := div_le_divideToEven
  · -- Both have the same quotient, so the one with the greater rest is not rounded down alone.
    have rests : numerator % denominator ≤ other % denominator := by
      have left := Nat.div_add_mod numerator denominator
      have right := Nat.div_add_mod other denominator
      rw [equal] at left
      omega
    unfold divideToEven
    rw [equal]
    grind

theorem log2_mono (ordered : numerator ≤ other) : numerator.log2 ≤ other.log2 := by
  by_cases zero : numerator = 0
  · simp [zero]
  · exact (Nat.le_log2 (by omega)).mpr (Nat.le_trans (Nat.log2_self_le zero) ordered)

section

variable (positive : 0 < denominator)

include positive

theorem nearest_le_powerOfTwo :
    nearest numerator denominator ≤ powerOfTwo ((numerator / denominator).log2 + 1) := by
  have below := (Nat.div_lt_iff_lt_mul positive).mp (lt_powerOfTwo_log2 (numerator / denominator))
  unfold nearest
  dsimp only
  generalize (numerator / denominator).log2 = size at below ⊢
  have split : powerOfTwo (size + 1) =
      powerOfTwo (size + 1 - (size - 52)) * powerOfTwo (size - 52) := by
    rw [← powerOfTwo_add]
    congr 1
    omega
  rw [split, Nat.mul_assoc, Nat.mul_comm (powerOfTwo (size - 52))] at below
  rw [split]
  refine Nat.mul_le_mul_right _ ?_
  calc divideToEven numerator (denominator * powerOfTwo (size - 52))
      ≤ divideToEven (powerOfTwo (size + 1 - (size - 52)) * (denominator * powerOfTwo (size - 52)))
          (denominator * powerOfTwo (size - 52)) := divideToEven_mono (Nat.le_of_lt below)
    _ = _ := divideToEven_mul _ (Nat.mul_pos positive (powerOfTwo_pos _))

theorem powerOfTwo_le_nearest (nonzero : numerator / denominator ≠ 0) :
    powerOfTwo (numerator / denominator).log2 ≤ nearest numerator denominator := by
  have above : powerOfTwo (numerator / denominator).log2 * denominator ≤ numerator :=
    (Nat.le_div_iff_mul_le positive).mp (Nat.log2_self_le nonzero)
  unfold nearest
  dsimp only
  generalize (numerator / denominator).log2 = size at above ⊢
  have split : powerOfTwo size = powerOfTwo (size - (size - 52)) * powerOfTwo (size - 52) := by
    rw [← powerOfTwo_add]
    congr 1
    omega
  rw [split, Nat.mul_assoc, Nat.mul_comm (powerOfTwo (size - 52))] at above
  rw [split]
  refine Nat.mul_le_mul_right _ ?_
  calc powerOfTwo (size - (size - 52))
      = divideToEven (powerOfTwo (size - (size - 52)) * (denominator * powerOfTwo (size - 52)))
          (denominator * powerOfTwo (size - 52)) :=
        (divideToEven_mul _ (Nat.mul_pos positive (powerOfTwo_pos _))).symm
    _ ≤ _ := divideToEven_mono above

theorem nearest_mono (ordered : numerator ≤ other) :
    nearest numerator denominator ≤ nearest other denominator := by
  have quotients := Nat.div_le_div_right (c := denominator) ordered
  rcases Nat.lt_or_eq_of_le (log2_mono quotients) with smaller | alike
  · -- A power of two lies between quotients of different sizes, and it is not rounded.
    have nonzero : other / denominator ≠ 0 := by
      intro zero
      simp [zero] at smaller
    calc nearest numerator denominator
        ≤ powerOfTwo ((numerator / denominator).log2 + 1) := nearest_le_powerOfTwo positive
      _ ≤ powerOfTwo (other / denominator).log2 := powerOfTwo_mono smaller
      _ ≤ nearest other denominator := powerOfTwo_le_nearest positive nonzero
  · unfold nearest
    rw [alike]
    exact Nat.mul_le_mul_right _ (divideToEven_mono ordered)

theorem nearest_of_significant (significant : Significant numerator) :
    nearest (numerator * denominator) denominator = numerator := by
  have steps := Nat.mul_pos positive (powerOfTwo_pos (numerator.log2 - 52))
  obtain ⟨quotient, whole⟩ := significant
  unfold nearest
  rw [Nat.mul_div_cancel _ positive]
  dsimp only
  generalize powerOfTwo (numerator.log2 - 52) = step at whole steps ⊢
  have counted : numerator * denominator = quotient * (denominator * step) := by
    rw [whole, Nat.mul_comm step, Nat.mul_assoc, Nat.mul_comm step]
  rw [counted, divideToEven_mul quotient steps, whole, Nat.mul_comm]

end

/-- Integers of up to 53 binary digits are not rounded. -/
theorem nearest_of_small {magnitude : Nat} (small : magnitude ≤ powerOfTwo 53) :
    nearest (magnitude * unitsOfOne) 1 = magnitude * unitsOfOne := by
  have exactly := nearest_of_significant Nat.one_pos (@significant_of_factor magnitude 1074 small)
  rwa [Nat.mul_one] at exactly

theorem powerOfTwo_dvd_nearest (numerator denominator : Nat) :
    powerOfTwo ((numerator / denominator).log2 - 52) ∣ nearest numerator denominator :=
  Nat.dvd_mul_left _ _

/-- Rounding an integer leaves an integer. -/
theorem unitsOfOne_dvd_nearest (magnitude : Nat) :
    unitsOfOne ∣ nearest (magnitude * unitsOfOne) 1 := by
  rcases Nat.le_total magnitude (powerOfTwo 53) with small | large
  · rw [nearest_of_small small]
    exact Nat.dvd_mul_left _ _
  · have wide : powerOfTwo (53 + 1074) ≤ magnitude * unitsOfOne := by
      rw [powerOfTwo_add]
      exact Nat.mul_le_mul_right _ large
    have size := log2_mono wide
    rw [log2_powerOfTwo] at size
    refine Nat.dvd_trans (powerOfTwo_dvd ?_) (powerOfTwo_dvd_nearest _ 1)
    rw [Nat.div_one]
    omega

theorem unitsOfOne_pos : 0 < unitsOfOne := powerOfTwo_pos 1074

variable {x y : Binary64}

theorem isIntegral_iff : x.isIntegral = true ↔ unitsOfOne ∣ x.units := by
  rw [isIntegral, beq_iff_eq, Nat.dvd_iff_mod_eq_zero]

theorem natAbs_signedUnits (x : Binary64) : x.signedUnits.natAbs = x.units := by
  unfold signedUnits
  split <;> omega

theorem natAbs_truncate (x : Binary64) : x.truncate.natAbs = x.units / unitsOfOne := by
  unfold truncate
  generalize x.units / unitsOfOne = whole
  dsimp only
  split <;> omega

theorem units_of_signedUnits (same : x.signedUnits = y.signedUnits) : x.units = y.units := by
  rw [← natAbs_signedUnits, same, natAbs_signedUnits]

theorem signedUnits_of_integral (integral : x.isIntegral = true) :
    x.signedUnits = x.truncate * unitsOfOne := by
  have whole := Nat.div_mul_cancel (isIntegral_iff.mp integral)
  unfold signedUnits truncate
  dsimp only
  split
  · rw [Int.neg_mul, ← Int.natCast_mul, whole]
  · rw [← Int.natCast_mul, whole]

/-- Apart from the zeros, a number is told by its sign and its units. -/
theorem eq_of_signedUnits (nonzero : x.units ≠ 0) (same : x.signedUnits = y.signedUnits) :
    x = y := by
  have units := units_of_signedUnits same
  have signs : x.negative = y.negative := by
    unfold signedUnits at same
    cases ofX : x.negative <;> cases ofY : y.negative <;>
      simp only [ofX, ofY, ↓reduceIte, Bool.false_eq_true] at same <;> first | rfl | omega
  cases x
  cases y
  simp only [mk.injEq]
  exact ⟨signs, units⟩

theorem order_eq_iff : x.order y = .eq ↔ x.signedUnits = y.signedUnits := Int.compare_eq_eq

end DataAccess.Binary64

namespace DataAccess

theorem WideInt.signedUnits_mono {m n : WideInt} (ordered : m.val ≤ n.val) :
    m.toBinary64.signedUnits ≤ n.toBinary64.signedUnits := by
  have scaled {x y : Nat} (magnitudes : x ≤ y) : Binary64.nearest (x * Binary64.unitsOfOne) 1 ≤
      Binary64.nearest (y * Binary64.unitsOfOne) 1 :=
    Binary64.nearest_mono Nat.one_pos (Nat.mul_le_mul_right _ magnitudes)
  simp only [toBinary64, Binary64.ofMagnitude, Binary64.signedUnits]
  by_cases first : m.val < 0 <;> by_cases second : n.val < 0 <;>
    simp only [first, second, decide_true, decide_false, ↓reduceIte, Bool.false_eq_true]
  · have := scaled (x := n.val.natAbs) (y := m.val.natAbs) (by omega)
    omega
  · omega
  · omega
  · have := scaled (x := m.val.natAbs) (y := n.val.natAbs) (by omega)
    omega

namespace WideInt

variable {n : WideInt} {x : Binary64}

theorem isIntegral_toBinary64 (n : WideInt) : n.toBinary64.isIntegral = true :=
  Binary64.isIntegral_iff.mpr (Binary64.unitsOfOne_dvd_nearest n.val.natAbs)

theorem signedUnits_toBinary64 (small : n.val.natAbs ≤ powerOfTwo 53) :
    n.toBinary64.signedUnits = n.val * Binary64.unitsOfOne := by
  simp only [toBinary64, Binary64.ofMagnitude, Binary64.signedUnits,
    Binary64.nearest_of_small small, decide_eq_true_eq]
  split
  · have negated : (n.val.natAbs : Int) = -n.val := by omega
    rw [Int.natCast_mul, negated, Int.neg_mul, Int.neg_neg]
  · have kept : (n.val.natAbs : Int) = n.val := by omega
    rw [Int.natCast_mul, kept]

theorem natAbs_truncate_toBinary64 (small : n.val.natAbs ≤ powerOfTwo 53) :
    n.toBinary64.truncate.natAbs = n.val.natAbs := by
  have units : n.toBinary64.units = n.val.natAbs * Binary64.unitsOfOne :=
    Binary64.nearest_of_small small
  have positive := Binary64.unitsOfOne_pos
  rw [Binary64.natAbs_truncate, units]
  generalize Binary64.unitsOfOne = one at positive
  exact Nat.mul_div_cancel _ positive

/-- An integer that rounds to a small one is that one. -/
theorem val_eq_of_signedUnits {whole : Int} (small : whole.natAbs < powerOfTwo 53)
    (same : n.toBinary64.signedUnits = whole * Binary64.unitsOfOne) : n.val = whole := by
  have positive := Binary64.unitsOfOne_pos
  have exactly : n.val.natAbs ≤ powerOfTwo 53 := by
    refine Nat.le_of_not_lt fun large => ?_
    have scaled : powerOfTwo 53 * Binary64.unitsOfOne ≤ n.val.natAbs * Binary64.unitsOfOne :=
      Nat.mul_le_mul_right _ (Nat.le_of_lt large)
    have magnitudes := congrArg Int.natAbs same
    rw [Binary64.natAbs_signedUnits, Int.natAbs_mul, Int.natAbs_natCast] at magnitudes
    have above : powerOfTwo 53 * Binary64.unitsOfOne ≤ whole.natAbs * Binary64.unitsOfOne :=
      calc powerOfTwo 53 * Binary64.unitsOfOne
          = Binary64.nearest (powerOfTwo 53 * Binary64.unitsOfOne) 1 :=
            (Binary64.nearest_of_small (Nat.le_refl _)).symm
        _ ≤ Binary64.nearest (n.val.natAbs * Binary64.unitsOfOne) 1 :=
            Binary64.nearest_mono Nat.one_pos scaled
        _ = whole.natAbs * Binary64.unitsOfOne := magnitudes
    have bounded := Nat.le_of_mul_le_mul_right above positive
    omega
  rw [signedUnits_toBinary64 exactly] at same
  exact Int.eq_of_mul_eq_mul_right (by omega) same

end WideInt

end DataAccess
