import DataAccess.Number.Shortest
import DataAccess.Proofs.Number
import Mathlib.Tactic.Ring

namespace DataAccess.Binary64

variable {units other decimal : Nat}

/-- How far it is to the next representable magnitude. -/
def step (units : Nat) : Nat := powerOfTwo (units.log2 - 52)

/-- Powers of two, where the step becomes wider. -/
def Widens (units : Nat) : Prop :=
  units = powerOfTwo (units.log2 - 52 + 52) ∧ units.log2 - 52 ≠ 0

instance (units : Nat) : Decidable (Widens units) :=
  inferInstanceAs (Decidable (_ ∧ _))

theorem step_pos (units : Nat) : 0 < step units := powerOfTwo_pos _

theorem step_le (nonzero : units ≠ 0) : step units ≤ units :=
  calc step units
      ≤ powerOfTwo units.log2 := powerOfTwo_mono (Nat.sub_le _ _)
    _ ≤ units := Nat.log2_self_le nonzero

section

variable (significant : Significant units) (otherSignificant : Significant other)
variable (below : units < other)

include significant otherSignificant below

theorem add_step_le : units + step units ≤ other := by
  have shifts : units.log2 - 52 ≤ other.log2 - 52 :=
    Nat.sub_le_sub_right (log2_mono (Nat.le_of_lt below)) 52
  have divides : step units ∣ other := Nat.dvd_trans (powerOfTwo_dvd shifts) otherSignificant
  have apart := Nat.le_of_dvd (by omega) (Nat.dvd_sub divides significant)
  omega

theorem add_step_le_of_not_widens (steady : ¬Widens other) : units + step other ≤ other := by
  by_cases least : other.log2 - 52 = 0
  · have one : step other = 1 := by
      rw [step, least]
      rfl
    omega
  rcases Nat.lt_or_eq_of_le (log2_mono (Nat.le_of_lt below)) with smaller | alike
  · have size : other.log2 - 52 + 52 = other.log2 := by omega
    have between : powerOfTwo other.log2 < other := by
      have nonzero : other ≠ 0 := by omega
      refine Nat.lt_of_le_of_ne (Nat.log2_self_le nonzero) fun same => steady ⟨?_, least⟩
      rw [size]
      exact same.symm
    have low : units < powerOfTwo other.log2 := by
      by_cases zero : units = 0
      · exact zero ▸ powerOfTwo_pos _
      · exact (log2_lt_iff zero).mp smaller
    have divides : step other ∣ powerOfTwo other.log2 := powerOfTwo_dvd (Nat.sub_le _ _)
    have apart := Nat.le_of_dvd (by omega) (Nat.dvd_sub otherSignificant divides)
    rw [step] at *
    omega
  · have same : step units = step other := by rw [step, step, alike]
    rw [← same]
    exact add_step_le significant otherSignificant below

/-- Below a power of two the step is half as wide. -/
theorem add_half_step_le (widens : Widens other) : 2 * units + step other ≤ 2 * other := by
  obtain ⟨power, wide⟩ := widens
  obtain ⟨shift, shifted⟩ := Nat.exists_eq_succ_of_ne_zero wide
  rw [shifted] at power
  have double : step other = powerOfTwo shift + powerOfTwo shift := by
    rw [step, shifted, powerOfTwo_succ]
  have halves : other = powerOfTwo (shift + 52) + powerOfTwo (shift + 52) := by
    rw [power, ← powerOfTwo_succ]
  have small : powerOfTwo shift ≤ powerOfTwo (shift + 52) := powerOfTwo_mono (by omega)
  by_cases low : units < powerOfTwo (shift + 52)
  · omega
  · have size : units.log2 = shift + 52 := by
      have nonzero : units ≠ 0 := by
        have := powerOfTwo_pos (shift + 52)
        omega
      have upper : units.log2 < shift + 53 := (log2_lt_iff nonzero).mpr (by
        rw [powerOfTwo_succ]
        omega)
      have lower : ¬units.log2 < shift + 52 := fun less => low ((log2_lt_iff nonzero).mp less)
      omega
    have next := add_step_le significant otherSignificant below
    rw [step, size, Nat.add_sub_cancel] at next
    omega

end

/-- Four times the least magnitude that rounds to this one. -/
def lowerEnd (units : Nat) : Nat :=
  if Widens units then 4 * units - step units else 4 * units - 2 * step units

/-- Four times the greatest magnitude that rounds to this one. -/
def upperEnd (units : Nat) : Nat := 4 * units + 2 * step units

theorem powerOfFive_pos (exponent : Nat) : 0 < Nat.pow 5 exponent := Nat.pow_pos (by decide)

/-- The scale itself is never computed. -/
theorem exists_scale : ∃ scale, 0 < scale ∧ ∀ units, exactDecimal units = units * scale :=
  ⟨_, powerOfFive_pos _, fun _ => rfl⟩

theorem exactDecimal_le_iff : exactDecimal units ≤ exactDecimal other ↔ units ≤ other := by
  obtain ⟨scale, positive, scaled⟩ := exists_scale
  rw [scaled, scaled, Nat.mul_le_mul_right_iff positive]

theorem exactDecimal_lt_iff : exactDecimal units < exactDecimal other ↔ units < other := by
  obtain ⟨scale, positive, scaled⟩ := exists_scale
  rw [scaled, scaled, Nat.mul_lt_mul_right positive]

theorem exactDecimal_fourfold (units : Nat) : exactDecimal (4 * units) = 4 * exactDecimal units := by
  obtain ⟨scale, -, scaled⟩ := exists_scale
  rw [scaled, scaled, Nat.mul_assoc]

theorem readsBack_iff : readsBack units decimal = true ↔
    (exactDecimal (lowerEnd units) < 4 * decimal ∧ 4 * decimal < exactDecimal (upperEnd units)) ∨
      units / step units % 2 = 0 ∧ (4 * decimal = exactDecimal (lowerEnd units) ∨
        4 * decimal = exactDecimal (upperEnd units)) := by
  have unfolded : readsBack units decimal =
      ((decide (exactDecimal (lowerEnd units) < 4 * decimal) &&
          decide (4 * decimal < exactDecimal (upperEnd units))) ||
        ((units / step units) % 2 == 0 && (4 * decimal == exactDecimal (lowerEnd units) ||
          4 * decimal == exactDecimal (upperEnd units)))) := rfl
  simp [unfolded]

theorem lowerEnd_lt (nonzero : units ≠ 0) : lowerEnd units < 4 * units := by
  have positive := step_pos units
  unfold lowerEnd
  split <;> omega

theorem lowerEnd_pos (nonzero : units ≠ 0) : 0 < lowerEnd units := by
  have small := step_le nonzero
  unfold lowerEnd
  split <;> omega

theorem readsBack_exact (nonzero : units ≠ 0) : readsBack units (exactDecimal units) = true := by
  rw [readsBack_iff, ← exactDecimal_fourfold, exactDecimal_lt_iff, exactDecimal_lt_iff]
  refine .inl ⟨lowerEnd_lt nonzero, ?_⟩
  have positive := step_pos units
  rw [upperEnd]
  omega

theorem ne_zero_of_readsBack (nonzero : units ≠ 0) (reads : readsBack units decimal = true) :
    decimal ≠ 0 := by
  have positive : exactDecimal 0 < exactDecimal (lowerEnd units) :=
    exactDecimal_lt_iff.mpr (lowerEnd_pos nonzero)
  have wide : exactDecimal (lowerEnd units) < exactDecimal (upperEnd units) :=
    exactDecimal_lt_iff.mpr (Nat.lt_of_lt_of_le (lowerEnd_lt nonzero) (Nat.le_add_right _ _))
  rcases readsBack_iff.mp reads with ⟨low, _⟩ | ⟨_, low | high⟩ <;> omega

theorem bounds_of_readsBack (nonzero : units ≠ 0) (reads : readsBack units decimal = true) :
    exactDecimal (lowerEnd units) ≤ 4 * decimal ∧ 4 * decimal ≤ exactDecimal (upperEnd units) := by
  have wide : exactDecimal (lowerEnd units) < exactDecimal (upperEnd units) :=
    exactDecimal_lt_iff.mpr (Nat.lt_of_lt_of_le (lowerEnd_lt nonzero) (Nat.le_add_right _ _))
  rcases readsBack_iff.mp reads with ⟨low, high⟩ | ⟨_, low | high⟩ <;> omega

theorem even_of_readsBack (reads : readsBack units decimal = true)
    (atEnd : 4 * decimal = exactDecimal (lowerEnd units) ∨
      4 * decimal = exactDecimal (upperEnd units)) : units / step units % 2 = 0 := by
  rcases readsBack_iff.mp reads with ⟨low, high⟩ | ⟨even, _⟩
  · omega
  · exact even

section

variable (significant : Significant units) (otherSignificant : Significant other)
variable (below : units < other)

include significant otherSignificant below

theorem upperEnd_le_middle : upperEnd units ≤ 2 * (units + other) := by
  have next := add_step_le significant otherSignificant below
  rw [upperEnd]
  omega

theorem middle_le_lowerEnd : 2 * (units + other) ≤ lowerEnd other := by
  unfold lowerEnd
  split
  · rename_i widens
    have previous := add_half_step_le significant otherSignificant below widens
    omega
  · rename_i steady
    have previous := add_step_le_of_not_widens significant otherSignificant below steady
    omega

/-- Where their ends meet, two magnitudes are neighbours, and one of them is odd. -/
theorem odd_of_meeting (meet : upperEnd units = lowerEnd other) :
    ¬(units / step units % 2 = 0 ∧ other / step other % 2 = 0) := by
  have upper := upperEnd_le_middle significant otherSignificant below
  have lower := middle_le_lowerEnd significant otherSignificant below
  have middle : lowerEnd other = 2 * (units + other) := by omega
  have next : units + step units = other := by
    have reached : upperEnd units = 2 * (units + other) := by omega
    rw [upperEnd] at reached
    omega
  have counted : other / step units = units / step units + 1 := by
    rw [← next, Nat.add_div_right _ (step_pos units)]
  unfold lowerEnd at middle
  split at middle
  · -- A power of two is even in steps of its own and in half steps.
    rename_i widens
    have double : step other = 2 * step units := by omega
    have whole : other = step units * (2 * powerOfTwo 52) := by
      calc other = powerOfTwo (other.log2 - 52 + 52) := widens.1
        _ = step other * powerOfTwo 52 := powerOfTwo_add _ _
        _ = step units * (2 * powerOfTwo 52) := by rw [double]; ring
    have even : other / step units = 2 * powerOfTwo 52 := by
      conv_lhs => rw [whole]
      exact Nat.mul_div_cancel_left _ (step_pos units)
    omega
  · have same : step other = step units := by omega
    rw [same]
    omega

theorem not_readsBack_both (nonzero : units ≠ 0) (reads : readsBack units decimal = true) :
    ¬readsBack other decimal = true := by
  intro otherReads
  have upper := upperEnd_le_middle significant otherSignificant below
  have lower := middle_le_lowerEnd significant otherSignificant below
  have ends : exactDecimal (upperEnd units) ≤ exactDecimal (lowerEnd other) :=
    exactDecimal_le_iff.mpr (Nat.le_trans upper lower)
  have under := (bounds_of_readsBack nonzero reads).2
  have above := (bounds_of_readsBack (by omega) otherReads).1
  have meet : upperEnd units = lowerEnd other := by
    refine Nat.le_antisymm (Nat.le_trans upper lower) (exactDecimal_le_iff.mp ?_)
    omega
  exact odd_of_meeting significant otherSignificant below meet
    ⟨even_of_readsBack reads (.inr (by omega)), even_of_readsBack otherReads (.inl (by omega))⟩

end

theorem eq_of_readsBack (significant : Significant units) (otherSignificant : Significant other)
    (nonzero : units ≠ 0) (otherNonzero : other ≠ 0) (reads : readsBack units decimal = true)
    (otherReads : readsBack other decimal = true) : units = other := by
  rcases Nat.lt_trichotomy units other with below | same | above
  · exact absurd otherReads
      (not_readsBack_both significant otherSignificant below nonzero reads)
  · exact same
  · exact absurd reads
      (not_readsBack_both otherSignificant significant above otherNonzero otherReads)

/-- The decimals read back span more than a part in `2^51` of the magnitude. -/
theorem lt_span (nonzero : units ≠ 0) :
    units + powerOfTwo 51 * lowerEnd units < powerOfTwo 51 * upperEnd units := by
  have below : units < powerOfTwo 53 * step units := by
    rw [step, ← powerOfTwo_add]
    exact Nat.lt_of_lt_of_le (lt_powerOfTwo_log2 units) (powerOfTwo_mono (by omega))
  have small := step_le nonzero
  have size : powerOfTwo 53 = 4 * powerOfTwo 51 := by decide
  have half : powerOfTwo 52 = 2 * powerOfTwo 51 := by decide
  have positive := Nat.mul_pos (powerOfTwo_pos 51) (step_pos units)
  unfold lowerEnd upperEnd
  split
  · rename_i widens
    have power : units = powerOfTwo 52 * step units := by
      conv_lhs => rw [widens.1, Nat.add_comm, powerOfTwo_add]
      rfl
    rw [half] at power
    have lower : 4 * units - step units + 3 * step units = 4 * units + 2 * step units := by omega
    rw [← lower, Nat.mul_add]
    have width : powerOfTwo 51 * (3 * step units) = 3 * (powerOfTwo 51 * step units) := by ring
    rw [Nat.mul_assoc] at power
    omega
  · have lower : 4 * units - 2 * step units + 4 * step units = 4 * units + 2 * step units := by
      omega
    rw [← lower, Nat.mul_add]
    have width : powerOfTwo 51 * (4 * step units) = 4 * (powerOfTwo 51 * step units) := by ring
    rw [size, Nat.mul_assoc] at below
    omega

theorem accepts_of_nearestMultiple {accepts : Nat → Bool} {exact grid : Nat}
    (found : nearestMultiple? accepts exact grid = some decimal) : accepts decimal = true := by
  unfold nearestMultiple? at found
  extract_lets low high at found
  clear_value low high
  split at found
  · rename_i lowAccepted highAccepted
    split_ifs at found <;> cases found <;> assumption
  · cases found
    assumption
  · cases found
    assumption
  · cases found

theorem readsBack_shortestDecimal (nonzero : units ≠ 0) :
    readsBack units (shortestDecimal units) = true := by
  unfold shortestDecimal
  dsimp only
  cases searched : (List.range (Nat.toDigits 10 (exactDecimal units)).length).findSome? fun finer =>
      onGrid? units (powerOfTen ((Nat.toDigits 10 (exactDecimal units)).length - 1 - finer)) with
  | none =>
      rw [Option.getD_none]
      exact readsBack_exact nonzero
  | some found =>
      obtain ⟨_, _, onGrid⟩ := List.exists_of_findSome?_eq_some searched
      rw [Option.getD_some]
      exact accepts_of_nearestMultiple onGrid

theorem shortestDecimal_ne_zero (nonzero : units ≠ 0) : shortestDecimal units ≠ 0 :=
  ne_zero_of_readsBack nonzero (readsBack_shortestDecimal nonzero)

theorem shortestDecimal_injective (significant : Significant units)
    (otherSignificant : Significant other) (nonzero : units ≠ 0) (otherNonzero : other ≠ 0)
    (same : shortestDecimal units = shortestDecimal other) : units = other := by
  have reads := readsBack_shortestDecimal nonzero
  have otherReads := readsBack_shortestDecimal otherNonzero
  rw [same] at reads
  exact eq_of_readsBack significant otherSignificant nonzero otherNonzero reads otherReads

theorem nearestMultiple?_isSome {accepts : Nat → Bool} {exact grid : Nat}
    (accepted : accepts (exact / grid * grid) = true ∨
      accepts (exact / grid * grid + grid) = true) :
    (nearestMultiple? accepts exact grid).isSome = true := by
  unfold nearestMultiple?
  dsimp only
  split
  · split_ifs <;> rfl
  · rfl
  · rfl
  · rename_i lowRefused highRefused
    rw [lowRefused, highRefused] at accepted
    simp at accepted

theorem multiple_of_nearestMultiple {accepts : Nat → Bool} {exact grid : Nat}
    (found : nearestMultiple? accepts exact grid = some decimal) :
    ∃ factor, decimal = factor * grid ∧ factor ≤ exact / grid + 1 := by
  have either : decimal = exact / grid * grid ∨ decimal = exact / grid * grid + grid := by
    unfold nearestMultiple? at found
    dsimp only at found
    generalize exact / grid * grid = low at found ⊢
    split at found
    · split_ifs at found <;> cases found <;> first | exact .inl rfl | exact .inr rfl
    · cases found
      exact .inl rfl
    · cases found
      exact .inr rfl
    · cases found
  rcases either with low | high
  · exact ⟨_, low, Nat.le_succ _⟩
  · exact ⟨_, high.trans (Nat.succ_mul _ _).symm, Nat.le_refl _⟩

/-- A grid of seventeen significant digits is fine enough for one of the two multiples. -/
theorem onGrid?_isSome (nonzero : units ≠ 0) {grid : Nat} (positive : 0 < grid)
    (fine : grid * powerOfTen 16 ≤ exactDecimal units) : (onGrid? units grid).isSome = true := by
  apply nearestMultiple?_isSome
  simp only [readsBack_iff]
  by_contra refused
  obtain ⟨scale, scalePos, scaled⟩ := exists_scale
  have parts := Nat.div_add_mod' (exactDecimal units) grid
  have rest := Nat.mod_lt (exactDecimal units) positive
  have inside : exactDecimal (lowerEnd units) < 4 * exactDecimal units ∧
      4 * exactDecimal units < exactDecimal (upperEnd units) := by
    have positive := step_pos units
    rw [← exactDecimal_fourfold, exactDecimal_lt_iff, exactDecimal_lt_iff, upperEnd]
    exact ⟨lowerEnd_lt nonzero, by omega⟩
  have span := Nat.mul_lt_mul_of_pos_right (lt_span nonzero) scalePos
  have wide : exactDecimal (upperEnd units) ≤ exactDecimal (lowerEnd units) + 4 * grid := by omega
  have bounded := Nat.mul_le_mul_left (powerOfTwo 51) wide
  rw [Nat.add_mul, Nat.mul_assoc, Nat.mul_assoc, ← scaled, ← scaled, ← scaled] at span
  have ten : powerOfTwo 51 * (4 * grid) < grid * powerOfTen 16 := by
    have sizes : powerOfTwo 51 * 4 < powerOfTen 16 := by decide
    rw [← Nat.mul_assoc, Nat.mul_comm]
    exact Nat.mul_lt_mul_of_pos_left sizes positive
  rw [Nat.mul_add] at bounded
  omega

theorem findSome?_range (found : Nat → Option Nat) {index bound : Nat} (inside : index < bound)
    (isSome : (found index).isSome = true) :
    ∃ first ≤ index, ∃ value, found first = some value ∧
      (List.range bound).findSome? found = some value := by
  have early : ((List.range (index + 1)).findSome? found).isSome = true :=
    List.findSome?_isSome_iff.mpr ⟨index, List.mem_range.mpr (Nat.lt_succ_self index), isSome⟩
  obtain ⟨value, searched⟩ := Option.isSome_iff_exists.mp early
  obtain ⟨first, member, hit⟩ := List.exists_of_findSome?_eq_some searched
  refine ⟨first, Nat.le_of_lt_succ (List.mem_range.mp member), value, hit, ?_⟩
  have split : bound = index + 1 + (bound - (index + 1)) := by omega
  rw [split, List.range_add, List.findSome?_append, searched]
  rfl

/-- A shortest decimal has at most seventeen significant digits. -/
theorem exists_short (nonzero : units ≠ 0) : ∃ factor exponent,
    shortestDecimal units = factor * powerOfTen exponent ∧ factor ≤ powerOfTen 17 := by
  have length_le {length : Nat} (positive : 0 < length) :
      (Nat.toDigits 10 (exactDecimal units)).length ≤ length ↔
        exactDecimal units < powerOfTen length :=
    Nat.length_toDigits_le_iff (by decide) positive
  have long : 16 < (Nat.toDigits 10 (exactDecimal units)).length := by
    have wide : powerOfTen 16 ≤ exactDecimal units := by
      have scale : powerOfTen 16 ≤ exactDecimal 1 := by decide +kernel
      exact Nat.le_trans scale (exactDecimal_le_iff.mpr (Nat.pos_of_ne_zero nonzero))
    refine Nat.lt_of_not_le fun short => ?_
    exact absurd ((length_le (by decide)).mp short) (Nat.not_lt.mpr wide)
  unfold shortestDecimal
  dsimp only
  generalize lengthIs : (Nat.toDigits 10 (exactDecimal units)).length = length at length_le long
  have below : exactDecimal units < powerOfTen length := (length_le (by omega)).mp (Nat.le_refl _)
  have fine : powerOfTen (length - 1 - 16) * powerOfTen 16 ≤ exactDecimal units := by
    rw [← powerOfTen_add]
    refine Nat.le_of_not_lt fun less => ?_
    have := (length_le (by omega)).mpr less
    omega
  obtain ⟨finer, early, decimal, onGrid, searched⟩ := findSome?_range
    (fun finer => onGrid? units (powerOfTen (length - 1 - finer))) long
    (onGrid?_isSome nonzero (powerOfTen_pos _) fine)
  rw [searched, Option.getD_some]
  obtain ⟨factor, multiple, bounded⟩ := multiple_of_nearestMultiple onGrid
  refine ⟨factor, _, multiple, Nat.le_trans bounded ?_⟩
  refine (Nat.div_lt_iff_lt_mul (powerOfTen_pos _)).mpr (Nat.lt_of_lt_of_le below ?_)
  rw [← powerOfTen_add]
  exact powerOfTen_mono (by omega)

/-- The units of the greatest finite number. -/
def greatest : Nat := (powerOfTwo 53 - 1) * powerOfTwo 2045

/-- The shortest decimal of the greatest finite number, in whole numbers. -/
def greatestDecimal : Nat := 17976931348623157 * powerOfTen 292

theorem significant_greatest : Significant greatest :=
  @significant_of_factor (powerOfTwo 53 - 1) 2045 (Nat.sub_le _ _)

theorem le_greatest (representable : Representable units) : units ≤ greatest := by
  refine Nat.le_of_not_lt fun above => ?_
  have next := add_step_le significant_greatest representable.2 above
  have beyond : greatest + step greatest = limit := by decide +kernel
  have bounded := representable.1
  omega

/-- No shortest decimal is greater than that of the greatest number. -/
theorem shortestDecimal_le (representable : Representable units) (nonzero : units ≠ 0) :
    shortestDecimal units ≤ greatestDecimal * powerOfTen 1074 := by
  rcases Nat.lt_or_eq_of_le (le_greatest representable) with below | same
  · have bound := (bounds_of_readsBack nonzero (readsBack_shortestDecimal nonzero)).2
    have steady : ¬Widens greatest := by decide +kernel
    have previous := add_step_le_of_not_widens representable.2 significant_greatest below steady
    have middle := upperEnd_le_middle representable.2 significant_greatest below
    have far : upperEnd units ≤ 4 * greatest - 2 * step greatest := by omega
    have near : exactDecimal (4 * greatest - 2 * step greatest) ≤
        4 * (greatestDecimal * powerOfTen 1074) := by decide +kernel
    have ends := exactDecimal_le_iff.mpr far
    omega
  · have evaluated : shortestDecimal greatest = greatestDecimal * powerOfTen 1074 := by
      decide +kernel
    rw [same, evaluated]

end DataAccess.Binary64
