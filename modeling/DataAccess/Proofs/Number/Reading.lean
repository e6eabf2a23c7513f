import DataAccess.Proofs.Number.Layout
import DataAccess.Proofs.Numeral

/-!
# Reading numbers back

The text of a number is a numeral that JSON allows, and reading it gives a number again: the same one
if it is an integer. A float may come back as one of its neighbours, but never as no number at all:
its text has at most seventeen digits, which fit a word, and what they are scaled to stays below the
limit, which is checked for each power of ten.
-/

namespace DataAccess

namespace Binary64

variable {numerator denominator digits other power : Nat}

theorem ofQuotient?_isSome {negative : Bool}
    (bounded : nearest (numerator * unitsOfOne) denominator < limit) :
    (ofQuotient? negative numerator denominator).isSome = true := by
  simp [ofQuotient?, bounded]

theorem unitsOfTen_mono {low high : Nat} (ordered : low ≤ high) :
    unitsOfTen low ≤ unitsOfTen high :=
  nearest_mono Nat.one_pos (Nat.mul_le_mul_right _ (powerOfTen_mono ordered))

theorem unitsOfOne_le_unitsOfTen (power : Nat) : unitsOfOne ≤ unitsOfTen power := by
  have least : nearest (1 * unitsOfOne) 1 = 1 * unitsOfOne := nearest_of_small (by decide)
  have one : powerOfTen 0 = 1 := rfl
  calc unitsOfOne
      = unitsOfTen 0 := by rw [unitsOfTen, one, least, Nat.one_mul]
    _ ≤ unitsOfTen power := unitsOfTen_mono (Nat.zero_le power)

theorem over?_isSome (x : Binary64) (power : Nat) : (x.over? power).isSome = true := by
  have one := unitsOfOne_le_unitsOfTen power
  have positive : 0 < unitsOfTen power := Nat.lt_of_lt_of_le unitsOfOne_pos one
  apply ofQuotient?_isSome
  calc nearest (x.units * unitsOfOne) (unitsOfTen power)
      ≤ nearest (x.units * unitsOfTen power) (unitsOfTen power) :=
        nearest_mono positive (Nat.mul_le_mul_left _ one)
    _ = x.units := nearest_of_significant positive x.representable.2
    _ < limit := x.representable.1

/-- Division never leaves the finite numbers. -/
theorem lowered?_isSome (x : Binary64) (power : Nat) : (x.lowered? power).isSome = true := by
  fun_induction lowered? x power with
  | case1 x power single => exact x.over?_isSome power
  | case2 => rfl
  | case3 x power many nonzero ih =>
      obtain ⟨quotient, divided⟩ := Option.isSome_iff_exists.mp (x.over?_isSome greatestPower)
      rw [divided]
      exact ih quotient

/-- The rounded product of a rounded integer and a power of ten, in units. -/
def product (digits power : Nat) : Nat :=
  nearest (nearest (digits * unitsOfOne) 1 * unitsOfTen power * unitsOfOne)
    (unitsOfOne * unitsOfOne)

theorem product_mono {low high : Nat} (ordered : digits ≤ other) (powers : low ≤ high) :
    product digits low ≤ product other high :=
  nearest_mono (Nat.mul_pos unitsOfOne_pos unitsOfOne_pos)
    (Nat.mul_le_mul_right _ (Nat.mul_le_mul
      (nearest_mono Nat.one_pos (Nat.mul_le_mul_right _ ordered)) (unitsOfTen_mono powers)))

/-- No bound on the error of three roundings is narrow enough here, so every power is tried. -/
theorem product_greatest_lt : ∀ less < 18,
    product (greatestDecimal / powerOfTen (less + 291)) (less + 291) < limit := by
  decide +kernel

theorem product_lt (short : digits < powerOfTen 18) (single : power ≤ greatestPower)
    (bounded : digits * powerOfTen power ≤ greatestDecimal) : product digits power < limit := by
  by_cases small : power ≤ 290
  · have far : product (powerOfTen 18) 290 < limit := by decide +kernel
    exact Nat.lt_of_le_of_lt (product_mono (Nat.le_of_lt short) small) far
  · obtain ⟨less, rfl⟩ := Nat.exists_eq_add_of_le' (Nat.lt_of_not_le small)
    have quotient := (Nat.le_div_iff_mul_le (powerOfTen_pos _)).mpr bounded
    refine Nat.lt_of_le_of_lt (product_mono quotient (Nat.le_refl _)) (product_greatest_lt less ?_)
    rw [greatestPower] at single
    omega

/-- Digits of up to eighteen places are scaled without leaving the finite numbers. -/
theorem raised?_isSome (negative : Bool) (word : digits < powerOfTwo 64)
    (short : digits < powerOfTen 18) (bounded : digits * powerOfTen power ≤ greatestDecimal) :
    ((ofMagnitude negative digits word).raised? power).isSome = true := by
  unfold raised?
  split
  · rename_i single
    exact ofQuotient?_isSome (product_lt short single bounded)
  · rename_i many
    have beyond : greatestDecimal < powerOfTen (greatestPower + 1) := by decide +kernel
    have wide : powerOfTen (greatestPower + 1) ≤ powerOfTen power :=
      powerOfTen_mono (Nat.lt_of_not_le many)
    generalize powerOfTen (greatestPower + 1) = ten at beyond wide
    have nothing : digits = 0 := by
      refine Nat.eq_zero_of_not_pos fun positive => ?_
      have above := Nat.le_trans wide (Nat.le_mul_of_pos_left (powerOfTen power) positive)
      exact absurd (Nat.le_trans above bounded) (Nat.not_le.mpr beyond)
    have zero : (ofMagnitude negative digits word).units = 0 := by
      change nearest (digits * unitsOfOne) 1 = 0
      rw [nothing, nearest_of_small (Nat.zero_le _), Nat.zero_mul]
    rw [if_pos zero]
    rfl

end Binary64

namespace Numeral

open Binary64

variable {n : Numeral}

theorem le_ofDigitChars (digits : List Char) (start : Nat) :
    start ≤ Nat.ofDigitChars 10 digits start := by
  rw [Nat.ofDigitChars_eq_ofDigitChars_zero]
  exact Nat.le_trans (Nat.le_mul_of_pos_left _ (powerOfTen_pos digits.length))
    (Nat.le_add_right _ _)

/-- Nothing is left out of what fits a word. -/
theorem gather_of_lt {start : Nat} {digits : List Char} (word : start < powerOfTwo 64)
    (fits : Nat.ofDigitChars 10 digits start < powerOfTwo 64) :
    gather ⟨start, word⟩ digits = (⟨Nat.ofDigitChars 10 digits start, fits⟩, 0) := by
  induction digits generalizing start with
  | nil => rfl
  | cons c rest ih =>
      have first : Nat.ofDigitChars 10 [c] start < powerOfTwo 64 :=
        Nat.lt_of_le_of_lt (le_ofDigitChars rest _) fits
      rw [gather, dif_pos first]
      exact ih first fits

theorem approximate?_of_lt (fits : n.digits < powerOfTwo 64) :
    n.approximate? = (ofMagnitude n.isNegative n.digits fits).scaled? n.scale := by
  have joined : n.digits = Nat.ofDigitChars 10 n.fractionDigits (Nat.ofDigitChars 10 n.whole 0) :=
    Nat.ofDigitChars_append 0
  have all := joined ▸ fits
  have wholeFits := Nat.lt_of_le_of_lt (le_ofDigitChars n.fractionDigits _) all
  simp only [approximate?, gather_of_lt _ wholeFits, gather_of_lt wholeFits all, joined,
    Int.natCast_zero, Int.add_zero]

theorem approximate?_isSome (short : n.digits < powerOfTen 18)
    (bounded : ∀ power : Nat, n.scale = power →
      n.digits * powerOfTen power ≤ greatestDecimal) : n.approximate?.isSome = true := by
  rw [approximate?_of_lt (Nat.lt_trans short (by decide))]
  cases scale : n.scale with
  | ofNat power => exact raised?_isSome _ _ short (bounded power scale)
  | negSucc less => exact lowered?_isSome _ _

/-- With one more in the seventeenth place the bound is missed, and the numeral is refused though a
finite number is nearest to it. -/
example : (read? "1.7976931348623158e308".toList).map
    (fun n => (n.approximate?.isSome, n.toBinary64?.isSome)) = some (false, true) := by
  decide +kernel

end Numeral

namespace Binary64

variable {decimal power : Nat}

/-- What `digits · 10^scale` is in units of `10^-1074`. -/
def Denotes (digits : Nat) (scale : Int) (decimal : Nat) : Prop :=
  ∃ up down : Nat, scale + 1074 = up - down ∧ digits * powerOfTen up = decimal * powerOfTen down

/-- A numeral of a magnitude `d.ddd · 10^exponent`, whatever its sign will be. -/
structure Spells (n : Numeral) (digits : List Char) (exponent : Int) : Prop where
  regular : n.Regular
  unsigned : n.sign = none
  marked : n.isInteger = false
  text : n.written = layout digits exponent
  value : ∃ count, n.digits = Nat.ofDigitChars 10 digits 0 * powerOfTen count ∧
    n.scale + count = exponent + 1 - digits.length ∧ (count = 0 ∨ n.digits < powerOfTen 17)

theorem lt_length_positionalText (digits : List Char) (above : Nat) :
    above + 2 < (positionalText digits (.ofNat above)).length := by
  have filled : 0 < (if (digits.drop (above + 1)).isEmpty then ['0']
      else digits.drop (above + 1)).length := by
    split
    · exact Nat.one_pos
    · rename_i remaining
      exact List.length_pos_iff.mpr (by simpa using remaining)
  simp only [positionalText, List.length_append, List.length_cons, List.length_replicate]
  omega

namespace Positional

variable {digits whole fraction : List Char} {exponent : Int}

theorem leading (shape : Positional digits exponent whole fraction)
    (significand : Significand digits) :
    whole ≠ [] ∧ ∀ rest, whole = '0' :: rest → rest = [] := by
  obtain ⟨lead, others, rfl, leads⟩ := significand.leads
  cases shape with
  | whole length padded =>
      cases whole with
      | nil => cases length
      | cons first tail =>
          refine ⟨List.cons_ne_nil _ _, fun rest zero => ?_⟩
          rw [zero] at padded
          exact (leads (List.cons.inj padded).1.symm).elim
  | fraction below =>
      refine ⟨List.cons_ne_nil _ _, fun rest zero => ?_⟩
      exact (List.cons.inj zero).2.symm

theorem filled (shape : Positional digits exponent whole fraction)
    (significand : Significand digits)
    (text : positionalText digits exponent = whole ++ '.' :: fraction) : fraction ≠ [] := by
  cases shape with
  | @whole above _ _ _ length padded =>
      have longer := lt_length_positionalText digits above
      rw [text, List.length_append, List.length_cons, length] at longer
      rintro rfl
      simp at longer
  | fraction below =>
      obtain ⟨lead, others, rfl, _⟩ := significand.leads
      simp

theorem value (shape : Positional digits exponent whole fraction) :
    ∃ count : Nat, Nat.ofDigitChars 10 (whole ++ fraction) 0 =
        Nat.ofDigitChars 10 digits 0 * powerOfTen count ∧
      -(fraction.length : Int) + count = exponent + 1 - digits.length ∧
      (count = 0 ∨ ((whole ++ fraction).length : Int) = exponent + 2) := by
  cases shape with
  | @whole above count _ _ length padded needed =>
      have lengths := congrArg List.length padded
      rw [List.length_append, List.length_append, List.length_replicate] at lengths
      rw [Int.ofNat_eq_natCast, List.length_append]
      refine ⟨count, ?_, by omega, needed.imp_right fun single => by omega⟩
      rw [padded, Nat.ofDigitChars_append, Nat.ofDigitChars_replicate_zero, Nat.mul_comm]
      rfl
  | fraction below =>
      refine ⟨0, ?_, ?_, .inl rfl⟩
      · have zeros : ['0'] ++ (List.replicate below '0' ++ digits) =
            List.replicate (below + 1) '0' ++ digits := rfl
        rw [zeros, Nat.ofDigitChars_append, Nat.ofDigitChars_replicate_zero]
        exact (Nat.mul_one _).symm
      · rw [List.length_append, List.length_replicate, Int.negSucc_eq]
        push_cast
        omega

end Positional

/-- An exponent as it is written, with a sign in any case. -/
def exponentMark (exponent : Int) : Option Char × List Char :=
  (some (if exponent < 0 then '-' else '+'), Nat.toDigits 10 exponent.natAbs)

theorem exponentMark_regular (exponent : Int) :
    ((exponentMark exponent).1 = none ∨ (exponentMark exponent).1 = some '-' ∨
      (exponentMark exponent).1 = some '+') ∧ Numeral.AreDigits (exponentMark exponent).2 := by
  refine ⟨.inr ?_, Numeral.areDigits_ofNat exponent.natAbs⟩
  rw [exponentMark]
  split
  · exact .inl rfl
  · exact .inr rfl

theorem scale_exponentMark {n : Numeral} {exponent : Int}
    (marked : n.exponent = some (exponentMark exponent)) :
    n.scale = exponent - n.fractionDigits.length := by
  have magnitude : Nat.ofDigitChars 10 (Nat.toDigits 10 exponent.natAbs) 0 = exponent.natAbs :=
    Nat.ofDigitChars_ten_toDigits
  have signed : (if some (if exponent < 0 then '-' else '+') = some '-' then
      -(exponent.natAbs : Int) else exponent.natAbs) = exponent := by
    split
    · simp only [↓reduceIte]
      omega
    · simp
      omega
  simp only [Numeral.scale, marked, exponentMark, magnitude, signed]

section

variable {digits : List Char} (significand : Significand digits) (exponent : Int)

include significand

theorem exists_positional (positional : isPositional exponent = true) :
    ∃ n, Spells n digits exponent := by
  obtain ⟨whole, fraction, text, shape⟩ := positionalText_eq digits exponent
  have each := shape.areDigits significand
  obtain ⟨nonempty, lead⟩ := shape.leading significand
  have filled := shape.filled significand text
  obtain ⟨count, digitsEq, scaleEq, padded⟩ := shape.value
  refine ⟨{ whole, fraction := some fraction }, ?_, rfl, rfl, ?_, count, digitsEq, ?_, ?_⟩
  · refine ⟨.inl rfl, ⟨nonempty, fun c member => each c (List.mem_append_left _ member)⟩, lead, ?_,
      nofun⟩
    rintro _ ⟨⟩
    exact ⟨filled, fun c member => each c (List.mem_append_right _ member)⟩
  · rw [layout, if_pos positional, text]
    simp [Numeral.written, Numeral.fractionText, Numeral.exponentText]
  · rw [← scaleEq]
    simp [Numeral.scale, Numeral.fractionDigits]
  · refine padded.imp_right fun length => ?_
    have short : (whole ++ fraction).length ≤ 17 := by
      rw [isPositional, Bool.and_eq_true, decide_eq_true_eq, decide_eq_true_eq] at positional
      omega
    have below := Decimal.ofDigitChars_lt each 0
    rw [Nat.zero_add, Nat.one_mul] at below
    exact Nat.lt_of_lt_of_le below (powerOfTen_mono short)

theorem exists_scientific (scientific : isPositional exponent = false) :
    ∃ n, Spells n digits exponent := by
  have each := significand.areDigits
  obtain ⟨lead, rest, rfl, -⟩ := significand.leads
  obtain ⟨fraction, isRest, filled, text⟩ : ∃ fraction : Option (List Char),
      fraction.getD [] = rest ∧ (∀ digits ∈ fraction, digits ≠ []) ∧
        scientificText (lead :: rest) exponent =
          [lead] ++ (Numeral.fractionText fraction ++
            Numeral.exponentText (some (exponentMark exponent))) := by
    cases rest with
    | nil => exact ⟨none, rfl, nofun, rfl⟩
    | cons next others => exact ⟨some (next :: others), rfl, by rintro _ ⟨⟩; simp, rfl⟩
  refine ⟨{ whole := [lead], fraction, exponent := some (exponentMark exponent) },
    ?_, rfl, ?_, ?_, 0, ?_, ?_, .inl rfl⟩
  · refine ⟨.inl rfl, ⟨List.cons_ne_nil _ _, fun c member => each c ?_⟩,
      fun others zero => (List.cons.inj zero).2.symm,
      fun digits member => ⟨filled digits member, ?_⟩, ?_⟩
    · rw [List.mem_singleton.mp member]
      exact List.mem_cons_self
    · have written : fraction = some digits := member
      rw [written, Option.getD_some] at isRest
      rw [isRest]
      exact fun c inRest => each c (List.mem_cons_of_mem _ inRest)
    · rintro _ ⟨⟩
      exact exponentMark_regular exponent
  · simp [Numeral.isInteger]
  · rw [layout, scientific, text]
    rfl
  · simp only [Numeral.digits, Numeral.fractionDigits, isRest]
    exact (Nat.mul_one _).symm
  · rw [scale_exponentMark rfl]
    simp [Numeral.fractionDigits, isRest]

end

theorem exists_spelling {digits : List Char} (significand : Significand digits) (exponent : Int) :
    ∃ n, Spells n digits exponent := by
  cases positional : isPositional exponent with
  | true => exact exists_positional significand exponent positional
  | false => exact exists_scientific significand exponent positional

/-- A text of a decimal denotes this decimal. -/
theorem denotes_of_spells {n : Numeral} (spells : Spells n
    (significantDigits (Nat.toDigits 10 decimal)) ((Nat.toDigits 10 decimal).length - 1 - 1074)) :
    Denotes n.digits n.scale decimal := by
  obtain ⟨count, digits, scale, -⟩ := spells.value
  have padded := significantDigits_append (Nat.toDigits 10 decimal)
  have shorter : (significantDigits (Nat.toDigits 10 decimal)).length ≤
      (Nat.toDigits 10 decimal).length := by
    have lengths := congrArg List.length padded
    rw [List.length_append] at lengths
    omega
  have value := congrArg (Nat.ofDigitChars 10 · 0) padded
  simp only [Nat.ofDigitChars_append, Nat.ofDigitChars_replicate_zero,
    Nat.ofDigitChars_ten_toDigits] at value
  refine ⟨(Nat.toDigits 10 decimal).length -
    (significantDigits (Nat.toDigits 10 decimal)).length, count, by omega, ?_⟩
  rw [digits]
  conv_rhs => rw [← value]
  rw [powerOfTen, powerOfTen]
  simp only [Nat.pow_eq]
  ring

/-- Of a short decimal, a text has so few digits that a word can hold them. -/
theorem digits_lt_of_spells {n : Numeral} {factor places : Nat} {exponent : Int}
    (short : factor ≤ powerOfTen 17) (nonzero : factor ≠ 0)
    (spells : Spells n (significantDigits (Nat.toDigits 10 (factor * powerOfTen places)))
      exponent) : n.digits < powerOfTen 18 := by
  have wider : powerOfTen 17 < powerOfTen 18 := by decide
  obtain ⟨count, digits, -, plain | few⟩ := spells.value
  · rw [plain] at digits
    have significant := significant_le nonzero places
    rw [digits]
    exact Nat.lt_of_le_of_lt (Nat.le_trans (Nat.le_of_eq (Nat.mul_one _)) significant)
      (Nat.lt_of_le_of_lt short wider)
  · exact Nat.lt_trans few wider

/-- What a text of a decimal denotes is no greater than the decimal. -/
theorem mul_le_of_spells {n : Numeral} (limited : decimal ≤ greatestDecimal * powerOfTen 1074)
    (spells : Spells n (significantDigits (Nat.toDigits 10 decimal))
      ((Nat.toDigits 10 decimal).length - 1 - 1074)) (scaled : n.scale = power) :
    n.digits * powerOfTen power ≤ greatestDecimal := by
  obtain ⟨up, down, exponents, value⟩ := denotes_of_spells spells
  have exponent : up = power + 1074 + down := by omega
  rw [exponent, powerOfTen_add, powerOfTen_add, ← Nat.mul_assoc, ← Nat.mul_assoc] at value
  rw [← Nat.eq_of_mul_eq_mul_right (powerOfTen_pos down) value] at limited
  exact Nat.le_of_mul_le_mul_right limited (powerOfTen_pos 1074)

def sign? (x : Binary64) : Option Char := if x.negative then some '-' else none

theorem sign?_regular (x : Binary64) : x.sign? = none ∨ x.sign? = some '-' := by
  unfold sign?
  split
  · exact .inr rfl
  · exact .inl rfl

theorem exists_numeral (x : Binary64) : ∃ n : Numeral, n.Regular ∧ n.isInteger = false ∧
    n.written = x.text ∧ n.approximate?.isSome = true := by
  by_cases zero : x.units = 0
  · have digit : Numeral.AreDigits ['0'] :=
      ⟨List.cons_ne_nil _ _, List.forall_mem_singleton.mpr rfl⟩
    refine ⟨{ sign := x.sign?, whole := ['0'], fraction := some ['0'] },
      ⟨x.sign?_regular, digit, fun _ lead => (List.cons.inj lead).2.symm, ?_, nofun⟩, rfl, ?_, ?_⟩
    · rintro _ ⟨⟩
      exact digit
    · simp only [text, zero, ↓reduceIte, Numeral.written, sign?]
      cases x.negative <;> rfl
    · exact lowered?_isSome _ 1
  · obtain ⟨n, spells⟩ := exists_spelling (significand_toDigits (shortestDecimal_ne_zero zero))
      ((Nat.toDigits 10 (shortestDecimal x.units)).length - 1 - 1074)
    have bounded : ∀ power : Nat, n.scale = power → n.digits * powerOfTen power ≤ greatestDecimal :=
      fun _ => mul_le_of_spells (shortestDecimal_le x.representable zero) spells
    have short : n.digits < powerOfTen 18 := by
      obtain ⟨factor, places, decimal, few⟩ := exists_short zero
      have nonzero : factor ≠ 0 := by
        rintro rfl
        exact shortestDecimal_ne_zero zero (decimal.trans (Nat.zero_mul _))
      exact digits_lt_of_spells few nonzero (decimal ▸ spells)
    obtain ⟨⟨_, whole, lead, fraction, exponent⟩, unsigned, marked, text, _⟩ := spells
    refine ⟨{ n with sign := x.sign? }, ⟨x.sign?_regular, whole, lead, fraction, exponent⟩, marked,
      ?_, Numeral.approximate?_isSome short bounded⟩
    rw [text_eq zero, decimalText, ← text]
    simp only [Numeral.written, unsigned, sign?]
    cases x.negative <;> rfl

end Binary64

namespace Number

theorem ofLiteral?_written {n : Numeral} (regular : n.Regular) :
    ofLiteral? n.written = ofNumeral? n := by
  simp only [ofLiteral?, Numeral.read?_written regular, Numeral.isJson_of_regular regular,
    ↓reduceIte]

/-- An integer is read back from its text. -/
theorem ofLiteral?_ofInt (n : WideInt) : ofLiteral? (Decimal.ofInt n.val) = some (.int n) := by
  obtain ⟨i, lower, upper⟩ := n
  have fits : WideInt.ofInt? i = some ⟨i, lower, upper⟩ := dif_pos ⟨lower, upper⟩
  have integer : (Numeral.ofInteger i).isInteger = true := by cases i <;> rfl
  have notMinusZero : (decide (i < 0) && i.natAbs == 0) = false := by
    simp only [Bool.and_eq_false_iff, decide_eq_false_iff_not, beq_eq_false_iff_ne]
    omega
  have value : (if i < 0 then -(i.natAbs : Int) else i.natAbs) = i := by
    split <;> omega
  rw [← Numeral.written_ofInteger, ofLiteral?_written (Numeral.regular_ofInteger i)]
  simp only [ofNumeral?, integer, Numeral.isNegative_ofInteger, Numeral.digits_ofInteger,
    notMinusZero, decide_eq_true_eq, value, fits]
  rfl

/-- The text of a number is a numeral that denotes a number. -/
theorem exists_numeral (n : Number) : ∃ numeral : Numeral, numeral.Regular ∧
    numeral.written = n.text ∧ (ofLiteral? n.text).isSome = true := by
  cases n with
  | int value =>
      refine ⟨_, Numeral.regular_ofInteger value.val, Numeral.written_ofInteger value.val, ?_⟩
      rw [text, ofLiteral?_ofInt]
      rfl
  | float x =>
      obtain ⟨numeral, regular, marked, written, readable⟩ := x.exists_numeral
      refine ⟨numeral, regular, written, ?_⟩
      rw [text, ← written, ofLiteral?_written regular]
      simpa [ofNumeral?, marked] using readable

/-- What the text of a number is read as. -/
def reread (n : Number) : Number := (ofLiteral? n.text).getD n

theorem ofLiteral?_text (n : Number) : ofLiteral? n.text = some n.reread := by
  obtain ⟨_, _, _, readable⟩ := n.exists_numeral
  obtain ⟨found, read⟩ := Option.isSome_iff_exists.mp readable
  rw [reread, read]
  rfl

theorem reread_int (n : WideInt) : (Number.int n).reread = .int n := by
  rw [reread, text, ofLiteral?_ofInt]
  rfl

end Number

end DataAccess
