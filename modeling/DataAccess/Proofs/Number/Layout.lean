import DataAccess.Proofs.Decimal
import DataAccess.Proofs.Number.Shortest
import Mathlib.Data.List.Basic
import Mathlib.Data.List.DropRight

namespace DataAccess.Binary64

/-- Digits between zeros that do not count. -/
structure Significand (digits : List Char) : Prop where
  areDigits : ∀ c ∈ digits, Decimal.isDigit c = true
  leads : ∃ lead rest, digits = lead :: rest ∧ lead ≠ '0'
  trimmed : significantDigits digits = digits

theorem significantDigits_append_zeros (digits : List Char) (count : Nat) :
    significantDigits (digits ++ List.replicate count '0') = significantDigits digits := by
  have zeros : ∀ c ∈ List.replicate count '0', (c == '0') = true := by
    intro c member
    rw [List.eq_of_mem_replicate member]
    rfl
  rw [significantDigits, List.reverse_append, List.reverse_replicate,
    List.dropWhile_append_of_pos zeros]
  rfl

theorem significantDigits_append (digits : List Char) : significantDigits digits ++
    List.replicate (digits.length - (significantDigits digits).length) '0' = digits := by
  have split : significantDigits digits ++ digits.rtakeWhile (· == '0') = digits :=
    List.rdropWhile_append_rtakeWhile
  have zeros : digits.rtakeWhile (· == '0') =
      List.replicate (digits.length - (significantDigits digits).length) '0' := by
    rw [List.eq_replicate_iff]
    constructor
    · have lengths := congrArg List.length split
      rw [List.length_append] at lengths
      omega
    · intro c member
      exact eq_of_beq (List.mem_rtakeWhile_imp (p := (· == '0')) member)
  rw [← zeros, split]

theorem significand_toDigits {n : Nat} (nonzero : n ≠ 0) :
    Significand (significantDigits (Nat.toDigits 10 n)) := by
  have begins : significantDigits (Nat.toDigits 10 n) <+: Nat.toDigits 10 n :=
    List.rdropWhile_prefix _ _
  obtain ⟨lead, rest, digits, leads⟩ := Decimal.exists_lead nonzero
  rw [Decimal.ofNat] at digits
  refine ⟨?_, ?_, List.rdropWhile_idempotent _ _⟩
  · intro c member
    exact Decimal.isDigit_of_mem_ofNat (begins.subset member)
  · cases significant : significantDigits (Nat.toDigits 10 n) with
    | nil =>
        have zeros := List.rdropWhile_eq_nil_iff.mp significant
        exact absurd (eq_of_beq (zeros lead (digits ▸ List.mem_cons_self))) leads
    | cons first others =>
        rw [significant, digits] at begins
        exact ⟨first, others, rfl, (List.cons_prefix_cons.mp begins).1 ▸ leads⟩

theorem toDigits_mul_powerOfTen {n : Nat} (nonzero : n ≠ 0) (count : Nat) :
    Nat.toDigits 10 (n * powerOfTen count) = Nat.toDigits 10 n ++ List.replicate count '0' := by
  induction count with
  | zero =>
      rw [List.replicate_zero, List.append_nil]
      exact congrArg (Nat.toDigits 10) (Nat.mul_one n)
  | succ count ih =>
      have positive := Nat.mul_pos (Nat.pos_of_ne_zero nonzero) (powerOfTen_pos count)
      have appended : Nat.toDigits 10 (n * powerOfTen count) ++ ['0'] =
          Nat.toDigits 10 (10 * (n * powerOfTen count)) :=
        Nat.toDigits_append_toDigits (b := 10) (d := 0) (by decide) positive (by decide)
      rw [powerOfTen_succ, Nat.mul_left_comm, ← appended, ih, List.replicate_succ',
        List.append_assoc]

/-- The significant digits of a short decimal stand for a short number. -/
theorem significant_le {n : Nat} (nonzero : n ≠ 0) (count : Nat) :
    Nat.ofDigitChars 10 (significantDigits (Nat.toDigits 10 (n * powerOfTen count))) 0 ≤ n := by
  have value := congrArg (Nat.ofDigitChars 10 · 0) (significantDigits_append (Nat.toDigits 10 n))
  simp only [Nat.ofDigitChars_append, Nat.ofDigitChars_replicate_zero,
    Nat.ofDigitChars_ten_toDigits] at value
  rw [toDigits_mul_powerOfTen nonzero, significantDigits_append_zeros]
  conv_rhs => rw [← value]
  exact Nat.le_mul_of_pos_left _ (powerOfTen_pos _)

/-- The text of a magnitude, `d.ddd · 10^exponent` with these digits. -/
def layout (digits : List Char) (exponent : Int) : List Char :=
  if isPositional exponent then positionalText digits exponent
  else scientificText digits exponent

variable {digits others : List Char} {exponent other : Int} {above : Nat}

theorem scientificText_eq (significand : Significand digits) (exponent : Int) :
    ∃ mantissa, scientificText digits exponent = mantissa ++
        'e' :: (if exponent < 0 then '-' else '+') :: Nat.toDigits 10 exponent.natAbs ∧
      'e' ∉ mantissa ∧ mantissa.filter (· != '.') = digits := by
  have kept : digits.filter (· != '.') = digits := by
    refine List.filter_eq_self.mpr fun c member => ?_
    have digit := significand.areDigits c member
    rw [bne_iff_ne]
    rintro rfl
    cases digit
  have unmarked : 'e' ∉ digits := fun member => nomatch significand.areDigits 'e' member
  obtain ⟨lead, rest, rfl, -⟩ := significand.leads
  cases rest with
  | nil => exact ⟨[lead], rfl, unmarked, kept⟩
  | cons next rest =>
      refine ⟨lead :: '.' :: next :: rest, rfl, ?_, ?_⟩
      · simpa using unmarked
      · exact kept

/-- What stands before the point and behind it, when digits are written positionally. -/
inductive Positional (digits : List Char) : Int → List Char → List Char → Prop
  | whole {above count : Nat} {whole fraction : List Char} (length : whole.length = above + 1)
      (padded : whole ++ fraction = digits ++ List.replicate count '0')
      (needed : count = 0 ∨ fraction.length = 1) :
      Positional digits (.ofNat above) whole fraction
  | fraction (below : Nat) :
      Positional digits (.negSucc below) ['0'] (List.replicate below '0' ++ digits)

theorem positionalText_eq (digits : List Char) (exponent : Int) :
    ∃ whole fraction, positionalText digits exponent = whole ++ '.' :: fraction ∧
      Positional digits exponent whole fraction := by
  cases exponent with
  | negSucc below => exact ⟨_, _, rfl, .fraction below⟩
  | ofNat above =>
      have length : (digits.take (above + 1) ++ List.replicate
          (above + 1 - (digits.take (above + 1)).length) '0').length = above + 1 := by
        rw [List.length_append, List.length_replicate, List.length_take]
        omega
      refine ⟨_, _, rfl, ?_⟩
      rcases Nat.lt_or_ge (above + 1) digits.length with longer | shorter
      · have filled : above + 1 - min (above + 1) digits.length = 0 := by omega
        have remaining : (digits.drop (above + 1)).isEmpty = false := by
          rw [List.isEmpty_eq_false_iff, ne_eq, List.drop_eq_nil_iff]
          omega
        refine @Positional.whole digits above 0 _ _ length ?_ (.inl rfl)
        simp [filled, remaining]
      · refine @Positional.whole digits above (above + 1 - digits.length + 1) _ _ length ?_
          (.inr ?_)
        · rw [List.take_of_length_le shorter, List.drop_of_length_le shorter,
            List.replicate_succ', ← List.append_assoc]
          rfl
        · rw [List.drop_of_length_le shorter]
          rfl

theorem zeros_unique {lead otherLead : Char} {rest otherRest : List Char} {count otherCount : Nat}
    (leads : lead ≠ '0') (otherLeads : otherLead ≠ '0')
    (same : List.replicate count '0' ++ lead :: rest =
      List.replicate otherCount '0' ++ otherLead :: otherRest) :
    count = otherCount ∧ lead :: rest = otherLead :: otherRest := by
  have zeros (count : Nat) {lead : Char} (rest : List Char) (leads : lead ≠ '0') :
      (List.replicate count '0' ++ lead :: rest).takeWhile (· == '0') =
        List.replicate count '0' := by
    rw [List.takeWhile_append_of_pos fun c member =>
      beq_iff_eq.mpr (List.eq_of_mem_replicate member)]
    simp [leads]
  have taken := congrArg (List.takeWhile (· == '0')) same
  rw [zeros count rest leads, zeros otherCount otherRest otherLeads] at taken
  have counts := congrArg List.length taken
  rw [List.length_replicate, List.length_replicate] at counts
  rw [taken] at same
  exact ⟨counts, List.append_cancel_left same⟩

namespace Positional

variable {whole fraction otherWhole otherFraction : List Char}

theorem areDigits (positional : Positional digits exponent whole fraction)
    (significand : Significand digits) : ∀ c ∈ whole ++ fraction, Decimal.isDigit c = true := by
  intro c member
  cases positional with
  | whole length padded =>
      rw [padded, List.mem_append] at member
      rcases member with inside | behind
      · exact significand.areDigits c inside
      · rw [List.eq_of_mem_replicate behind]
        rfl
  | fraction below =>
      rw [List.mem_append, List.mem_append, List.mem_singleton] at member
      rcases member with rfl | before | inside
      · rfl
      · rw [List.eq_of_mem_replicate before]
        rfl
      · exact significand.areDigits c inside

/-- A whole part begins with a zero only where all of the number is in the fraction. -/
theorem unique (first : Positional digits exponent whole fraction)
    (second : Positional others other otherWhole otherFraction)
    (significand : Significand digits) (otherSignificand : Significand others)
    (sameWhole : whole = otherWhole) (sameFraction : fraction = otherFraction) :
    digits = others ∧ exponent = other := by
  obtain ⟨lead, rest, isDigits, leads⟩ := significand.leads
  obtain ⟨otherLead, otherRest, areOthers, otherLeads⟩ := otherSignificand.leads
  have joined : whole ++ fraction = otherWhole ++ otherFraction := by rw [sameWhole, sameFraction]
  cases first with
  | whole length padded =>
      cases second with
      | whole otherLength otherPadded =>
          have same := congrArg significantDigits (padded.symm.trans (joined.trans otherPadded))
          rw [significantDigits_append_zeros, significantDigits_append_zeros, significand.trimmed,
            otherSignificand.trimmed] at same
          rw [sameWhole] at length
          exact ⟨same, congrArg Int.ofNat (by omega)⟩
      | fraction below =>
          rw [padded, isDigits] at joined
          exact absurd (List.cons.inj joined).1 leads
  | fraction below =>
      cases second with
      | whole otherLength otherPadded =>
          rw [otherPadded, areOthers] at joined
          exact absurd (List.cons.inj joined).1.symm otherLeads
      | fraction otherBelow =>
          rw [isDigits, areOthers] at sameFraction ⊢
          obtain ⟨counts, same⟩ := zeros_unique leads otherLeads sameFraction
          exact ⟨same, congrArg Int.negSucc counts⟩

end Positional

theorem exponentMark_not_mem (exponent : Int) :
    'e' ∉ (if exponent < 0 then '-' else '+') :: Nat.toDigits 10 exponent.natAbs := by
  rw [List.mem_cons, not_or]
  constructor
  · split <;> decide
  · intro member
    cases Decimal.isDigit_of_mem_ofNat member

theorem exponent_of_marks (signs : (if exponent < 0 then '-' else '+') =
      (if other < 0 then '-' else '+'))
    (magnitudes : exponent.natAbs = other.natAbs) : exponent = other := by
  split at signs <;> split at signs
  · omega
  · exact absurd signs (by decide)
  · exact absurd signs (by decide)
  · omega

theorem positional_ne_scientific (significand : Significand digits)
    (otherSignificand : Significand others) :
    positionalText digits exponent ≠ scientificText others other := by
  obtain ⟨whole, fraction, text, positional⟩ := positionalText_eq digits exponent
  obtain ⟨mantissa, otherText, -⟩ := scientificText_eq otherSignificand other
  intro same
  have marked : 'e' ∈ whole ++ '.' :: fraction := by
    rw [← text, same, otherText]
    exact List.mem_append_right _ List.mem_cons_self
  have digit : 'e' ∈ whole ++ fraction := by simpa using marked
  cases positional.areDigits significand 'e' digit

theorem layout_injective (significand : Significand digits) (otherSignificand : Significand others)
    (same : layout digits exponent = layout others other) :
    digits = others ∧ exponent = other := by
  unfold layout at same
  split at same <;> split at same
  · obtain ⟨whole, fraction, text, positional⟩ := positionalText_eq digits exponent
    obtain ⟨otherWhole, otherFraction, otherText, otherPositional⟩ := positionalText_eq others other
    have areDigits := otherPositional.areDigits otherSignificand
    have unpointed : '.' ∉ otherWhole ++ otherFraction := fun member => nomatch areDigits _ member
    rw [List.mem_append, not_or] at unpointed
    rw [text, otherText] at same
    obtain ⟨sameWhole, -, sameFraction⟩ :=
      (List.append_cons_inj_of_notMem unpointed.1 unpointed.2).mp same.symm
    exact positional.unique otherPositional significand otherSignificand sameWhole.symm
      sameFraction.symm
  · exact absurd same (positional_ne_scientific significand otherSignificand)
  · exact absurd same.symm (positional_ne_scientific otherSignificand significand)
  · obtain ⟨mantissa, text, unmarked, kept⟩ := scientificText_eq significand exponent
    obtain ⟨otherMantissa, otherText, _, otherKept⟩ := scientificText_eq otherSignificand other
    rw [text, otherText] at same
    obtain ⟨sameMantissa, -, exponents⟩ :=
      (List.append_cons_inj_of_notMem unmarked (exponentMark_not_mem exponent)).mp same
    obtain ⟨signs, magnitudes⟩ := List.cons.inj exponents
    rw [← kept, ← otherKept, sameMantissa]
    exact ⟨rfl, exponent_of_marks signs (Decimal.ofNat_injective magnitudes)⟩

theorem layout_begins (significand : Significand digits) (exponent : Int) :
    ∃ first rest, layout digits exponent = first :: rest ∧ Decimal.isDigit first = true := by
  unfold layout
  split
  · obtain ⟨whole, fraction, text, positional⟩ := positionalText_eq digits exponent
    have areDigits := positional.areDigits significand
    cases whole with
    | nil => cases positional with
      | whole length padded => cases length
    | cons first rest => exact ⟨first, _, text, areDigits first List.mem_cons_self⟩
  · have areDigits := significand.areDigits
    obtain ⟨lead, rest, rfl, -⟩ := significand.leads
    have digit := areDigits lead List.mem_cons_self
    cases rest <;> exact ⟨lead, _, rfl, digit⟩

theorem exists_mark (significand : Significand digits) (exponent : Int) :
    '.' ∈ layout digits exponent ∨ 'e' ∈ layout digits exponent := by
  unfold layout
  split
  · obtain ⟨whole, fraction, text, -⟩ := positionalText_eq digits exponent
    rw [text]
    exact .inl (List.mem_append_right _ List.mem_cons_self)
  · obtain ⟨mantissa, text, -⟩ := scientificText_eq significand exponent
    rw [text]
    exact .inr (List.mem_append_right _ List.mem_cons_self)

/-- The text of a decimal in units of `10^-1074`. -/
def decimalText (decimal : Nat) : List Char :=
  layout (significantDigits (Nat.toDigits 10 decimal))
    ((Nat.toDigits 10 decimal).length - 1 - 1074)

variable {decimal otherDecimal : Nat}

theorem decimalText_begins (nonzero : decimal ≠ 0) :
    ∃ first rest, decimalText decimal = first :: rest ∧ Decimal.isDigit first = true :=
  layout_begins (significand_toDigits nonzero) _

theorem decimalText_marked (nonzero : decimal ≠ 0) :
    '.' ∈ decimalText decimal ∨ 'e' ∈ decimalText decimal :=
  exists_mark (significand_toDigits nonzero) _

theorem decimalText_injective (nonzero : decimal ≠ 0) (otherNonzero : otherDecimal ≠ 0)
    (same : decimalText decimal = decimalText otherDecimal) : decimal = otherDecimal := by
  obtain ⟨significant, exponents⟩ := layout_injective (significand_toDigits nonzero)
    (significand_toDigits otherNonzero) same
  have lengths : (Nat.toDigits 10 decimal).length = (Nat.toDigits 10 otherDecimal).length := by
    omega
  apply Decimal.ofNat_injective
  rw [Decimal.ofNat, Decimal.ofNat, ← significantDigits_append (Nat.toDigits 10 decimal),
    significant, lengths, significantDigits_append]

section

variable {x y : Binary64} (nonzero : x.units ≠ 0)

include nonzero

theorem text_eq : x.text =
    if x.negative then '-' :: decimalText (shortestDecimal x.units)
    else decimalText (shortestDecimal x.units) := by
  simp only [text, nonzero, ↓reduceIte, decimalText, layout]

/-- Unlike the text of an integer, that of a float has a point or an exponent. -/
theorem text_marked : '.' ∈ x.text ∨ 'e' ∈ x.text := by
  have marked := decimalText_marked (shortestDecimal_ne_zero nonzero)
  rw [text_eq nonzero]
  split
  · exact marked.imp (List.mem_cons_of_mem _) (List.mem_cons_of_mem _)
  · exact marked

theorem text_begins :
    ∃ first rest, x.text = first :: rest ∧ (first = '-' ∨ Decimal.isDigit first = true) := by
  rw [text_eq nonzero]
  split
  · exact ⟨_, _, rfl, .inl rfl⟩
  · obtain ⟨first, rest, begins, digit⟩ := decimalText_begins (shortestDecimal_ne_zero nonzero)
    exact ⟨first, rest, begins, .inr digit⟩

theorem text_injective (otherNonzero : y.units ≠ 0) (same : x.text = y.text) : x = y := by
  have decimal := shortestDecimal_ne_zero nonzero
  have otherDecimal := shortestDecimal_ne_zero otherNonzero
  have unsigned {decimal : Nat} (nonzero : decimal ≠ 0) (rest : List Char) :
      decimalText decimal ≠ '-' :: rest := by
    obtain ⟨first, others, begins, digit⟩ := decimalText_begins nonzero
    rw [begins]
    intro same
    rw [(List.cons.inj same).1] at digit
    cases digit
  have units (texts : decimalText (shortestDecimal x.units) =
      decimalText (shortestDecimal y.units)) : x.units = y.units :=
    shortestDecimal_injective x.representable.2 y.representable.2 nonzero otherNonzero
      (decimalText_injective decimal otherDecimal texts)
  have sameUnits : x.units = y.units ∧ x.negative = y.negative := by
    rw [text_eq nonzero, text_eq otherNonzero] at same
    cases ofX : x.negative <;> cases ofY : y.negative <;>
      simp only [ofX, ofY, ↓reduceIte, Bool.false_eq_true] at same
    · exact ⟨units same, rfl⟩
    · exact absurd same (unsigned decimal _)
    · exact absurd same.symm (unsigned otherDecimal _)
    · exact ⟨units (List.cons.inj same).2, rfl⟩
  cases x
  cases y
  simp only [mk.injEq]
  exact ⟨sameUnits.2, sameUnits.1⟩

end

end DataAccess.Binary64
