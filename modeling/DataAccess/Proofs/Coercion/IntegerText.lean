import DataAccess.Proofs.Coercion
import DataAccess.Proofs.Numeral.Value

/-!
# Integers read from texts

An integer in plain digits is read exactly where it fits. Any other numeral goes through its float, so
what is read is what the numeral denotes just where a float is; elsewhere a neighbour is read, or the
text is refused because its float is no integer of the word.
-/

namespace DataAccess.Coercion

/-- An integer from the first bound up to, but without, the second. -/
def Within (low high : ℤ) (q : ℚ) : Prop := ∃ i : ℤ, low ≤ i ∧ i < high ∧ (i : ℚ) = q

def SignedWord (q : ℚ) : Prop := Within (-9223372036854775808) 9223372036854775808 q

def UnsignedWord (q : ℚ) : Prop := Within 0 18446744073709551616 q

variable {x : Binary64} {n : Numeral} {i : WideInt} {low high j : ℤ} {q : ℚ}

theorem within_intCast_iff : Within low high (j : ℚ) ↔ low ≤ j ∧ j < high := by
  constructor
  · rintro ⟨i, lower, upper, same⟩
    cases Int.cast_injective same
    exact ⟨lower, upper⟩
  · rintro ⟨lower, upper⟩
    exact ⟨j, lower, upper, rfl⟩

theorem signedWord_intCast_iff :
    SignedWord (j : ℚ) ↔ -9223372036854775808 ≤ j ∧ j < 9223372036854775808 :=
  within_intCast_iff

theorem unsignedWord_intCast_iff : UnsignedWord (j : ℚ) ↔ 0 ≤ j ∧ j < 18446744073709551616 :=
  within_intCast_iff

theorem int64?_eq_some_iff : int64? j = some i ↔ SignedWord (j : ℚ) ∧ (i.val : ℚ) = j := by
  rw [signedWord_intCast_iff, Int.cast_inj]
  constructor
  · intro fits
    obtain ⟨rfl, upper⟩ := int64?_eq_some fits
    exact ⟨⟨i.lower, upper⟩, rfl⟩
  · rintro ⟨⟨-, upper⟩, rfl⟩
    exact int64?_val upper

theorem uint64?_eq_some_iff : uint64? j = some i ↔ UnsignedWord (j : ℚ) ∧ (i.val : ℚ) = j := by
  rw [unsignedWord_intCast_iff, Int.cast_inj]
  constructor
  · intro fits
    obtain ⟨rfl, lower⟩ := uint64?_eq_some fits
    exact ⟨⟨lower, i.upper⟩, rfl⟩
  · rintro ⟨⟨lower, -⟩, rfl⟩
    exact uint64?_val lower

theorem integralFloat?_eq_some_iff :
    integralFloat? x = some i ↔ SignedWord x.value ∧ (i.val : ℚ) = x.value := by
  unfold integralFloat?
  split
  · rename_i integral
    rw [int64?_eq_some_iff, Binary64.value_eq_intCast_iff.mpr ⟨integral, rfl⟩]
  · rename_i fractional
    refine iff_of_false (by simp) ?_
    rintro ⟨⟨j, -, -, whole⟩, -⟩
    exact fractional (Binary64.value_eq_intCast_iff.mp whole.symm).1

theorem parseFloat?_of_spells {text : List Char} (spells : n.Spells text) :
    parseFloat? text = n.toBinary64? := by
  rw [parseFloat?, spells.read?]
  exact if_pos (Numeral.spells_iff.mp spells).2

/-- What is nearest to a number beyond all floats is no integer of a word. -/
theorem not_signed_of_large (large : (powerOfTwo 1023 : ℚ) ≤ |q|) (nearest : x.IsNearest q) :
    ¬SignedWord x.value := by
  rintro ⟨i, lower, upper, whole⟩
  obtain ⟨y, word⟩ := Binary64.exists_value_powerOfTwo 64 (by decide)
  have beyond : (powerOfTwo 64 : ℚ) ≤ |q| :=
    le_trans (by exact_mod_cast powerOfTwo_mono (by decide)) large
  have size : (powerOfTwo 64 : ℚ) = (18446744073709551616 : ℤ) := rfl
  rcases le_abs'.mp beyond with negative | positive
  · have low : x.value ≤ y.negate.value := nearest.value_le (by rwa [y.value_negate, word])
    rw [y.value_negate, word, size, ← whole] at low
    have bound : i ≤ -18446744073709551616 := by exact_mod_cast low
    omega
  · have high : y.value ≤ x.value := nearest.le_value (by rwa [word])
    rw [word, size, ← whole] at high
    have bound : 18446744073709551616 ≤ i := by exact_mod_cast high
    omega

theorem toBinary64?_bind_eq_some_iff : n.toBinary64?.bind integralFloat? = some i ↔
    ∃ x : Binary64, x.IsNearest n.value ∧ SignedWord x.value ∧ (i.val : ℚ) = x.value := by
  constructor
  · intro found
    obtain ⟨x, read, integral⟩ := Option.bind_eq_some_iff.mp found
    exact ⟨x, Numeral.isNearest_of_toBinary64? read, integralFloat?_eq_some_iff.mp integral⟩
  · rintro ⟨x, nearest, signed, same⟩
    cases read : n.toBinary64? with
    | none =>
        exact absurd signed (not_signed_of_large (Numeral.le_of_toBinary64?_eq_none read) nearest)
    | some y =>
        have alike : x.value = y.value := nearest.unique (Numeral.isNearest_of_toBinary64? read)
        rw [alike] at signed same
        exact integralFloat?_eq_some_iff.mpr ⟨signed, same⟩

/-- What is read from a numeral: the integer that it writes out, where this fits, and else its float,
where this fits. A float fits no word before it fits a signed one. -/
inductive Reads (Fits : ℚ → Prop) (n : Numeral) : ℚ → Prop
  | exactly : n.isInteger = true → Fits n.value → Reads Fits n n.value
  | rounded {x : Binary64} : ¬(n.isInteger = true ∧ Fits n.value) → x.IsNearest n.value →
      SignedWord x.value → Fits x.value → Reads Fits n x.value

theorem Reads.of_fits {Fits : ℚ → Prop} (written : n.isInteger = true ∧ Fits n.value) :
    Reads Fits n q ↔ q = n.value := by
  constructor
  · intro reads
    cases reads with
    | exactly => rfl
    | rounded unwritten => exact absurd written unwritten
  · rintro rfl
    exact .exactly written.1 written.2

theorem Reads.of_not_fits {Fits : ℚ → Prop} (unwritten : ¬(n.isInteger = true ∧ Fits n.value)) :
    Reads Fits n q ↔
      ∃ x : Binary64, x.IsNearest n.value ∧ SignedWord x.value ∧ Fits x.value ∧ q = x.value := by
  constructor
  · intro reads
    cases reads with
    | exactly integer fits => exact absurd ⟨integer, fits⟩ unwritten
    | rounded _ nearest signed fits => exact ⟨_, nearest, signed, fits, rfl⟩
  · rintro ⟨x, nearest, signed, fits, rfl⟩
    exact .rounded unwritten nearest signed fits

theorem SignedWord.exists_word (fits : SignedWord q) : ∃ m : WideInt, (m.val : ℚ) = q := by
  obtain ⟨i, lower, upper, same⟩ := fits
  exact ⟨⟨i, lower, by omega⟩, same⟩

theorem UnsignedWord.exists_word (fits : UnsignedWord q) : ∃ m : WideInt, (m.val : ℚ) = q := by
  obtain ⟨i, lower, upper, same⟩ := fits
  exact ⟨⟨i, by omega, upper⟩, same⟩

theorem some_eq_some_iff {m : WideInt} : some m = some i ↔ (i.val : ℚ) = m.val := by
  rw [Option.some_inj, Int.cast_inj]
  constructor
  · intro same
    rw [same]
  · intro same
    cases i
    cases m
    cases same
    rfl

theorem signed?_bind_eq_some_iff {text : List Char} (spells : n.Spells text) :
    (Decimal.signed? text).bind int64? = some i ↔
      n.isInteger = true ∧ SignedWord n.value ∧ (i.val : ℚ) = n.value := by
  rw [spells.signed?]
  by_cases integer : n.isInteger = true
  · rw [if_pos integer, Option.bind_some, int64?_eq_some_iff, n.value_of_isInteger integer]
    exact (and_iff_right integer).symm
  · simp [integer]

theorem parseUInt64?_eq_some_iff {text : List Char} (spells : n.Spells text) :
    parseUInt64? text = some i ↔
      (n.isInteger = true ∧ n.isNegative = false) ∧ UnsignedWord n.value ∧ (i.val : ℚ) = n.value := by
  rw [parseUInt64?, spells.unsigned?]
  by_cases plain : n.isInteger = true ∧ n.isNegative = false
  · have positive : n.integer = n.digits := by simp [Numeral.integer, plain.2]
    rw [if_pos plain, Option.bind_some, uint64?_eq_some_iff, n.value_of_isInteger plain.1, positive]
    exact (and_iff_right plain).symm
  · simp [plain]

/-- A number that no word is parsed from is not written out or does not fit. -/
theorem not_fits_of_eq_none {parsed : Option WideInt} {written : Prop} {Fits : ℚ → Prop}
    (parses : ∀ i, parsed = some i ↔ written ∧ Fits q ∧ (i.val : ℚ) = q)
    (words : Fits q → ∃ i : WideInt, (i.val : ℚ) = q) (absent : parsed = none) :
    ¬(written ∧ Fits q) := by
  rintro ⟨holds, fits⟩
  obtain ⟨i, same⟩ := words fits
  have found := (parses i).mpr ⟨holds, fits, same⟩
  rw [absent] at found
  contradiction

variable {text : String}

theorem toInt64_text_iff (spells : n.Spells (Text.trim text.toList)) :
    toInt64 (.string text) = .ok i ↔ Reads SignedWord n i.val := by
  have parsed : toInt64 (.string text) = .ok i ↔ parseInt64? (Text.trim text.toList) = some i := by
    rw [toInt64]
    cases parseInt64? (Text.trim text.toList) <;> simp [refuse]
  rw [parsed, parseInt64?]
  cases found : (Decimal.signed? (Text.trim text.toList)).bind int64? with
  | some m =>
      obtain ⟨integer, fits, same⟩ := (signed?_bind_eq_some_iff spells).mp found
      rw [Reads.of_fits ⟨integer, fits⟩, ← same]
      exact some_eq_some_iff
  | none =>
      have unwritten := not_fits_of_eq_none (fun _ => signed?_bind_eq_some_iff spells)
        SignedWord.exists_word found
      rw [Reads.of_not_fits unwritten, parseFloat?_of_spells spells]
      simp only [toBinary64?_bind_eq_some_iff, and_self_left]

theorem signedToUInt64_eq_ok {value : Value} :
    signedToUInt64 value = .ok i ↔ toInt64 value = .ok i ∧ 0 ≤ i.val := by
  rw [signedToUInt64]
  cases toInt64 value with
  | error fault => simp [refuse]
  | ok m =>
      dsimp only
      split
      · rename_i lower
        constructor
        · intro same
          cases same
          exact ⟨rfl, lower⟩
        · rintro ⟨same, _⟩
          exact same
      · rename_i lower
        constructor
        · intro refused
          cases refused
        · rintro ⟨same, upper⟩
          cases same
          contradiction

/-- A minus sign leaves nothing but zero to an unsigned word. -/
theorem signed_of_isNegative (negative : n.isNegative = true) (fits : UnsignedWord n.value) :
    SignedWord n.value := by
  obtain ⟨j, lower, -, same⟩ := fits
  have magnitude : 0 ≤ n.magnitude := by
    rw [n.magnitude_eq]
    positivity
  have nonpositive : (j : ℚ) ≤ (0 : ℤ) := by
    rw [same, Numeral.value, if_pos negative, Int.cast_zero]
    exact neg_nonpos.mpr magnitude
  have upper : j ≤ 0 := Int.cast_le.mp nonpositive
  rw [← same, signedWord_intCast_iff]
  omega

/-- A negative integer is not rounded up to zero. -/
theorem not_unsigned_of_isNearest (negative : j < 0) (nearest : x.IsNearest j) :
    ¬UnsignedWord x.value := by
  rintro ⟨i, lower, _, whole⟩
  obtain ⟨y, one⟩ := Binary64.exists_value_powerOfTwo 0 (by decide)
  have ofOne : y.negate.value = (-1 : ℤ) := by
    rw [y.value_negate, one]
    rfl
  have below : x.value ≤ y.negate.value := by
    apply nearest.value_le
    rw [ofOne]
    exact_mod_cast Int.le_sub_one_of_lt negative
  rw [ofOne, ← whole] at below
  have upper : i ≤ -1 := Int.cast_le.mp below
  omega

theorem SignedWord.unsigned (signed : SignedWord q) (lower : 0 ≤ q) : UnsignedWord q := by
  obtain ⟨i, _, upper, rfl⟩ := signed
  exact unsignedWord_intCast_iff.mpr ⟨Int.cast_nonneg_iff.mp lower, by omega⟩

theorem UnsignedWord.nonneg (unsigned : UnsignedWord q) : 0 ≤ q := by
  obtain ⟨i, lower, _, rfl⟩ := unsigned
  exact Int.cast_nonneg lower

theorem reads_unsigned_iff
    (unparsed : ¬((n.isInteger = true ∧ n.isNegative = false) ∧ UnsignedWord n.value)) :
    Reads SignedWord n q ∧ 0 ≤ q ↔ Reads UnsignedWord n q := by
  have signed (integer : n.isInteger = true) (fits : UnsignedWord n.value) : SignedWord n.value := by
    cases negative : n.isNegative with
    | false => exact absurd ⟨⟨integer, negative⟩, fits⟩ unparsed
    | true => exact signed_of_isNegative negative fits
  constructor
  · rintro ⟨reads, lower⟩
    cases reads with
    | exactly integer fits => exact .exactly integer (fits.unsigned lower)
    | rounded unwritten nearest fits =>
        have unfit : ¬(n.isInteger = true ∧ UnsignedWord n.value) := by
          rintro ⟨integer, unsigned⟩
          exact unwritten ⟨integer, signed integer unsigned⟩
        exact .rounded unfit nearest fits (fits.unsigned lower)
  · intro reads
    cases reads with
    | exactly integer fits => exact ⟨.exactly integer (signed integer fits), fits.nonneg⟩
    | rounded unwritten nearest fits unsigned =>
        have unfit : ¬(n.isInteger = true ∧ SignedWord n.value) := by
          rintro ⟨integer, word⟩
          have negative : n.value < 0 := by
            by_contra lower
            exact unwritten ⟨integer, word.unsigned (not_lt.mp lower)⟩
          obtain ⟨j, _, _, whole⟩ := word
          rw [← whole] at negative nearest
          exact not_unsigned_of_isNearest (Int.cast_lt_zero.mp negative) nearest unsigned
        exact ⟨.rounded unfit nearest fits fits, unsigned.nonneg⟩

theorem toUInt64_text_iff (spells : n.Spells (Text.trim text.toList)) :
    toUInt64 (.string text) = .ok i ↔ Reads UnsignedWord n i.val := by
  rw [toUInt64]
  cases found : parseUInt64? (Text.trim text.toList) with
  | some m =>
      obtain ⟨⟨integer, _⟩, fits, same⟩ := (parseUInt64?_eq_some_iff spells).mp found
      rw [Reads.of_fits ⟨integer, fits⟩, ← same, ← some_eq_some_iff]
      simp
  | none =>
      have unparsed := not_fits_of_eq_none (fun _ => parseUInt64?_eq_some_iff spells)
        UnsignedWord.exists_word found
      dsimp only
      rw [signedToUInt64_eq_ok, toInt64_text_iff spells, ← Int.cast_nonneg_iff (R := ℚ)]
      exact reads_unsigned_iff unparsed

theorem toInt64_text_settled (text : String) : (∃ i, toInt64 (.string text) = .ok i) ∨
    ∃ fault, toInt64 (.string text) = refuse (.string text) .int64 fault := by
  rw [toInt64]
  split
  · exact .inl ⟨_, rfl⟩
  · exact .inr ⟨_, rfl⟩

theorem signedToUInt64_settled (value : Value) : (∃ i, signedToUInt64 value = .ok i) ∨
    ∃ fault, signedToUInt64 value = refuse value .uint64 fault := by
  rw [signedToUInt64]
  split
  · split
    · exact .inl ⟨_, rfl⟩
    · exact .inr ⟨_, rfl⟩
  · exact .inr ⟨_, rfl⟩

theorem toUInt64_text_settled (text : String) : (∃ i, toUInt64 (.string text) = .ok i) ∨
    ∃ fault, toUInt64 (.string text) = refuse (.string text) .uint64 fault := by
  rw [toUInt64]
  split
  · exact .inl ⟨_, rfl⟩
  · exact signedToUInt64_settled _

/-- The numerals that are read exactly: of the integers that fit, those in plain digits and those
that are floats in the range of a signed word. -/
def Kept (Fits : ℚ → Prop) (n : Numeral) : Prop :=
  Fits n.value ∧ (n.isInteger = true ∨ SignedWord n.value ∧ ∃ x : Binary64, x.value = n.value)

/-- How a conversion treats a text of the numeral `n`. -/
structure IntegerReading (Fits : ℚ → Prop) (n : Numeral) (text : String) (target : Target)
    (outcome : Except ObjectError WideInt) : Prop where
  read_iff : ∀ i, outcome = .ok i ↔ Reads Fits n i.val
  exact_iff : ∀ i, outcome = .ok i → ((i.val : ℚ) = n.value ↔ Kept Fits n)
  complete : Kept Fits n → ∃ i, outcome = .ok i
  refused_iff : ¬Fits n.value → ((∃ fault, outcome = refuse (.string text) target fault) ↔
    ∀ x : Binary64, x.IsNearest n.value → ¬(SignedWord x.value ∧ Fits x.value))

variable {Fits : ℚ → Prop} {target : Target} {outcome : Except ObjectError WideInt}

/-- Integers of up to 53 binary digits are read exactly, however they are written. -/
theorem kept_of_small (whole : n.value = j) (small : j.natAbs ≤ powerOfTwo 53)
    (fits : Fits n.value) : Kept Fits n := by
  have bound : powerOfTwo 53 = 9007199254740992 := rfl
  let word : WideInt := ⟨j, by omega, by omega⟩
  have float : word.toBinary64.value = j :=
    Binary64.value_of_signedUnits (WideInt.signedUnits_toBinary64 small)
  have signed : SignedWord n.value := by
    rw [whole, signedWord_intCast_iff]
    omega
  exact ⟨fits, .inr ⟨signed, _, float.trans whole.symm⟩⟩

theorem Kept.reads (kept : Kept Fits n) : Reads Fits n n.value := by
  obtain ⟨fits, integer | ⟨word, x, float⟩⟩ := kept
  · exact .exactly integer fits
  · by_cases written : n.isInteger = true ∧ Fits n.value
    · exact .exactly written.1 fits
    · rw [Reads.of_not_fits written, ← float]
      rw [← float] at word fits
      exact ⟨x, x.isNearest_value, word, fits, rfl⟩

theorem Reads.eq_value_iff (reads : Reads Fits n q) : q = n.value ↔ Kept Fits n := by
  cases reads with
  | exactly integer fits => exact iff_of_true rfl ⟨fits, .inl integer⟩
  | @rounded x unwritten nearest word fits =>
      constructor
      · intro same
        rw [same] at word fits
        exact ⟨fits, .inr ⟨word, x, same⟩⟩
      · rintro ⟨fits, kept⟩
        obtain integer | ⟨_, y, float⟩ := kept
        · exact absurd ⟨integer, fits⟩ unwritten
        · rw [← float] at nearest ⊢
          exact nearest.value_eq

theorem integerReading_of_reads (reads : ∀ i, outcome = .ok i ↔ Reads Fits n i.val)
    (words : ∀ q, Fits q → ∃ i : WideInt, (i.val : ℚ) = q)
    (settled : (∃ i, outcome = .ok i) ∨ ∃ fault, outcome = refuse (.string text) target fault) :
    IntegerReading Fits n text target outcome where
  read_iff := reads
  exact_iff i found := ((reads i).mp found).eq_value_iff
  complete kept := by
    obtain ⟨i, same⟩ := words _ kept.1
    exact ⟨i, (reads i).mpr (same ▸ kept.reads)⟩
  refused_iff unfit := by
    have unwritten : ¬(n.isInteger = true ∧ Fits n.value) := fun written => unfit written.2
    constructor
    · rintro ⟨fault, refused⟩ x nearest ⟨word, fits⟩
      obtain ⟨i, same⟩ := words _ fits
      have found : outcome = .ok i := by
        rw [reads, same]
        exact .rounded unwritten nearest word fits
      rw [refused] at found
      contradiction
    · intro apart
      obtain ⟨i, found⟩ | refused := settled
      · obtain ⟨x, nearest, word, fits, _⟩ := (Reads.of_not_fits unwritten).mp ((reads i).mp found)
        exact absurd ⟨word, fits⟩ (apart x nearest)
      · exact refused

/-- What is read from a numeral is the integer that it writes out or its float. This is the number
that the numeral denotes exactly when the number fits and is written in plain digits or is a float of a
signed word, and all such numbers are read. A numeral whose number does not fit is refused exactly when
its float does not fit. -/
theorem integer_text_is_exact_iff_kept (spells : n.Spells (Text.trim text.toList)) :
    IntegerReading SignedWord n text .int64 (toInt64 (.string text)) ∧
      IntegerReading UnsignedWord n text .uint64 (toUInt64 (.string text)) := by
  constructor
  · exact integerReading_of_reads (fun _ => toInt64_text_iff spells)
      (fun _ => SignedWord.exists_word) (toInt64_text_settled text)
  · exact integerReading_of_reads (fun _ => toUInt64_text_iff spells)
      (fun _ => UnsignedWord.exists_word) (toUInt64_text_settled text)

theorem padded_five_is_read_exactly :
    (∃ i : WideInt, toInt64 (.string " 5.0 ") = .ok i ∧ (i.val : ℚ) = 5) ∧
      ∃ i : WideInt, toUInt64 (.string " 5.0 ") = .ok i ∧ (i.val : ℚ) = 5 := by
  let n : Numeral := { whole := ['5'], fraction := some ['0'] }
  have spells : n.Spells (Text.trim " 5.0 ".toList) := Numeral.spells_iff.mpr ⟨by decide, rfl⟩
  have value : n.value = (5 : ℤ) := by
    have integer : n.integer = 50 := by decide
    have scale : n.scale = -1 := by decide
    rw [n.value_eq, integer, scale]
    norm_num
  obtain ⟨signed, unsigned⟩ := integer_text_is_exact_iff_kept spells
  have keptSigned : Kept SignedWord n :=
    kept_of_small value (by decide) (value ▸ signedWord_intCast_iff.mpr (by decide))
  have keptUnsigned : Kept UnsignedWord n :=
    kept_of_small value (by decide) (value ▸ unsignedWord_intCast_iff.mpr (by decide))
  constructor
  · obtain ⟨i, read⟩ := signed.complete keptSigned
    exact ⟨i, read, ((signed.exact_iff i read).mpr keptSigned).trans value⟩
  · obtain ⟨i, read⟩ := unsigned.complete keptUnsigned
    exact ⟨i, read, ((unsigned.exact_iff i read).mpr keptUnsigned).trans value⟩

/-- An integer between two floats, a fraction next to one and an integer out of range. -/
theorem rounded_numerals_are_read :
    (∃ n : Numeral, n.Spells (Text.trim "9007199254740993.0".toList) ∧
      n.value = 9007199254740993 ∧
      toInt64 (.string "9007199254740993.0") = .ok ⟨9007199254740992, by decide, by decide⟩) ∧
    (∃ n : Numeral, n.Spells (Text.trim "0.99999999999999999999".toList) ∧ n.value < 1 ∧
      toUInt64 (.string "0.99999999999999999999") = .ok .one) ∧
    ∃ n : Numeral, n.Spells (Text.trim "-9223372036854775809".toList) ∧
      n.value = -9223372036854775809 ∧
      toInt64 (.string "-9223372036854775809") =
        .ok ⟨-9223372036854775808, by decide, by decide⟩ := by
  refine ⟨?_, ?_, ?_⟩
  · let n : Numeral := { whole := "9007199254740993".toList, fraction := some ['0'] }
    have integer : n.integer = 90071992547409930 := by decide
    have scale : n.scale = -1 := by decide
    refine ⟨n, Numeral.spells_iff.mpr ⟨by decide, rfl⟩, ?_, by decide +kernel⟩
    rw [n.value_eq, integer, scale]
    norm_num
  · let n : Numeral := { whole := ['0'], fraction := some "99999999999999999999".toList }
    have integer : n.integer = 99999999999999999999 := by decide
    have scale : n.scale = -20 := by decide
    refine ⟨n, Numeral.spells_iff.mpr ⟨by decide, rfl⟩, ?_, by decide +kernel⟩
    rw [n.value_eq, integer, scale]
    norm_num
  · let n : Numeral := { sign := some '-', whole := "9223372036854775809".toList }
    have integer : n.integer = -9223372036854775809 := by decide
    refine ⟨n, Numeral.spells_iff.mpr ⟨by decide, rfl⟩, ?_, by decide +kernel⟩
    rw [n.value_of_isInteger rfl, integer]
    norm_num

end DataAccess.Coercion
