import DataAccess.Proofs.Decimal
import DataAccess.Text.Numeral
import Mathlib.Data.List.TakeDrop
import Mathlib.Data.List.TakeWhile
import Mathlib.Tactic.Tauto

namespace DataAccess.Numeral

def fractionText : Option (List Char) → List Char
  | none => []
  | some digits => '.' :: digits

def exponentText : Option (Option Char × List Char) → List Char
  | none => []
  | some (sign, digits) => 'e' :: (sign.toList ++ digits)

/-- The text of a numeral. -/
def written (n : Numeral) : List Char :=
  n.sign.toList ++ (n.whole ++ (fractionText n.fraction ++ exponentText n.exponent))

/-- Digits, and at least one. -/
def AreDigits (chars : List Char) : Prop :=
  chars ≠ [] ∧ ∀ c ∈ chars, Decimal.isDigit c = true

/-- A numeral as JSON has it. -/
structure Regular (n : Numeral) : Prop where
  sign : n.sign = none ∨ n.sign = some '-'
  whole : AreDigits n.whole
  lead : ∀ rest, n.whole = '0' :: rest → rest = []
  fraction : ∀ digits ∈ n.fraction, AreDigits digits
  exponent : ∀ marked ∈ n.exponent,
    (marked.1 = none ∨ marked.1 = some '-' ∨ marked.1 = some '+') ∧ AreDigits marked.2

/-- An exponent behind its mark. -/
def markedExponent (mark : Char) : Option (Option Char × List Char) → List Char
  | none => []
  | some (sign, digits) => mark :: (sign.toList ++ digits)

/-- The text of a numeral with the given mark of exponents. -/
def spelled (mark : Char) (n : Numeral) : List Char :=
  n.sign.toList ++ (n.whole ++ (fractionText n.fraction ++ markedExponent mark n.exponent))

/-- A numeral with digits before or behind the point, and behind the mark of an exponent. -/
structure WellSpelled (n : Numeral) : Prop where
  sign : n.sign = none ∨ n.sign = some '-' ∨ n.sign = some '+'
  whole : ∀ c ∈ n.whole, Decimal.isDigit c = true
  fraction : ∀ digits ∈ n.fraction, ∀ c ∈ digits, Decimal.isDigit c = true
  nonempty : n.whole ≠ [] ∨ n.fractionDigits ≠ []
  exponent : ∀ marked ∈ n.exponent,
    (marked.1 = none ∨ marked.1 = some '-' ∨ marked.1 = some '+') ∧ AreDigits marked.2

variable {n : Numeral} {digits rest : List Char} {mark : Char} {sign : Option Char}

theorem written_eq_spelled (n : Numeral) : n.written = n.spelled 'e' := by
  cases marked : n.exponent <;> simp [written, spelled, marked, exponentText, markedExponent]

theorem Regular.wellSpelled (regular : n.Regular) : n.WellSpelled where
  sign := regular.sign.imp_right .inl
  whole := regular.whole.2
  fraction := fun digits written => (regular.fraction digits written).2
  nonempty := .inl regular.whole.1
  exponent := regular.exponent

/-- No digit stands in front of a text. -/
def Ends (rest : List Char) : Prop := ∀ c ∈ rest.head?, Decimal.isDigit c = false

/-- No sign stands in front of a text. -/
def Unsigned (text : List Char) : Prop := ∀ c ∈ text.head?, c ≠ '-' ∧ c ≠ '+'

theorem splitDigits_append (each : ∀ c ∈ digits, Decimal.isDigit c = true) (ends : Ends rest) :
    splitDigits (digits ++ rest) = (digits, rest) := by
  have stops : rest.takeWhile Decimal.isDigit = [] ∧ rest.dropWhile Decimal.isDigit = rest := by
    cases rest with
    | nil => exact ⟨rfl, rfl⟩
    | cons c tail => simp [ends c rfl]
  rw [splitDigits, List.span_eq_takeWhile_dropWhile, List.takeWhile_append_of_pos each,
    List.dropWhile_append_of_pos each, stops.1, stops.2, List.append_nil]

theorem unsigned_digits (areDigits : AreDigits digits) (rest : List Char) :
    Unsigned (digits ++ rest) := by
  obtain ⟨nonempty, each⟩ := areDigits
  obtain ⟨first, tail, rfl⟩ := List.exists_cons_of_ne_nil nonempty
  rintro _ ⟨⟩
  have digit := each first List.mem_cons_self
  constructor <;> rintro rfl <;> cases digit

theorem splitSign_append (signed : sign = none ∨ sign = some '-' ∨ sign = some '+')
    (unsigned : Unsigned rest) : splitSign (sign.toList ++ rest) = (sign, rest) := by
  rcases signed with rfl | rfl | rfl
  · cases rest with
    | nil => rfl
    | cons c tail =>
        obtain ⟨notMinus, notPlus⟩ := unsigned c rfl
        simp [splitSign, notMinus, notPlus]
  · rfl
  · rfl

theorem ends_markedExponent (other : Decimal.isDigit mark = false)
    (exponent : Option (Option Char × List Char)) : Ends (markedExponent mark exponent) := by
  rcases exponent with _ | marked
  · nofun
  · rintro _ ⟨⟩
    exact other

theorem ends_fractionText (other : Decimal.isDigit mark = false) (fraction : Option (List Char))
    (exponent : Option (Option Char × List Char)) :
    Ends (fractionText fraction ++ markedExponent mark exponent) := by
  rcases fraction with _ | digits
  · exact ends_markedExponent other exponent
  · rintro _ ⟨⟩
    rfl

theorem splitFraction_append {fraction : Option (List Char)}
    (each : ∀ digits ∈ fraction, ∀ c ∈ digits, Decimal.isDigit c = true)
    (marks : mark = 'e' ∨ mark = 'E') (exponent : Option (Option Char × List Char)) :
    splitFraction (fractionText fraction ++ markedExponent mark exponent) =
      (fraction, markedExponent mark exponent) := by
  cases fraction with
  | none =>
      cases exponent with
      | none => rfl
      | some marked => rcases marks with rfl | rfl <;> rfl
  | some digits =>
      have other : Decimal.isDigit mark = false := by rcases marks with rfl | rfl <;> rfl
      have split := splitDigits_append (each digits rfl) (ends_markedExponent other exponent)
      simp only [fractionText, List.cons_append, splitFraction, split]

theorem splitExponent_markedExponent {exponent : Option (Option Char × List Char)}
    (marks : mark = 'e' ∨ mark = 'E')
    (well : ∀ marked ∈ exponent,
      (marked.1 = none ∨ marked.1 = some '-' ∨ marked.1 = some '+') ∧ AreDigits marked.2) :
    splitExponent (markedExponent mark exponent) = (exponent, []) := by
  cases exponent with
  | none => rfl
  | some marked =>
      obtain ⟨sign, digits⟩ := marked
      obtain ⟨signed, areDigits⟩ := well _ rfl
      have first := splitSign_append signed (unsigned_digits areDigits [])
      have second : splitDigits (digits ++ []) = (digits, []) := splitDigits_append areDigits.2 nofun
      rw [List.append_nil] at first second
      simp only [markedExponent, splitExponent, marks, ↓reduceIte, first, second]

theorem unsigned_body (well : n.WellSpelled) (mark : Char) :
    Unsigned (n.whole ++ (fractionText n.fraction ++ markedExponent mark n.exponent)) := by
  by_cases written : n.whole = []
  · cases fraction : n.fraction with
    | none =>
        have digits := well.nonempty
        simp [written, fractionDigits, fraction] at digits
    | some digits =>
        rw [written]
        rintro _ ⟨⟩
        decide
  · exact unsigned_digits ⟨written, well.whole⟩ _

/-- A numeral is read off its text. -/
theorem read?_spelled (well : n.WellSpelled) (marks : mark = 'e' ∨ mark = 'E') :
    read? (n.spelled mark) = some n := by
  have other : Decimal.isDigit mark = false := by rcases marks with rfl | rfl <;> rfl
  have signed := splitSign_append well.sign (unsigned_body well mark)
  have whole := splitDigits_append well.whole (ends_fractionText other n.fraction n.exponent)
  simp only [read?, spelled, signed, whole, splitFraction_append well.fraction marks n.exponent,
    splitExponent_markedExponent marks well.exponent]
  rfl

theorem read?_written (regular : n.Regular) : read? n.written = some n := by
  rw [written_eq_spelled]
  exact read?_spelled regular.wellSpelled (.inl rfl)

/-- A text of a decimal numeral, with either mark in front of an exponent. -/
structure Spells (n : Numeral) (text : List Char) : Prop where
  wellSpelled : n.WellSpelled
  spelling : ∃ mark, (mark = 'e' ∨ mark = 'E') ∧ text = n.spelled mark

theorem Spells.read? {text : List Char} (spells : n.Spells text) :
    Numeral.read? text = some n := by
  obtain ⟨mark, marks, rfl⟩ := spells.spelling
  exact read?_spelled spells.wellSpelled marks

theorem WellSpelled.isDecimal (well : n.WellSpelled) : n.isDecimal = true := by
  have exponent : n.hasExponentDigits = true := by
    unfold hasExponentDigits
    split
    · rename_i sign digits marked
      simpa using (well.exponent _ marked).2.1
    · rfl
  have digits : (n.whole.isEmpty && n.fractionDigits.isEmpty) = false := by
    rcases well.nonempty with written | written <;> simp [written]
  rw [Numeral.isDecimal, digits, exponent]
  rfl

theorem splitSign_eq {text : List Char} (split : splitSign text = (sign, rest)) :
    (sign = none ∨ sign = some '-' ∨ sign = some '+') ∧ text = sign.toList ++ rest := by
  unfold splitSign at split
  split at split
  · cases split
    exact ⟨.inr (.inl rfl), rfl⟩
  · cases split
    exact ⟨.inr (.inr rfl), rfl⟩
  · cases split
    exact ⟨.inl rfl, rfl⟩

theorem splitDigits_eq {text : List Char} (split : splitDigits text = (digits, rest)) :
    (∀ c ∈ digits, Decimal.isDigit c = true) ∧ text = digits ++ rest := by
  rw [splitDigits, List.span_eq_takeWhile_dropWhile] at split
  cases split
  exact ⟨fun _ member => List.mem_takeWhile_imp member, List.takeWhile_append_dropWhile.symm⟩

theorem splitFraction_eq {text : List Char} {fraction : Option (List Char)}
    (split : splitFraction text = (fraction, rest)) :
    (∀ digits ∈ fraction, ∀ c ∈ digits, Decimal.isDigit c = true) ∧
      text = fractionText fraction ++ rest := by
  unfold splitFraction at split
  split at split
  · rename_i behind
    cases second : splitDigits behind with
    | mk digits others =>
        obtain ⟨each, joined⟩ := splitDigits_eq second
        simp only [second] at split
        cases split
        refine ⟨?_, congrArg ('.' :: ·) joined⟩
        intro _ same
        cases same
        exact each
  · cases split
    exact ⟨nofun, rfl⟩

theorem splitExponent_eq {text : List Char} {exponent : Option (Option Char × List Char)}
    (split : splitExponent text = (exponent, rest)) :
    ∃ mark, (mark = 'e' ∨ mark = 'E') ∧ text = markedExponent mark exponent ++ rest ∧
      ∀ marked ∈ exponent, (marked.1 = none ∨ marked.1 = some '-' ∨ marked.1 = some '+') ∧
        ∀ c ∈ marked.2, Decimal.isDigit c = true := by
  unfold splitExponent at split
  split at split
  · rename_i mark behind
    split at split
    · rename_i marks
      cases first : splitSign behind with
      | mk sign others =>
          cases second : splitDigits others with
          | mk digits last =>
              obtain ⟨signed, joined⟩ := splitSign_eq first
              obtain ⟨each, tail⟩ := splitDigits_eq second
              simp only [first, second] at split
              cases split
              refine ⟨mark, marks, by simp [markedExponent, joined, tail], ?_⟩
              intro _ same
              cases same
              exact ⟨signed, each⟩
    · cases split
      exact ⟨'e', .inl rfl, rfl, nofun⟩
  · cases split
    exact ⟨'e', .inl rfl, rfl, nofun⟩

/-- Decimal numerals are what is read off their texts and nothing else. -/
theorem spells_iff {text : List Char} :
    n.Spells text ↔ Numeral.read? text = some n ∧ n.isDecimal = true := by
  constructor
  · intro spells
    exact ⟨spells.read?, spells.wellSpelled.isDecimal⟩
  · rintro ⟨read, decimal⟩
    rw [isDecimal, Bool.and_eq_true, Bool.not_eq_true', Bool.and_eq_false_iff] at decimal
    obtain ⟨nonempty, marked⟩ := decimal
    unfold Numeral.read? at read
    cases first : splitSign text with
    | mk sign unsigned =>
    cases second : splitDigits unsigned with
    | mk whole behind =>
    cases third : splitFraction behind with
    | mk fraction last =>
    cases fourth : splitExponent last with
    | mk exponent rest =>
    simp only [first, second, third, fourth] at read
    obtain ⟨signed, joined⟩ := splitSign_eq first
    obtain ⟨wholeDigits, wholeJoined⟩ := splitDigits_eq second
    obtain ⟨fractionDigits, fractionJoined⟩ := splitFraction_eq third
    obtain ⟨mark, marks, exponentJoined, exponentDigits⟩ := splitExponent_eq fourth
    split at read
    · rename_i ended
      cases read
      refine ⟨⟨signed, wholeDigits, fractionDigits, ?_, ?_⟩, mark, marks, ?_⟩
      · simpa using nonempty
      · intro written member
        obtain ⟨signed, each⟩ := exponentDigits written member
        refine ⟨signed, ?_, each⟩
        cases member
        simpa [hasExponentDigits] using marked
      · rw [List.isEmpty_iff.mp ended, List.append_nil] at exponentJoined
        rw [joined, wholeJoined, fractionJoined, exponentJoined, spelled]
    · cases read

theorem isJson_of_regular (regular : n.Regular) : n.isJson = true := by
  rw [isJson, Bool.and_eq_true, Bool.and_eq_true, Bool.and_eq_true]
  refine ⟨⟨⟨?_, ?_⟩, ?_⟩, ?_⟩
  · rcases regular.sign with unsigned | minus
    · rw [unsigned]
      rfl
    · rw [minus]
      rfl
  · split
    · rename_i empty
      exact (regular.whole.1 empty).elim
    · rename_i rest zero
      rw [regular.lead rest zero]
      rfl
    · rfl
  · rw [bne_iff_ne]
    exact fun empty => (regular.fraction [] empty).1 rfl
  · unfold hasExponentDigits
    split
    · rename_i sign digits marked
      simpa using (regular.exponent _ marked).2.1
    · rfl

theorem written_begins (regular : n.Regular) :
    ∃ first rest, n.written = first :: rest ∧ (first = '-' ∨ Decimal.isDigit first = true) := by
  rcases regular.sign with unsigned | minus
  · obtain ⟨first, rest, whole⟩ := List.exists_cons_of_ne_nil regular.whole.1
    refine ⟨first, _, by rw [written, unsigned, whole]; rfl, .inr ?_⟩
    exact regular.whole.2 first (whole ▸ List.mem_cons_self)
  · exact ⟨'-', _, by rw [written, minus]; rfl, .inl rfl⟩

/-- Texts of numerals consist of digits and a few marks. -/
theorem mem_written (regular : n.Regular) {c : Char} (member : c ∈ n.written) :
    Decimal.isDigit c = true ∨ c = '-' ∨ c = '+' ∨ c = '.' ∨ c = 'e' := by
  have ofSign {sign : Option Char} (signed : sign = none ∨ sign = some '-' ∨ sign = some '+')
      (inSign : c ∈ sign.toList) : c = '-' ∨ c = '+' := by
    rcases signed with rfl | rfl | rfl <;> simp at inSign <;> simp [inSign]
  simp only [written, List.mem_append] at member
  rcases member with inSign | inWhole | inFraction | inExponent
  · have := ofSign (regular.sign.imp_right .inl) inSign
    tauto
  · exact .inl (regular.whole.2 c inWhole)
  · cases fraction : n.fraction with
    | none =>
        rw [fraction] at inFraction
        cases inFraction
    | some digits =>
        rw [fraction] at inFraction
        rcases List.mem_cons.mp inFraction with rfl | inDigits
        · simp
        · exact .inl ((regular.fraction digits fraction).2 c inDigits)
  · cases exponent : n.exponent with
    | none =>
        rw [exponent] at inExponent
        cases inExponent
    | some marked =>
        obtain ⟨signed, areDigits⟩ := regular.exponent marked exponent
        rw [exponent] at inExponent
        rcases List.mem_cons.mp inExponent with rfl | behind
        · simp
        · rcases List.mem_append.mp behind with inSign | inDigits
          · have := ofSign signed inSign
            tauto
          · exact .inl (areDigits.2 c inDigits)

def ofInteger : Int → Numeral
  | .ofNat n => { whole := Decimal.ofNat n }
  | .negSucc n => { sign := some '-', whole := Decimal.ofNat (n + 1) }

theorem written_ofInteger (i : Int) : (ofInteger i).written = Decimal.ofInt i := by
  cases i <;> simp [ofInteger, written, Decimal.ofInt, fractionText, exponentText]

theorem areDigits_ofNat (n : Nat) : AreDigits (Decimal.ofNat n) :=
  ⟨Decimal.ofNat_ne_nil n, fun _ member => Decimal.isDigit_of_mem_ofNat member⟩

theorem lead_ofNat {n : Nat} (zero : Decimal.ofNat n = '0' :: rest) : rest = [] := by
  by_cases none : n = 0
  · subst none
    exact (List.cons.inj zero).2.symm
  · obtain ⟨lead, others, digits, leads⟩ := Decimal.exists_lead none
    rw [digits] at zero
    exact (leads (List.cons.inj zero).1).elim

theorem regular_ofInteger (i : Int) : (ofInteger i).Regular := by
  cases i with
  | ofNat n => exact ⟨.inl rfl, areDigits_ofNat n, fun _ => lead_ofNat, nofun, nofun⟩
  | negSucc n => exact ⟨.inr rfl, areDigits_ofNat (n + 1), fun _ => lead_ofNat, nofun, nofun⟩

theorem digits_ofInteger (i : Int) : (ofInteger i).digits = i.natAbs := by
  cases i <;> simp [ofInteger, digits, fractionDigits, Decimal.ofNat, Int.natAbs_negSucc]

theorem isNegative_ofInteger (i : Int) : (ofInteger i).isNegative = decide (i < 0) := by
  cases i with
  | ofNat n => simp [ofInteger, isNegative]
  | negSucc n => simp [ofInteger, isNegative, Int.negSucc_lt_zero]

end DataAccess.Numeral
