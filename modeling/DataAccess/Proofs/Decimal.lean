import DataAccess.Number.Binary64
import DataAccess.Text.Decimal
import Mathlib.Tactic.IntervalCases

namespace DataAccess.Decimal

theorem ofNat_injective : Function.Injective ofNat := by
  intro m n same
  have read := toNat?_ofNat m
  rw [same, toNat?_ofNat] at read
  exact (Option.some.inj read).symm

theorem isDigit_of_ofNat_eq_cons {n : Nat} {c : Char} {rest : List Char}
    (same : ofNat n = c :: rest) : isDigit c = true :=
  isDigit_of_mem_ofNat (same ▸ List.mem_cons_self)

theorem not_mem_ofNat_of_not_digit {c : Char} (other : isDigit c = false) (n : Nat) : c ∉ ofNat n := by
  intro member
  rw [isDigit_of_mem_ofNat member] at other
  cases other

theorem exists_lead {n : Nat} (nonzero : n ≠ 0) :
    ∃ lead rest, ofNat n = lead :: rest ∧ lead ≠ '0' := by
  induction n using Nat.strongRecOn with
  | ind n ih =>
      rw [ofNat, Nat.toDigits_eq_if (by decide)]
      split
      · refine ⟨_, _, rfl, ?_⟩
        interval_cases n <;> first | contradiction | decide
      · obtain ⟨lead, rest, digits, leads⟩ := ih (n / 10) (by omega) (by omega)
        rw [ofNat] at digits
        exact ⟨lead, _, by rw [digits]; rfl, leads⟩

theorem digit_lt {c : Char} (digit : isDigit c = true) : c.toNat - '0'.toNat < 10 := by
  have upper : c ≤ '9' := by
    simp only [isDigit, Char.isDigit, Bool.and_eq_true, decide_eq_true_eq] at digit
    exact digit.2
  have bounded : c.toNat ≤ '9'.toNat := upper
  have span : '9'.toNat = '0'.toNat + 9 := rfl
  omega

/-- Digits after a number make it less than the next number with as many zeros. -/
theorem ofDigitChars_lt {digits : List Char} (each : ∀ c ∈ digits, isDigit c = true) (start : Nat) :
    Nat.ofDigitChars 10 digits start < (start + 1) * powerOfTen digits.length := by
  induction digits generalizing start with
  | nil => exact Nat.lt_of_lt_of_eq (Nat.lt_succ_self start) (Nat.mul_one _).symm
  | cons c rest ih =>
      have digit := digit_lt (each c List.mem_cons_self)
      have next : 10 * start + (c.toNat - '0'.toNat) + 1 ≤ (start + 1) * 10 := by omega
      rw [Nat.ofDigitChars_cons, List.length_cons, powerOfTen_succ, ← Nat.mul_assoc]
      exact Nat.lt_of_lt_of_le (ih (fun d member => each d (List.mem_cons_of_mem _ member)) _)
        (Nat.mul_le_mul_right _ next)

theorem ofInt_injective : Function.Injective ofInt := by
  have unsigned : ∀ (n : Nat) (rest : List Char), ofNat n ≠ '-' :: rest := by
    intro n rest same
    have digit := isDigit_of_ofNat_eq_cons same
    revert digit
    decide
  intro i j same
  cases i with
  | ofNat m =>
      cases j with
      | ofNat n => exact congrArg Int.ofNat (ofNat_injective same)
      | negSucc n => exact (unsigned m _ same).elim
  | negSucc m =>
      cases j with
      | ofNat n => exact (unsigned n _ same.symm).elim
      | negSucc n =>
          have successors := ofNat_injective (List.cons.inj same).2
          exact congrArg Int.negSucc (Nat.succ.inj successors)

theorem marks_not_mem_ofInt (i : Int) : '.' ∉ ofInt i ∧ 'e' ∉ ofInt i := by
  have point := not_mem_ofNat_of_not_digit (c := '.') rfl
  have mark := not_mem_ofNat_of_not_digit (c := 'e') rfl
  cases i with
  | ofNat n => exact ⟨point n, mark n⟩
  | negSucc n =>
      simp only [ofInt, List.mem_cons, not_or]
      exact ⟨⟨by decide, point _⟩, by decide, mark _⟩

theorem unsigned?_ofNat (n : Nat) : unsigned? (ofNat n) = some n := by
  have unmarked : '+' ∉ ofNat n := not_mem_ofNat_of_not_digit rfl n
  unfold unsigned?
  split
  · rename_i signed
    rw [signed] at unmarked
    exact absurd List.mem_cons_self unmarked
  · exact toNat?_ofNat n

theorem signed?_ofInt (i : Int) : signed? (ofInt i) = some i := by
  cases i with
  | ofNat n =>
      have unmarked : '-' ∉ ofNat n := not_mem_ofNat_of_not_digit rfl n
      unfold signed?
      split
      · rename_i signed
        rw [ofInt] at signed
        rw [signed] at unmarked
        exact absurd List.mem_cons_self unmarked
      · rw [ofInt, unsigned?_ofNat, Option.map_some]
  | negSucc n =>
      rw [ofInt, signed?, toNat?_ofNat]
      rfl

theorem position?_ofNat {n : Nat} (bounded : n < positionLimit) : position? (ofNat n) = some n := by
  simp [position?, unsigned?_ofNat, Option.filter_some, bounded]

end DataAccess.Decimal
