import DataAccess.Coercion
import DataAccess.Proofs.Decimal
import DataAccess.Proofs.Except

namespace DataAccess

/-- The values that a read of a type may give. -/
inductive Value.OfTarget : Target → Value → Prop
  | bool (b : Bool) : OfTarget .bool (.bool b)
  | int32 {n : WideInt} : -2147483648 ≤ n.val → n.val < 2147483648 →
      OfTarget .int32 (.number (.int n))
  | int64 {n : WideInt} : n.val < 9223372036854775808 → OfTarget .int64 (.number (.int n))
  | uint64 {n : WideInt} : 0 ≤ n.val → OfTarget .uint64 (.number (.int n))
  | float64 (x : Binary64) : OfTarget .float64 (.number (.float x))
  | string (s : String) : OfTarget .string (.string s)
  | map (fields : Record) : OfTarget .map (.map fields)
  | sequence (items : List Value) : OfTarget .sequence (.sequence items)

theorem Text.trim_eq_self {text : List Char} (each : ∀ c ∈ text, isBlank c = false) :
    trim text = text := by
  have keeps : ∀ chars : List Char, (∀ c ∈ chars, isBlank c = false) →
      chars.dropWhile isBlank = chars := by
    intro chars solid
    cases chars with
    | nil => rfl
    | cons c rest => simp [solid c List.mem_cons_self]
  rw [trim, keeps text each, keeps text.reverse, List.reverse_reverse]
  intro c member
  exact each c (List.mem_reverse.mp member)

namespace Decimal

theorem not_isBlank_of_isDigit {c : Char} (digit : isDigit c = true) : Text.isBlank c = false := by
  have range : 48 ≤ c.toNat ∧ c.toNat ≤ 57 := by
    simpa [isDigit, Char.isDigit, UInt32.le_iff_toNat_le] using digit
  simp only [Text.isBlank, Bool.or_eq_false_iff, Bool.and_eq_false_iff, decide_eq_false_iff_not,
    beq_eq_false_iff_ne]
  omega

theorem trim_ofNat (n : Nat) : Text.trim (ofNat n) = ofNat n :=
  Text.trim_eq_self fun _ member => not_isBlank_of_isDigit (isDigit_of_mem_ofNat member)

theorem trim_ofInt (i : Int) : Text.trim (ofInt i) = ofInt i := by
  cases i with
  | ofNat n => exact trim_ofNat n
  | negSucc n =>
      refine Text.trim_eq_self (List.forall_mem_cons.mpr ⟨by decide, fun c member => ?_⟩)
      exact not_isBlank_of_isDigit (isDigit_of_mem_ofNat member)

end Decimal

namespace Coercion

variable {value result : Value} {target : Target} {n : WideInt}

theorem int64?_eq_some {i : Int} (fits : int64? i = some n) :
    n.val = i ∧ n.val < 9223372036854775808 := by
  unfold int64? at fits
  split at fits
  · rename_i bounds
    cases fits
    exact ⟨rfl, bounds.2⟩
  · cases fits

theorem int64?_val (signed : n.val < 9223372036854775808) : int64? n.val = some n :=
  dif_pos ⟨n.lower, signed⟩

theorem uint64?_eq_some {i : Int} (fits : uint64? i = some n) : n.val = i ∧ 0 ≤ n.val := by
  unfold uint64? at fits
  split at fits
  · rename_i bounds
    cases fits
    exact ⟨rfl, bounds.1⟩
  · cases fits

theorem uint64?_val (unsigned : 0 ≤ n.val) : uint64? n.val = some n :=
  dif_pos ⟨unsigned, n.upper⟩

theorem integralFloat?_lt {x : Binary64} (integral : integralFloat? x = some n) :
    n.val < 9223372036854775808 := by
  unfold integralFloat? at integral
  split at integral
  · exact (int64?_eq_some integral).2
  · cases integral

theorem parseInt64?_lt {text : List Char} (parsed : parseInt64? text = some n) :
    n.val < 9223372036854775808 := by
  unfold parseInt64? at parsed
  split at parsed
  · rename_i i exact
    cases parsed
    obtain ⟨i, _, fits⟩ := Option.bind_eq_some_iff.mp exact
    exact (int64?_eq_some fits).2
  · obtain ⟨x, _, integral⟩ := Option.bind_eq_some_iff.mp parsed
    exact integralFloat?_lt integral

theorem toInt64_lt (converted : toInt64 value = .ok n) : n.val < 9223372036854775808 := by
  cases value with
  | bool b => cases b <;> cases converted <;> decide
  | number m =>
      simp only [toInt64] at converted
      split at converted
      · rename_i found
        cases converted
        cases m with
        | int m => exact (int64?_eq_some found).2
        | float x => exact integralFloat?_lt found
      · cases converted
  | string s =>
      simp only [toInt64] at converted
      split at converted
      · rename_i parsed
        cases converted
        exact parseInt64?_lt parsed
      · cases converted
  | null | sequence | map => cases converted

theorem signedToUInt64_nonneg (converted : signedToUInt64 value = .ok n) : 0 ≤ n.val := by
  unfold signedToUInt64 at converted
  split at converted
  · split at converted
    · rename_i nonneg
      cases converted
      exact nonneg
    · cases converted
  · cases converted

theorem toUInt64_nonneg (converted : toUInt64 value = .ok n) : 0 ≤ n.val := by
  unfold toUInt64 at converted
  split at converted
  · split at converted
    · rename_i nonneg
      cases converted
      exact nonneg
    · exact signedToUInt64_nonneg converted
  · split at converted
    · rename_i parsed
      cases converted
      obtain ⟨m, _, fits⟩ := Option.bind_eq_some_iff.mp parsed
      exact (uint64?_eq_some fits).2
    · exact signedToUInt64_nonneg converted
  · exact signedToUInt64_nonneg converted

theorem toInt32_bounds (converted : toInt32 value = .ok n) :
    -2147483648 ≤ n.val ∧ n.val < 2147483648 := by
  obtain ⟨i, _, narrowed⟩ := bind_eq_ok.mp converted
  split at narrowed
  · rename_i bounds
    cases narrowed
    exact bounds
  · cases narrowed

theorem ofTarget_of_coerce (converted : coerce value target = .ok result) :
    result.OfTarget target := by
  cases target with
  | bool =>
      obtain ⟨b, _, rfl⟩ := map_eq_ok.mp converted
      exact .bool b
  | int32 =>
      obtain ⟨n, narrowed, rfl⟩ := map_eq_ok.mp converted
      obtain ⟨lower, upper⟩ := toInt32_bounds narrowed
      exact .int32 lower upper
  | int64 =>
      obtain ⟨n, signed, rfl⟩ := map_eq_ok.mp converted
      exact .int64 (toInt64_lt signed)
  | uint64 =>
      obtain ⟨n, unsigned, rfl⟩ := map_eq_ok.mp converted
      exact .uint64 (toUInt64_nonneg unsigned)
  | float64 =>
      obtain ⟨x, _, rfl⟩ := map_eq_ok.mp converted
      exact .float64 x
  | string =>
      obtain ⟨s, _, rfl⟩ := map_eq_ok.mp converted
      exact .string s
  | map =>
      cases value with
      | map fields =>
          cases converted
          exact .map fields
      | _ => cases converted
  | sequence =>
      cases value with
      | sequence items =>
          cases converted
          exact .sequence items
      | _ => cases converted

theorem toInt64_int (signed : n.val < 9223372036854775808) :
    toInt64 (.number (.int n)) = .ok n := by
  simp only [toInt64, int64?_val signed]

theorem coerce_of_ofTarget (ofTarget : value.OfTarget target) : coerce value target = .ok value := by
  cases ofTarget with
  | bool | float64 | string | map | sequence => rfl
  | int32 lower upper =>
      rw [coerce, toInt32, toInt64_int (by omega), ok_bind, if_pos ⟨lower, upper⟩]
      rfl
  | int64 signed =>
      rw [coerce, toInt64_int signed]
      rfl
  | uint64 unsigned =>
      rw [coerce, toUInt64, if_pos unsigned]
      rfl

theorem parseInt64?_ofInt (signed : n.val < 9223372036854775808) :
    parseInt64? (Decimal.ofInt n.val) = some n := by
  simp only [parseInt64?, Decimal.signed?_ofInt, Option.bind_some, int64?_val signed]

theorem parseUInt64?_ofInt (unsigned : 0 ≤ n.val) :
    parseUInt64? (Decimal.ofInt n.val) = some n := by
  obtain ⟨m, natural⟩ := Int.eq_ofNat_of_zero_le unsigned
  have fits : uint64? (m : Int) = some n := natural ▸ uint64?_val unsigned
  rw [natural, parseUInt64?, ← Int.ofNat_eq_natCast, Decimal.ofInt, Decimal.unsigned?_ofNat,
    Option.bind_some, fits]

theorem coerce_text_int64 (signed : n.val < 9223372036854775808) :
    coerce (.string (String.ofList (Decimal.ofInt n.val))) .int64 = .ok (.number (.int n)) := by
  simp only [coerce, toInt64, String.toList_ofList, Decimal.trim_ofInt, parseInt64?_ofInt signed]
  rfl

theorem coerce_text_uint64 (unsigned : 0 ≤ n.val) :
    coerce (.string (String.ofList (Decimal.ofInt n.val))) .uint64 = .ok (.number (.int n)) := by
  simp only [coerce, toUInt64, String.toList_ofList, Decimal.trim_ofInt,
    parseUInt64?_ofInt unsigned]
  rfl

theorem coerce_text_bool (b : Bool) :
    coerce (.string (if b then "true" else "false")) .bool = .ok (.bool b) := by
  cases b <;> rfl

/-- A converted value has the type asked for and is converted to itself. Integers of 64-bit words
and truth values are converted to text and from there back to themselves. -/
theorem conversion_is_stable :
    (∀ value target result, coerce value target = .ok result →
      result.OfTarget target ∧ coerce result target = .ok result) ∧
    (∀ n : WideInt, n.val < 9223372036854775808 →
      ∃ text, coerce (.number (.int n)) .string = .ok text ∧
        coerce text .int64 = .ok (.number (.int n))) ∧
    (∀ n : WideInt, 0 ≤ n.val →
      ∃ text, coerce (.number (.int n)) .string = .ok text ∧
        coerce text .uint64 = .ok (.number (.int n))) ∧
    ∀ b : Bool, ∃ text, coerce (.bool b) .string = .ok text ∧ coerce text .bool = .ok (.bool b) := by
  refine ⟨fun value target result converted => ?_, fun n signed => ?_, fun n unsigned => ?_,
    fun b => ?_⟩
  · have ofTarget := ofTarget_of_coerce converted
    exact ⟨ofTarget, coerce_of_ofTarget ofTarget⟩
  · exact ⟨_, rfl, coerce_text_int64 signed⟩
  · exact ⟨_, rfl, coerce_text_uint64 unsigned⟩
  · exact ⟨_, rfl, coerce_text_bool b⟩

theorem padded_numeral_stays_converted :
    ∃ five : WideInt, coerce (.string " 5.0 ") .int64 = .ok (.number (.int five)) ∧
      coerce (.number (.int five)) .int64 = .ok (.number (.int five)) ∧
      (∃ text, coerce (.number (.int ⟨-9223372036854775808, by decide, by decide⟩)) .string =
          .ok text ∧
        coerce text .int64 = .ok (.number (.int ⟨-9223372036854775808, by decide, by decide⟩))) ∧
      ∃ text, coerce (.number (.int ⟨18446744073709551615, by decide, by decide⟩)) .string =
          .ok text ∧
        coerce text .uint64 = .ok (.number (.int ⟨18446744073709551615, by decide, by decide⟩)) := by
  obtain ⟨stable, signed, unsigned, _⟩ := conversion_is_stable
  have five : coerce (.string " 5.0 ") .int64 = .ok (.number (.int ⟨5, by decide, by decide⟩)) := by
    decide +kernel
  exact ⟨_, five, (stable _ _ _ five).2, signed _ (by decide), unsigned _ (by decide)⟩

end Coercion

end DataAccess
