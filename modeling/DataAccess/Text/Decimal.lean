namespace DataAccess.Decimal

/-- The ASCII digits; no other script's digits count. -/
def isDigit (c : Char) : Bool := c.isDigit

def ofNat (n : Nat) : List Char := Nat.toDigits 10 n

def ofInt : Int → List Char
  | .ofNat n => ofNat n
  | .negSucc n => '-' :: ofNat (n + 1)

/-- The value of a non-empty run of digits. -/
def toNat? (digits : List Char) : Option Nat :=
  if digits.isEmpty || !digits.all isDigit then none
  else some (Nat.ofDigitChars 10 digits 0)

/-- Digits with an optional plus sign. -/
def unsigned? : List Char → Option Nat
  | '+' :: digits => toNat? digits
  | digits => toNat? digits

/-- Digits with an optional sign. -/
def signed? : List Char → Option Int
  | '-' :: digits => (toNat? digits).map fun n => -(n : Int)
  | digits => (unsigned? digits).map Int.ofNat

theorem isDigit_of_mem_ofNat {n : Nat} {c : Char} (member : c ∈ ofNat n) : isDigit c = true :=
  Nat.isDigit_of_mem_toDigits (by decide) (by decide) member

theorem ofNat_ne_nil (n : Nat) : ofNat n ≠ [] :=
  List.ne_nil_of_length_pos Nat.length_toDigits_pos

theorem toNat?_ofNat (n : Nat) : toNat? (ofNat n) = some n := by
  have digits : (ofNat n).all isDigit = true :=
    List.all_eq_true.mpr fun _ member => isDigit_of_mem_ofNat member
  have nonempty : (ofNat n).isEmpty = false := by
    simpa using ofNat_ne_nil n
  simp only [toNat?, digits, nonempty, Bool.not_true, Bool.or_self, Bool.false_eq_true, ↓reduceIte]
  exact congrArg some (Nat.ofDigitChars_toDigits (by decide) (by decide))

/-- The first number that is too large for a position in a sequence, `2^64`. -/
def positionLimit : Nat := 18446744073709551616

/-- A position in a sequence. -/
def position? (text : List Char) : Option Nat :=
  (unsigned? text).filter (· < positionLimit)

end DataAccess.Decimal
