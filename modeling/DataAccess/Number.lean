import DataAccess.Number.Shortest
import DataAccess.Text.Numeral

namespace DataAccess

/-- An integer that fits a signed or an unsigned 64-bit word: from `-2^63` up to `2^64 - 1`. -/
structure WideInt where
  val : Int
  lower : -9223372036854775808 ≤ val
  upper : val < 18446744073709551616
deriving DecidableEq

namespace WideInt

def ofInt? (i : Int) : Option WideInt :=
  if fits : -9223372036854775808 ≤ i ∧ i < 18446744073709551616 then some ⟨i, fits.1, fits.2⟩
  else none

def zero : WideInt := ⟨0, by decide, by decide⟩

def one : WideInt := ⟨1, by decide, by decide⟩

def minusOne : WideInt := ⟨-1, by decide, by decide⟩

def signed? (n : WideInt) : Option Int :=
  if n.val < 9223372036854775808 then some n.val else none

def unsigned? (n : WideInt) : Option Nat :=
  if 0 ≤ n.val then some n.val.toNat else none

theorem natAbs_lt (n : WideInt) : n.val.natAbs < powerOfTwo 64 := by
  have lower := n.lower
  have upper := n.upper
  have word : powerOfTwo 64 = 18446744073709551616 := rfl
  omega

def toBinary64 (n : WideInt) : Binary64 :=
  Binary64.ofMagnitude (n.val < 0) n.val.natAbs n.natAbs_lt

end WideInt

inductive Number
  | int (value : WideInt)
  | float (value : Binary64)
deriving DecidableEq

namespace Number

def toBinary64 : Number → Binary64
  | .int n => n.toBinary64
  | .float x => x

/-- The integer value, where the number is an integer of a signed word. -/
def signed? : Number → Option Int
  | .int n => n.signed?
  | .float _ => none

/-- The integer value, where the number is an integer that is not negative. -/
def unsigned? : Number → Option Nat
  | .int n => n.unsigned?
  | .float _ => none

/-- Two integers compare exactly; a float compares with the float nearest to an integer. -/
def order : Number → Number → Ordering
  | .int m, .int n => compare m.val n.val
  | m, n => m.toBinary64.order n.toBinary64

/-- Equality that tells integers and floats apart, but not the two zeros of the floats. -/
def same : Number → Number → Bool
  | .int m, .int n => m.val == n.val
  | .float x, .float y => x.signedUnits == y.signedUnits
  | _, _ => false

def text : Number → List Char
  | .int n => Decimal.ofInt n.val
  | .float x => x.text

/-- The number that a JSON literal is read as. Digits alone denote an integer where one fits; minus
zero, longer integers and all other literals are read as floats, by `approximate?` and therefore
not always as the nearest ones. -/
def ofNumeral? (n : Numeral) : Option Number :=
  if n.isInteger && !(n.isNegative && n.digits == 0) then
    let value : Int := if n.isNegative then -n.digits else n.digits
    match WideInt.ofInt? value with
    | some wide => some (.int wide)
    | none => n.approximate?.map .float
  else n.approximate?.map .float

def ofLiteral? (literal : List Char) : Option Number :=
  match Numeral.read? literal with
  | some n => if n.isJson then ofNumeral? n else none
  | none => none

end Number

end DataAccess
