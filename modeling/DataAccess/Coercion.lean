import DataAccess.Object.Error
import DataAccess.Text.Blank

/-!
# Converting attribute values

A typed read converts what is stored, but loses nothing silently: integers come from numbers and
numerals without a fraction, floats from numbers that they hold exactly, booleans from 0 and 1 and
their names, text from any scalar, and containers only from their own kind.
-/

namespace DataAccess

/-- The types a read can ask for. -/
inductive Target
  | bool | int32 | int64 | uint64 | float64 | string | map | sequence
deriving DecidableEq

namespace Target

def name : Target → String
  | .bool => "bool"
  | .int32 => "i32"
  | .int64 => "i64"
  | .uint64 => "u64"
  | .float64 => "f64"
  | .string => "string"
  | .map => "map"
  | .sequence => "sequence"

def all : List Target := [.bool, .int32, .int64, .uint64, .float64, .string, .map, .sequence]

def ofName? (text : String) : Option Target := all.find? (·.name == text)

end Target

namespace Coercion

def refuse {α : Type} (value : Value) (target : Target) (fault : CoercionFault) :
    Except ObjectError α :=
  .error (.coercion value.kind target.name fault)

def toBool (value : Value) : Except ObjectError Bool :=
  match value with
  | .bool b => .ok b
  | .number (.int n) =>
      if n.val = 0 then .ok false
      else if n.val = 1 then .ok true
      else refuse value .bool (.neitherZeroNorOne (.int n))
  | .number (.float x) =>
      if x.signedUnits = 0 then .ok false
      else if x.signedUnits = Binary64.unitsOfOne then .ok true
      else refuse value .bool (.neitherZeroNorOne (.float x))
  | .string s =>
      let text := Text.lowerAscii (Text.trim s.toList)
      if text = "true".toList ∨ text = ['1'] then .ok true
      else if text = "false".toList ∨ text = ['0'] then .ok false
      else refuse value .bool (.notABoolean (String.ofList text))
  | _ => refuse value .bool .kindMismatch

/-- An integer of a signed 64-bit word. -/
def int64? (i : Int) : Option WideInt :=
  if fits : -9223372036854775808 ≤ i ∧ i < 9223372036854775808 then some ⟨i, fits.1, by omega⟩
  else none

/-- An integer of an unsigned 64-bit word. -/
def uint64? (i : Int) : Option WideInt :=
  if fits : 0 ≤ i ∧ i < 18446744073709551616 then some ⟨i, by omega, fits.2⟩ else none

/-- The integer that a float is, where it fits a signed word. -/
def integralFloat? (x : Binary64) : Option WideInt :=
  if x.isIntegral then int64? x.truncate else none

/-- The finite float that a decimal numeral denotes. -/
def parseFloat? (text : List Char) : Option Binary64 :=
  match Numeral.read? text with
  | some n => if n.isDecimal then n.toBinary64? else none
  | none => none

/-- A signed integer in decimal, or else any numeral whose float is one. -/
def parseInt64? (text : List Char) : Option WideInt :=
  match (Decimal.signed? text).bind int64? with
  | some i => some i
  | none => (parseFloat? text).bind integralFloat?

def parseUInt64? (text : List Char) : Option WideInt :=
  (Decimal.unsigned? text).bind fun n => uint64? n

def toInt64 (value : Value) : Except ObjectError WideInt :=
  match value with
  | .bool false => .ok .zero
  | .bool true => .ok .one
  | .number n =>
      let found := match n with
        | .int n => int64? n.val
        | .float x => integralFloat? x
      match found with
      | some i => .ok i
      | none => refuse value .int64 (.notAnInteger n)
  | .string s =>
      match parseInt64? (Text.trim s.toList) with
      | some i => .ok i
      | none => refuse value .int64 (.textNotAnInteger s)
  | _ => refuse value .int64 .kindMismatch

/-- The way to an unsigned word through a signed one. -/
def signedToUInt64 (value : Value) : Except ObjectError WideInt :=
  match toInt64 value with
  | .ok i => if 0 ≤ i.val then .ok i else refuse value .uint64 (.negative i.val)
  | .error _ => refuse value .uint64 .notUnsigned

def toUInt64 (value : Value) : Except ObjectError WideInt :=
  match value with
  | .number (.int n) => if 0 ≤ n.val then .ok n else signedToUInt64 value
  | .string s =>
      match parseUInt64? (Text.trim s.toList) with
      | some u => .ok u
      | none => signedToUInt64 value
  | _ => signedToUInt64 value

def toInt32 (value : Value) : Except ObjectError WideInt := do
  let i ← toInt64 value
  if -2147483648 ≤ i.val ∧ i.val < 2147483648 then .ok i
  else refuse value .int32 (.outOfRange i.val)

/-- The largest magnitude up to which binary64 holds every integer, `2^53`. -/
def exactLimit : Nat := 9007199254740992

def toFloat64 (value : Value) : Except ObjectError Binary64 :=
  match value with
  | .bool b => .ok (Binary64.ofMagnitude false b.toNat (by cases b <;> decide))
  | .number (.int n) =>
      if n.val.natAbs ≤ exactLimit then .ok n.toBinary64
      else refuse value .float64 (.inexact (.int n))
  | .number (.float x) => .ok x
  | .string s =>
      match parseFloat? (Text.trim s.toList) with
      | some x => .ok x
      | none => refuse value .float64 (.textNotANumber s)
  | _ => refuse value .float64 .kindMismatch

def toText (value : Value) : Except ObjectError String :=
  match value with
  | .string s => .ok s
  | .number n => .ok (String.ofList n.text)
  | .bool b => .ok (if b then "true" else "false")
  | _ => refuse value .string .kindMismatch

def coerce (value : Value) (target : Target) : Except ObjectError Value :=
  match target with
  | .bool => Value.bool <$> toBool value
  | .int32 => (Value.number ∘ .int) <$> toInt32 value
  | .int64 => (Value.number ∘ .int) <$> toInt64 value
  | .uint64 => (Value.number ∘ .int) <$> toUInt64 value
  | .float64 => (Value.number ∘ .float) <$> toFloat64 value
  | .string => Value.string <$> toText value
  | .map => if value.kind = .map then .ok value else refuse value .map .kindMismatch
  | .sequence =>
      if value.kind = .sequence then .ok value else refuse value .sequence .kindMismatch

end Coercion

end DataAccess
