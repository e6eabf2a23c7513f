import DataAccess.Number.Binary64
import DataAccess.Text.Decimal

namespace DataAccess

structure Numeral where
  sign : Option Char := none
  whole : List Char
  fraction : Option (List Char) := none
  exponent : Option (Option Char × List Char) := none
deriving DecidableEq

namespace Numeral

def splitSign : List Char → Option Char × List Char
  | '-' :: rest => (some '-', rest)
  | '+' :: rest => (some '+', rest)
  | rest => (none, rest)

/-- The digits in front of a text. -/
def splitDigits (text : List Char) : List Char × List Char :=
  text.span Decimal.isDigit

/-- The digits after a point, where there is one. -/
def splitFraction : List Char → Option (List Char) × List Char
  | '.' :: rest =>
      let (digits, rest) := splitDigits rest
      (some digits, rest)
  | rest => (none, rest)

/-- The sign and digits after an exponent mark, where there is one. -/
def splitExponent : List Char → Option (Option Char × List Char) × List Char
  | mark :: rest =>
      if mark = 'e' ∨ mark = 'E' then
        let (sign, rest) := splitSign rest
        let (digits, rest) := splitDigits rest
        (some (sign, digits), rest)
      else (none, mark :: rest)
  | [] => (none, [])

/-- Splits a text that is nothing but a sign, digits, a fraction and an exponent. -/
def read? (text : List Char) : Option Numeral :=
  let (sign, rest) := splitSign text
  let (whole, rest) := splitDigits rest
  let (fraction, rest) := splitFraction rest
  let (exponent, rest) := splitExponent rest
  if rest.isEmpty then some { sign, whole, fraction, exponent } else none

def fractionDigits (n : Numeral) : List Char := n.fraction.getD []

/-- An exponent mark is followed by digits. -/
def hasExponentDigits (n : Numeral) : Bool :=
  match n.exponent with
  | some (_, digits) => !digits.isEmpty
  | none => true

/-- A decimal numeral has a digit before or after the point, and one after an exponent mark. -/
def isDecimal (n : Numeral) : Bool :=
  !(n.whole.isEmpty && n.fractionDigits.isEmpty) && n.hasExponentDigits

/-- JSON wants digits on both sides of a point, no zero in front of other digits, and no plus
sign in front. -/
def isJson (n : Numeral) : Bool :=
  n.sign != some '+' &&
    (match n.whole with
      | [] => false
      | '0' :: rest => rest.isEmpty
      | _ => true) &&
    n.fraction != some [] && n.hasExponentDigits

def isNegative (n : Numeral) : Bool := n.sign == some '-'

/-- Digits only, with a sign at most. -/
def isInteger (n : Numeral) : Bool := n.fraction.isNone && n.exponent.isNone

def digits (n : Numeral) : Nat := Nat.ofDigitChars 10 (n.whole ++ n.fractionDigits) 0

/-- The power of ten by which `digits` is scaled. -/
def scale (n : Numeral) : Int :=
  let written : Int := match n.exponent with
    | some (sign, digits) =>
        let magnitude : Int := Nat.ofDigitChars 10 digits 0
        if sign = some '-' then -magnitude else magnitude
    | none => 0
  written - n.fractionDigits.length

/-- The nearest finite binary64 number. -/
def toBinary64? (n : Numeral) : Option Binary64 :=
  Binary64.ofDecimal? n.isNegative n.digits n.scale

/-- Digits appended to a number as long as it stays below `2^64`, and how many are left out. -/
def gather (gathered : { value : Nat // value < powerOfTwo 64 }) :
    List Char → { value : Nat // value < powerOfTwo 64 } × Nat
  | [] => (gathered, 0)
  | c :: rest =>
      if fits : Nat.ofDigitChars 10 [c] gathered.val < powerOfTwo 64 then gather ⟨_, fits⟩ rest
      else (gathered, rest.length + 1)

/-- A finite binary64 number near to the numeral, though not always the nearest: of a long numeral
only the digits that fit a word of 64 bits count, and these are rounded before they are scaled by a
power of ten, which is rounded as well. So the last bits may be off, and a numeral just below the
limit may be taken for one beyond it. -/
def approximate? (n : Numeral) : Option Binary64 :=
  let (whole, wholeLeft) := gather ⟨0, powerOfTwo_pos 64⟩ n.whole
  let (significand, fractionLeft) := gather whole n.fractionDigits
  (Binary64.ofMagnitude n.isNegative significand.val significand.property).scaled?
    (n.scale + wholeLeft + fractionLeft)

end Numeral

end DataAccess
