import DataAccess.Comparison
import DataAccess.Json.Printer
import DataAccess.Store.Error
import DataAccess.Text.Numeral
import DataAccess.Text.Utf8

namespace DataAccess.Sql

inductive Cell
  | null
  | integer (i : Int)
  | real (x : Binary64)
  /-- A float beyond all others on one side. -/
  | infinite (isNegative : Bool)
  | text (bytes : List UInt8)
  | blob (bytes : List UInt8)
deriving DecidableEq

namespace Cell

def ofValue : Value → Cell
  | .null => .null
  | .bool b => .integer b.toNat
  | .number n =>
      match n.signed? with
      | some i => .integer i
      | none => .real n.toBinary64
  | .string s => .text (Utf8.encode s)
  | .sequence items => .text (Utf8.encode (Value.sequence items).toJson)
  | .map fields => .text (Utf8.encode (Value.map fields).toJson)

/-- The number that a numeral spells: an integer where a sign and digits alone spell one of a signed
word. -/
def ofNumeral (n : Numeral) : Cell :=
  let value : Int := if n.isNegative then -n.digits else n.digits
  if n.isInteger && -9223372036854775808 ≤ value && value < 9223372036854775808 then .integer value
  else
    match n.toBinary64? with
    | some x => .real x
    | none => .infinite n.isNegative

def isBlankByte (byte : UInt8) : Bool := byte == 0x20 || (0x09 ≤ byte && byte ≤ 0x0d)

/-- A text that is a numeral between blanks as the number it spells; any other cell as it is. -/
def toNumeric : Cell → Cell
  | .text bytes =>
      let trimmed := ((bytes.dropWhile isBlankByte).reverse.dropWhile isBlankByte).reverse
      match Numeral.read? (trimmed.map fun byte => Char.ofNat byte.toNat) with
      | some n => if n.isDecimal then ofNumeral n else .text bytes
      | none => .text bytes
  | cell => cell

def byteValue (byte : UInt8) : Value := Value.ofNat byte.toNat (by
  have small := byte.toNat_lt
  omega)

/-- The value read from a cell. An infinite float reads as null, and bytes as a list. -/
def toValue : Cell → Except StoreError Value
  | .null => .ok .null
  | .integer i => .ok ((Value.ofInt? i).getD .null)
  | .real x => .ok (.number (.float x))
  | .infinite _ => .ok .null
  | .text bytes =>
      match Utf8.decode bytes with
      | .ok decoded => .ok (.string decoded)
      | .error fault => .error (.backend (.notUtf8 fault.validBytes fault.length))
  | .blob bytes => .ok (.sequence (bytes.map byteValue))

def rank : Cell → Nat
  | .null => 0
  | .integer _ => 1
  | .real _ => 1
  | .infinite _ => 1
  | .text _ => 2
  | .blob _ => 3

/-- The side on which a number is infinite, if any, and its value in the smallest units of floats. -/
def magnitude : Cell → Int × Int
  | .integer i => (0, i * Binary64.unitsOfOne)
  | .real x => (0, x.signedUnits)
  | .infinite isNegative => (if isNegative then -1 else 1, 0)
  | _ => (0, 0)

def numberOrder (left right : Cell) : Ordering :=
  (compare left.magnitude.1 right.magnitude.1).then (compare left.magnitude.2 right.magnitude.2)

def bytesOrder : List UInt8 → List UInt8 → Ordering
  | [], [] => .eq
  | [], _ :: _ => .lt
  | _ :: _, [] => .gt
  | x :: xs, y :: ys => (compare x y).then (bytesOrder xs ys)

def order (left right : Cell) : Ordering :=
  match left, right with
  | .text xs, .text ys => bytesOrder xs ys
  | .blob xs, .blob ys => bytesOrder xs ys
  | left, right =>
      if left.rank = right.rank then numberOrder left right else compare left.rank right.rank

/-- A comparison of cells, unknown where one of them is null. -/
def compares? (op : Comparison) (left right : Cell) : Option Bool :=
  if left = .null ∨ right = .null then none else some (op.accepts (left.order right))

/-- Two cells that a constraint takes for the same key; nulls never are. -/
def clashes (left right : Cell) : Bool := compares? .equal left right == some true

end Cell

end DataAccess.Sql
