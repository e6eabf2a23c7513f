import DataAccess.Text.Blank
import DataAccess.Text.Decimal

/-!
# Timestamps read by a layout

A layout is literal text with fields: year `%Y`, month `%m`, day `%d`, hour `%H`, minute `%M`,
second `%S`, a point and milliseconds `%.3f`, and the percent sign `%%`. The whole text has to match.
A field may be preceded by blanks; the year takes up to four digits, or any number after a sign, the
other fields up to two, and a blank in the layout matches any number of blanks. Milliseconds may be
absent together with their point; where the point is there, they have exactly three digits.

A timestamp needs a date, an hour and a minute. The 60th second is a leap second and stays one.
-/

namespace DataAccess

namespace Timestamp

inductive Field
  | year | month | day | hour | minute | second
deriving DecidableEq

inductive Item
  | literal (c : Char)
  | blank
  | field (field : Field)
  | milliseconds
deriving DecidableEq

/-- The items of a layout, unless it holds a field of no known kind. -/
def parseLayout : List Char → Option (List Item)
  | [] => some []
  | '%' :: '.' :: '3' :: 'f' :: rest => (parseLayout rest).map (.milliseconds :: ·)
  | '%' :: c :: rest => do
      let item ←
        if c = 'Y' then some (.field .year)
        else if c = 'm' then some (.field .month)
        else if c = 'd' then some (.field .day)
        else if c = 'H' then some (.field .hour)
        else if c = 'M' then some (.field .minute)
        else if c = 'S' then some (.field .second)
        else if c = '%' then some (.literal '%')
        else none
      (parseLayout rest).map (item :: ·)
  | ['%'] => none
  | c :: rest =>
      (parseLayout rest).map ((if Text.isBlank c then Item.blank else Item.literal c) :: ·)

/-- The fields that a text has given so far. -/
structure Fields where
  year : Option Int := none
  month : Option Int := none
  day : Option Int := none
  hour : Option Int := none
  minute : Option Int := none
  second : Option Int := none
  millisecond : Option Int := none

/-- A field that is given twice has to be given alike. -/
def agree (known : Option Int) (value : Int) : Option (Option Int) :=
  match known with
  | some other => if other = value then some known else none
  | none => some (some value)

/-- Sets a field to a value in its range. -/
def Fields.set? (fields : Fields) (field : Field) (value : Int) : Option Fields :=
  let within (low high : Int) := low ≤ value ∧ value ≤ high
  match field with
  | .year => (agree fields.year value).map fun year => { fields with year }
  | .month =>
      if within 1 12 then (agree fields.month value).map fun month => { fields with month }
      else none
  | .day =>
      if within 1 31 then (agree fields.day value).map fun day => { fields with day } else none
  | .hour =>
      if within 0 23 then (agree fields.hour value).map fun hour => { fields with hour } else none
  | .minute =>
      if within 0 59 then (agree fields.minute value).map fun minute => { fields with minute }
      else none
  | .second =>
      if within 0 60 then (agree fields.second value).map fun second => { fields with second }
      else none

/-- A number of up to `width` digits in front of a text. -/
def takeNumber? (width : Nat) (text : List Char) : Option (Int × List Char) :=
  let digits := (text.takeWhile Decimal.isDigit).take width
  (Decimal.toNat? digits).map fun n => ((n : Int), text.drop digits.length)

/-- A year: up to four digits, or a sign and any number of them. -/
def takeYear? : List Char → Option (Int × List Char)
  | '-' :: rest => (takeNumber? rest.length rest).map fun (n, rest) => (-n, rest)
  | '+' :: rest => takeNumber? rest.length rest
  | rest => takeNumber? 4 rest

/-- The milliseconds that three digits in front of a text spell. -/
def takeMilliseconds? (text : List Char) : Option (Int × List Char) :=
  if (text.takeWhile Decimal.isDigit).length < 3 then none else takeNumber? 3 text

def matchItem (item : Item) (fields : Fields) (text : List Char) : Option (Fields × List Char) :=
  match item with
  | .literal c =>
      match text with
      | d :: rest => if c = d then some (fields, rest) else none
      | [] => none
  | .blank => some (fields, text.dropWhile Text.isBlank)
  | .field field => do
      let text := text.dropWhile Text.isBlank
      let (value, rest) ← if field = .year then takeYear? text else takeNumber? 2 text
      let fields ← fields.set? field value
      return (fields, rest)
  | .milliseconds =>
      match text with
      | '.' :: rest => do
          let (value, rest) ← takeMilliseconds? rest
          let millisecond ← agree fields.millisecond value
          return ({ fields with millisecond }, rest)
      | _ => some (fields, text)

/-- The fields of a text that matches a layout as a whole. -/
def matchItems : List Item → Fields → List Char → Option Fields
  | [], fields, text => if text.isEmpty then some fields else none
  | item :: items, fields, text => do
      let (fields, rest) ← matchItem item fields text
      matchItems items fields rest

def isLeapYear (year : Int) : Bool :=
  (year % 4 == 0 && year % 100 != 0) || year % 400 == 0

def daysInMonth (year month : Int) : Int :=
  if month = 2 then if isLeapYear year then 29 else 28
  else if month = 4 ∨ month = 6 ∨ month = 9 ∨ month = 11 then 30
  else 31

/-- The years that timestamps reach. -/
def isYear (year : Int) : Bool := -262143 ≤ year && year ≤ 262142

end Timestamp

/-- A point of time in the proleptic Gregorian calendar, without a zone. -/
structure Timestamp where
  year : Int
  month : Int
  day : Int
  hour : Int := 0
  minute : Int := 0
  second : Int := 0
  millisecond : Int := 0
deriving DecidableEq

namespace Timestamp

/-- Midnight of the date that fields give. -/
def date? (fields : Fields) : Option Timestamp := do
  let year ← fields.year
  let month ← fields.month
  let day ← fields.day
  if isYear year ∧ day ≤ daysInMonth year month then some { year, month, day } else none

/-- The point of time that fields give. Milliseconds need a second. -/
def dateTime? (fields : Fields) : Option Timestamp := do
  let date ← date? fields
  let hour ← fields.hour
  let minute ← fields.minute
  if fields.millisecond.isSome ∧ fields.second.isNone then none
  else
    let second := fields.second.getD 0
    let millisecond := fields.millisecond.getD 0
    some { date with hour, minute, second, millisecond }

/-- The point of time in a text, or midnight where the layout gives a date alone. -/
def read? (text layout : String) : Option Timestamp := do
  let items ← parseLayout layout.toList
  let fields ← matchItems items {} text.toList
  dateTime? fields <|> date? fields

/-- Digits with zeros in front of them up to a width. -/
def padded (width : Nat) (n : Nat) : List Char :=
  let digits := Decimal.ofNat n
  List.replicate (width - digits.length) '0' ++ digits

/-- Years beyond four digits and years before year zero have a sign. -/
def yearText (year : Int) : List Char :=
  if year < 0 then '-' :: padded 4 year.natAbs
  else if 9999 < year then '+' :: padded 4 year.natAbs
  else padded 4 year.natAbs

def millisecondText (millisecond : Nat) : List Char :=
  if millisecond = 0 then [] else '.' :: padded 3 millisecond

def text (t : Timestamp) : String :=
  let two (n : Int) := padded 2 n.natAbs
  String.ofList
    (yearText t.year ++ '-' :: two t.month ++ '-' :: two t.day ++ ' ' :: two t.hour ++
      ':' :: two t.minute ++ ':' :: two t.second ++ millisecondText t.millisecond.natAbs)

end Timestamp

end DataAccess
