import DataAccess.Number.Binary64

/-!
# Shortest decimal text of a binary64 number

A decimal magnitude is counted in units of `10^-1074`, the grid that every binary64 magnitude lies
on: `units` of `2^-1074` are exactly `units · 5^1074` of them. Of the decimals that read back as a
given magnitude, those with the fewest digits are wanted, of these the nearest, and of two equally
near the one with an even last digit.
-/

namespace DataAccess.Binary64

/-- The exact decimal value of a count of units. -/
def exactDecimal (units : Nat) : Nat := units * Nat.pow 5 1074

/-- The decimals that round to a count of units: those up to half a step away, the two ends
belonging to even significands. Below a power of two the step is half as wide. -/
def readsBack (units decimal : Nat) : Bool :=
  let shift := units.log2 - 52
  let step := powerOfTwo shift
  let above := 4 * units + 2 * step
  let below :=
    if units = powerOfTwo (shift + 52) ∧ shift ≠ 0 then 4 * units - step
    else 4 * units - 2 * step
  let low := exactDecimal below
  let high := exactDecimal above
  let four := 4 * decimal
  (low < four && four < high) || ((units / step) % 2 == 0 && (four == low || four == high))

/-- The nearest to an exact value of the two multiples of `grid` around it, where they are
accepted. -/
def nearestMultiple? (accepts : Nat → Bool) (exact grid : Nat) : Option Nat :=
  let low := exact / grid * grid
  let high := low + grid
  match accepts low, accepts high with
  | true, true =>
      if exact - low < high - exact then some low
      else if high - exact < exact - low then some high
      else if (low / grid) % 2 = 0 then some low else some high
  | true, false => some low
  | false, true => some high
  | false, false => none

/-- The nearest of the decimals that read back among the two multiples of `grid` around the exact
value. -/
def onGrid? (units grid : Nat) : Option Nat :=
  nearestMultiple? (readsBack units) (exactDecimal units) grid

/-- The shortest decimal that reads back, searched on finer and finer grids. The exact value ends
the search. -/
def shortestDecimal (units : Nat) : Nat :=
  let exact := exactDecimal units
  let length := (Nat.toDigits 10 exact).length
  ((List.range length).findSome? fun finer =>
    onGrid? units (powerOfTen (length - 1 - finer))).getD exact

/-- Digits without the zeros at their end. -/
def significantDigits (digits : List Char) : List Char :=
  (digits.reverse.dropWhile (· == '0')).reverse

/-- Where `d.ddd · 10^exponent` is written positionally: from `-5` up to `15`. -/
def isPositional (exponent : Int) : Bool :=
  decide (-5 ≤ exponent) && decide (exponent < 16)

/-- Positional digits, always with a fraction. -/
def positionalText (digits : List Char) (exponent : Int) : List Char :=
  match exponent with
  | .negSucc below => '0' :: '.' :: List.replicate below '0' ++ digits
  | .ofNat above =>
      let whole := digits.take (above + 1)
      let fraction := digits.drop (above + 1)
      whole ++ List.replicate (above + 1 - whole.length) '0' ++
        '.' :: (if fraction.isEmpty then ['0'] else fraction)

/-- One digit, a fraction where there is one, and a signed exponent. -/
def scientificText (digits : List Char) (exponent : Int) : List Char :=
  let mantissa := match digits with
    | lead :: next :: rest => lead :: '.' :: next :: rest
    | single => single
  mantissa ++ 'e' :: (if exponent < 0 then '-' else '+') :: Nat.toDigits 10 exponent.natAbs

/-- The text of a number: a sign for the negative ones, zero included, and the shortest digits. -/
def text (x : Binary64) : List Char :=
  let unsigned :=
    if x.units = 0 then ['0', '.', '0']
    else
      let digits := Nat.toDigits 10 (shortestDecimal x.units)
      let exponent : Int := (digits.length : Int) - 1 - 1074
      let significant := significantDigits digits
      if isPositional exponent then positionalText significant exponent
      else scientificText significant exponent
  if x.negative then '-' :: unsigned else unsigned

end DataAccess.Binary64
