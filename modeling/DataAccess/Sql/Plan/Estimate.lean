namespace DataAccess.Sql

/-- A cost or a number of rows as a logarithm: ten units double it. -/
abbrev Estimate := Int

namespace Estimate

/-- Three more binary digits after the leading one, as units. -/
def fractionUnits : List Int := [0, 2, 3, 5, 6, 7, 8, 9]

def ofNat (n : Nat) : Estimate :=
  if n < 2 then 0
  else 10 * (n.log2 : Int) + fractionUnits[((8 * n) >>> n.log2) % 8]?.getD 0

/-- What a number grows by if one is added that is smaller by the given units. -/
def growth : List Int :=
  [10, 10, 9, 9, 8, 8, 7, 7, 7, 6, 6, 6, 5, 5, 5, 4, 4, 4, 4, 3, 3, 3, 3, 3, 3, 2, 2, 2, 2, 2, 2, 2]

/-- The estimate of a sum. -/
def add (left right : Estimate) : Estimate :=
  let difference := (left - right).natAbs
  max left right + growth[difference]?.getD (if difference ≤ 49 then 1 else 0)

/-- The estimate of a number's logarithm, a number that is given by its own estimate. -/
def log (n : Estimate) : Estimate := if n ≤ 10 then 0 else ofNat n.toNat - 33

end Estimate

end DataAccess.Sql
