import DataAccess.Store.Error

namespace DataAccess.Sql

structure Failure where
  code : Int
  text : Option String := none
deriving DecidableEq

namespace Failure

/-- The lowest byte of the code, in two's complement where the code is negative. -/
def primaryCode (failure : Failure) : Int := failure.code % 256

def busy : Int := 5
def locked : Int := 6
def constraint : Int := 19
def primaryKeyConstraint : Int := 1555
def uniqueConstraint : Int := 2067

/-- The error that a failed call reports. -/
def toError (failure : Failure) : StoreError :=
  if failure.primaryCode = constraint ∧
      (failure.code = primaryKeyConstraint ∨ failure.code = uniqueConstraint) then
    .duplicateKey
      (match failure.text with
        | some text => .described text
        | none => .coded failure.code.toNat)
  else if failure.primaryCode = busy ∨ failure.primaryCode = locked then .timeout
  else .sqlite

end Failure

end DataAccess.Sql
