import DataAccess.Sql.Scope

namespace DataAccess.Sql

/-- What rows can be found by. -/
inductive Key
  | rowId
  | column (position : Nat)
deriving DecidableEq

inductive Operand
  | constant
  | key (column : Key)
  /-- A column that another part of the condition makes equal to a constant. -/
  | fixed (column : Key)
deriving DecidableEq

namespace Operand

def ofTerm (table : Table) : Term → Operand
  | .column name _ =>
      match table.position? name with
      | some position => .key (.column position)
      | none => if isRowId name then .key .rowId else .constant
  | _ => .constant

/-- The column, whether its value is known or not. -/
def key? : Operand → Option Key
  | .constant => none
  | .key column => some column
  | .fixed column => some column

/-- Whether the value depends on the row. -/
def varies : Operand → Bool
  | .constant => false
  | .key _ => true
  | .fixed _ => false

def fix (known : List Key) : Operand → Operand
  | .constant => .constant
  | .key column => if known.contains column then .fixed column else .key column
  | .fixed column => .fixed column

end Operand

/-- What a basic condition tests. -/
inductive Test
  | compare (left : Operand) (op : Comparison) (right : Operand)
  | isNull (operand : Operand)
  | isNotNull (operand : Operand)
deriving DecidableEq

namespace Test

def operands : Test → List Operand
  | .compare left _ right => [left, right]
  | .isNull operand => [operand]
  | .isNotNull operand => [operand]

/-- Replaces columns of known values. A column, unlike the number of a row, is only replaced where
it is compared in order. -/
def fix (known : List Key) : Test → Test
  | .compare left op right =>
      let known := if op = .notEqual then known.filter (· == .rowId) else known
      .compare (left.fix known) op (right.fix known)
  | test => test

/-- Whether the value depends on the row; the number of a row is never null. -/
def varies : Test → Bool
  | .compare left _ right => left.varies || right.varies
  | .isNull operand => operand.varies && operand.key? != some .rowId
  | .isNotNull operand => operand.varies && operand.key? != some .rowId

end Test

inductive Condition
  /-- A basic condition, and the predicate that it stands for. -/
  | basic (test : Test) (source : Predicate)
  | all (members : List Condition)
  | any (members : List Condition)

namespace Condition

def conjuncts : Condition → List Condition
  | .all members => members
  | condition => [condition]

def disjuncts : Condition → List Condition
  | .any members => members
  | condition => [condition]

/-- A predicate on the rows of a table. -/
def ofPredicate (table : Table) : Predicate → Condition
  | .compare left op right =>
      .basic (.compare (.ofTerm table left) op (.ofTerm table right)) (.compare left op right)
  | .isNull term => .basic (.isNull (.ofTerm table term)) (.isNull term)
  | .isNotNull term => .basic (.isNotNull (.ofTerm table term)) (.isNotNull term)
  | .both left right => .all ((ofPredicate table left).conjuncts ++ (ofPredicate table right).conjuncts)
  | .either left right =>
      .any ((ofPredicate table left).disjuncts ++ (ofPredicate table right).disjuncts)

mutual

def holds? (test : Predicate → Option Bool) : Condition → Option Bool
  | .basic _ source => test source
  | .all members => allHold? test members
  | .any members => anyHolds? test members

def allHold? (test : Predicate → Option Bool) : List Condition → Option Bool
  | [] => some true
  | first :: rest => both? (holds? test first) (allHold? test rest)

def anyHolds? (test : Predicate → Option Bool) : List Condition → Option Bool
  | [] => some false
  | first :: rest => either? (holds? test first) (anyHolds? test rest)

end

mutual

def operands : Condition → List Operand
  | .basic test _ => test.operands
  | .all members => operandsOf members
  | .any members => operandsOf members

def operandsOf : List Condition → List Operand
  | [] => []
  | first :: rest => operands first ++ operandsOf rest

end

mutual

def varies : Condition → Bool
  | .basic test _ => test.varies
  | .all members => someVaries members
  | .any members => someVaries members

def someVaries : List Condition → Bool
  | [] => false
  | first :: rest => varies first || someVaries rest

end

mutual

def fix (known : List Key) : Condition → Condition
  | .basic test source => .basic (test.fix known) source
  | .all members => .all (fixAll known members)
  | .any members => .any (fixAll known members)

def fixAll (known : List Key) : List Condition → List Condition
  | [] => []
  | first :: rest => fix known first :: fixAll known rest

end

mutual

/-- How many conditions there are, each part counted. -/
def size : Condition → Nat
  | .basic _ _ => 1
  | .all members => sizeOfAll members + 1
  | .any members => sizeOfAll members + 1

def sizeOfAll : List Condition → Nat
  | [] => 0
  | first :: rest => size first + sizeOfAll rest

end

/-- The column that a condition makes equal to a constant. -/
def fixedKey? : Condition → Option Key
  | .basic (.compare (.key column) .equal .constant) _ => some column
  | .basic (.compare .constant .equal (.key column)) _ => some column
  | _ => none

/-- Members that hold together, each with the columns that later members make equal to constants; of
two members about one column the last one counts. Members in front see them too. -/
def fixEach (known : List Key) : List Condition → List Condition
  | [] => []
  | first :: rest =>
      let own : List Key := match first.fixedKey? with
        | some key => if (rest.filterMap fixedKey?).contains key then [] else [key]
        | none => []
      first.fix (known.filter fun key => !own.contains key) :: fixEach known rest

/-- Replaces the columns that a conjunction makes equal to constants wherever else they occur in
it. -/
def propagate (condition : Condition) : Condition :=
  match condition with
  | .all members => .all (fixEach (members.filterMap fixedKey?) members)
  | condition => condition

end Condition

end DataAccess.Sql
