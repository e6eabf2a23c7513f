namespace DataAccess

inductive Comparison
  | equal | notEqual | greater | greaterOrEqual | less | lessOrEqual
deriving DecidableEq

namespace Comparison

def all : List Comparison := [.equal, .notEqual, .greater, .greaterOrEqual, .less, .lessOrEqual]

def name : Comparison → String
  | .equal => "Equal"
  | .notEqual => "NotEqual"
  | .greater => "Greater"
  | .greaterOrEqual => "GreaterOrEqual"
  | .less => "Less"
  | .lessOrEqual => "LessOrEqual"

def ofName? (text : String) : Option Comparison := all.find? (·.name == text)

def symbol : Comparison → String
  | .equal => "="
  | .notEqual => "<>"
  | .greater => ">"
  | .greaterOrEqual => ">="
  | .less => "<"
  | .lessOrEqual => "<="

def ofSymbol? (text : String) : Option Comparison := all.find? (·.symbol == text)

/-- Whether an ordering, of the left side compared to the right one, satisfies the operator. -/
def accepts : Comparison → Ordering → Bool
  | .equal, order => order == .eq
  | .notEqual, order => order != .eq
  | .greater, order => order == .gt
  | .greaterOrEqual, order => order != .lt
  | .less, order => order == .lt
  | .lessOrEqual, order => order != .gt

theorem mem_all (op : Comparison) : op ∈ all := by
  cases op <;> decide

end Comparison

end DataAccess
