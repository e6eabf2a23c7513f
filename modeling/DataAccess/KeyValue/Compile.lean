import DataAccess.Filter
import DataAccess.KeyValue.Condition

namespace DataAccess.KeyValue

mutual

/-- The condition of a filter over columns. Items hold no nulls at the top level, so a test for null
asks whether the attribute is there. -/
def compile : Filter → Except Filter.Fault Condition
  | .compare field op value => .ok (.compare field op (.literal value))
  | .compareFields left op right => .ok (.compare left op (.ofItem right))
  | .isNull field => .ok (.absent field)
  | .isNotNull field => .ok (.present field)
  | .allOf members => do
      Filter.nonempty .allOf members
      return .allOf (← compileAll members)
  | .anyOf members => do
      Filter.nonempty .anyOf members
      return .anyOf (← compileAll members)

def compileAll : List Filter → Except Filter.Fault (List Condition)
  | [] => .ok []
  | member :: rest => do
      let member ← compile member
      let rest ← compileAll rest
      return member :: rest

end

/-- An absent filter becomes no condition. -/
def compile? : Option Filter → Except Filter.Fault (Option Condition)
  | none => .ok none
  | some filter => some <$> compile filter

end DataAccess.KeyValue
