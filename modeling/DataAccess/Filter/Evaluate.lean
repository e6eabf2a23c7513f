import DataAccess.Filter
import DataAccess.Object
import DataAccess.Value.Order

namespace DataAccess

namespace BusinessObject

/-- The attribute that a filter's field names; one that cannot be read counts as missing. -/
def attribute? (object : BusinessObject) (name : String) : Option Value :=
  match object.get name with
  | .ok found => found
  | .error _ => none

end BusinessObject

namespace Filter

/-- Whether a comparison of two present values holds. -/
def comparisonHolds (op : Comparison) : Option Value → Option Value → Bool
  | some left, some right => !right.isNull && (left.compare? right).any op.accepts
  | _, _ => false

mutual

def evaluate (object : BusinessObject) : Filter → Bool
  | .compare field op value => comparisonHolds op (object.attribute? field) (some value)
  | .compareFields left op right =>
      comparisonHolds op (object.attribute? left) (object.attribute? right)
  | .isNull field => (object.attribute? field).isNone
  | .isNotNull field => (object.attribute? field).isSome
  | .allOf members => evaluateAll object members
  | .anyOf members => evaluateAny object members

def evaluateAll (object : BusinessObject) : List Filter → Bool
  | [] => true
  | member :: rest => evaluate object member && evaluateAll object rest

def evaluateAny (object : BusinessObject) : List Filter → Bool
  | [] => false
  | member :: rest => evaluate object member || evaluateAny object rest

end

def select (filter : Filter) (objects : List BusinessObject) : List BusinessObject :=
  objects.filter fun object => filter.evaluate object

end Filter

end DataAccess
