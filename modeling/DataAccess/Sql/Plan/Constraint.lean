import DataAccess.Sql.Plan.Condition

namespace DataAccess.Sql

/-- How a constraint relates a column to values that are known when rows are looked up. -/
inductive Relation
  | equal | less | lessOrEqual | greater | greaterOrEqual
  | null
  /-- Not null; in the order of values that is a bound from below. -/
  | present
  /-- Equal to one of so many values. -/
  | among (count : Nat)
deriving DecidableEq

namespace Relation

def ofComparison? : Comparison → Option Relation
  | .equal => some .equal
  | .notEqual => none
  | .greater => some .greater
  | .greaterOrEqual => some .greaterOrEqual
  | .less => some .less
  | .lessOrEqual => some .lessOrEqual

def flip : Relation → Relation
  | .less => .greater
  | .lessOrEqual => .greaterOrEqual
  | .greater => .less
  | .greaterOrEqual => .lessOrEqual
  | relation => relation

def isUpper : Relation → Bool
  | .less => true
  | .lessOrEqual => true
  | _ => false

def isLower : Relation → Bool
  | .greater => true
  | .greaterOrEqual => true
  | .present => true
  | _ => false

end Relation

/-- A place in a condition: the position in each group from the outside to the inside, counted from
one. A last position of zero is that of something derived. -/
abbrev Mark := List Nat

structure Constraint where
  mark : Mark
  /-- The constraint that this one was derived from. -/
  parent : Option Mark := none
  source : Condition
  /-- The column that is constrained, where there is one. -/
  key : Option Key := none
  /-- None where rows cannot be looked up by the constraint. -/
  relation : Option Relation := none
  /-- A column of the same value. -/
  same : Option Key := none
  /-- The column on the other side. -/
  other : Option Key := none
  /-- Whether the other side is known before a row is. -/
  isReady : Bool := true

namespace Constraint

/-- Columns are of one kind with each other, and the number of a row with itself. -/
def alike : Key → Key → Bool
  | .rowId, .rowId => true
  | .column _, .column _ => true
  | _, _ => false

/-- The constraints of a comparison: one on the left side and, where both sides are columns, a
derived one on the right side. -/
def ofCompare (mark : Mark) (source : Condition) (left : Operand) (relation : Relation)
    (right : Operand) : Constraint × List Constraint :=
  let usable := !(left.varies && right.varies)
  let flipped : Key → Mark → Constraint := fun key mark =>
    { mark, source, key := some key, relation := if usable then some relation.flip else none
      other := left.key?, isReady := !left.varies }
  match left.key?, right with
  | none, .key column => (flipped column mark, [])
  | none, _ => ({ mark, source }, [])
  | some key, right =>
      let first : Constraint :=
        { mark, source, key := some key, relation := if usable then some relation else none
          other := right.key?, isReady := !right.varies }
      match right with
      | .key second =>
          let joins := relation == .equal && alike key second
          let derived := flipped second (mark ++ [0])
          ({ first with same := if joins then some second else none },
            [{ derived with parent := some mark, same := if joins then some key else none }])
      | _ => (first, [])

def ofTest (mark : Mark) (source : Condition) : Test → Constraint × List Constraint
  | .compare left op right =>
      match Relation.ofComparison? op with
      | some relation => ofCompare mark source left relation right
      | none => ({ mark, source }, [])
  | .isNull (.key (.column position)) =>
      ({ mark, source, key := some (.column position), relation := some .null }, [])
  | .isNotNull (.key (.column position)) =>
      ({ mark, source },
        [{ mark := mark ++ [0], parent := some mark, source, key := some (.column position)
           relation := some .present }])
  | _ => ({ mark, source }, [])

/-- Places constraints one after the other, and behind them what is derived from them, the last
first. -/
def arrange (found : List (Constraint × List Constraint)) : List Constraint :=
  found.map Prod.fst ++ found.reverse.flatMap Prod.snd

/-- The constraints of conditions whose disjunctions say nothing of a single column. -/
def ofBasics (mark : Mark) (members : List Condition) : List Constraint :=
  arrange (members.mapIdx fun position member =>
    let mark := mark ++ [position + 1]
    match member with
    | .basic test _ => ofTest mark member test
    | _ => ({ mark, source := member }, []))

/-- The list membership that a disjunction of equalities on one column amounts to. -/
def membership? (mark : Mark) (members : List Condition) : Option (Key × Nat) :=
  let found := ofBasics mark members
  match found with
  | { key := some key, .. } :: _ =>
      if found.all fun constraint =>
          constraint.key == some key && constraint.relation == some .equal then
        some (key, found.length)
      else none
  | _ => none

/-- The constraints of a condition that is a member of a conjunction. -/
def ofMember (mark : Mark) (member : Condition) : Constraint × List Constraint :=
  match member with
  | .basic test _ => ofTest mark member test
  | .any members =>
      let derived := (membership? mark members).toList.map fun (key, count) =>
        { mark := mark ++ [0], parent := some mark, source := member, key := some key
          relation := some (.among count) : Constraint }
      ({ mark, source := member }, derived)
  | .all _ => ({ mark, source := member }, [])

/-- The constraints of a conjunction. -/
def ofConjunction (mark : Mark) (members : List Condition) : List Constraint :=
  arrange (members.mapIdx fun position member => ofMember (mark ++ [position + 1]) member)

def alternatives (constraint : Constraint) : List Constraint :=
  match constraint.source with
  | .any members => ofBasics constraint.mark members
  | _ => []

/-- The conjunction that an alternative is, where it is not just a constraint of one column. -/
def conjunction? (alternative : Constraint) : Option (List Constraint) :=
  if alternative.relation.isSome then none
  else some (ofConjunction alternative.mark alternative.source.conjuncts)

/-- Whether rows can be looked up by each alternative of a disjunction. -/
def isSeparable (constraint : Constraint) : Bool :=
  match constraint.source with
  | .any _ =>
      constraint.parent.isNone && constraint.alternatives.all fun alternative =>
        match alternative.conjunction? with
        | some members => members.any (·.key.isSome)
        | none => true
  | _ => false

/-- How the rest of a condition is used when rows are looked up by one of its alternatives. -/
def isHelpful (constraint : Constraint) : Bool :=
  constraint.source.varies &&
    (constraint.relation.isSome || constraint.same.isSome ||
      match constraint.source with
      | .any _ => true
      | _ => false)

/-- The columns of the same value as the given ones; there are at most `bound` of them. -/
def closure (constraints : List Constraint) : Nat → List Key → List Key → List Key
  | 0, known, pending => known ++ pending
  | _, known, [] => known
  | bound + 1, known, key :: pending =>
      let found := constraints.foldl (fun pending constraint =>
        match constraint.same with
        | some other =>
            if constraint.key = some key ∧ !(known ++ key :: pending).contains other then
              pending ++ [other]
            else pending
        | none => pending) pending
      closure constraints bound (known ++ [key]) found

/-- The constraints by which rows can be looked up on a column, those on columns of the same value
included. A column is not looked up by the number of a row, which would have to be converted. -/
def lookups (constraints : List Constraint) (key : Key) : List Constraint :=
  (closure constraints 10 [] [key]).flatMap fun found =>
    constraints.filter fun constraint =>
      constraint.key == some found && constraint.relation.isSome && constraint.isReady &&
        !(key != .rowId && constraint.other == some .rowId) &&
        !(constraint.relation == some .equal && constraint.other == some key)

end Constraint

end DataAccess.Sql
