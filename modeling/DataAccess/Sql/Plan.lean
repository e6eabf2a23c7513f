import DataAccess.Sql.Plan.Order

/-!
# Plans

A plan says in which order a query visits the rows of a table: as they are numbered, in the order of
an index, or as they are found for one alternative of a condition after the other. The plan with the
least estimated cost is taken, the cost of sorting included. A plan never changes which rows satisfy
a condition.
-/

namespace DataAccess.Sql

inductive Plan
  | table (reversed : Bool)
  | index (columns : List Nat) (reversed : Bool)
  /-- The rows of each alternative, those of an earlier one left out. -/
  | union (branches : List (Condition × Plan))

namespace Plan

/-- An access, what it costs with the sorting, and how many sort terms it satisfies. -/
structure Choice where
  access : Access
  cost : Estimate
  unsorted : Estimate
  sorted : Nat
  reversed : Bool

/-- How often an alternative is taken to run at most. -/
def mostRuns : Estimate := 48

/-- Weighs an access for a query that runs for each of `times` rows; `rows` is how many rows are to
be sorted. Sorting is taken for a little dearer than it is, and a way that needs none is preferred. -/
def weigh (layout : Layout) (times rows : Estimate) (access : Access) : Choice :=
  let unsorted := Estimate.add (access.cost + times) 0
  let (sorted, reversed) := access.sorted layout false
  if sorted < layout.order.length then
    { access, sorted, reversed, unsorted
      cost := unsorted.add (Access.sortCost layout rows sorted) + 3 }
  else { access, sorted, reversed, unsorted := unsorted - 2, cost := unsorted }

def isBetter (left right : Choice) : Bool :=
  left.cost < right.cost ||
    (left.cost == right.cost &&
      (left.access.rows < right.access.rows ||
        (left.access.rows == right.access.rows && left.unsorted < right.unsorted)))

/-- The best choice; of equal ones the first. -/
def best : List Choice → Option Choice
  | [] => none
  | first :: rest =>
      some (rest.foldl (fun best choice => if isBetter choice best then choice else best) first)

/-- Leaves out what does not look rows up, if without regard to the order that is best. -/
def steadied (chosen : Access) (found : List Access) : List Access :=
  if chosen.bound.isEmpty then found
  else found.filter fun access => !access.bound.isEmpty || access.isRanged

/-- Backwards, if that satisfies all sort terms for each of several values looked up. -/
def direction (layout : Layout) (choice : Choice) : Bool :=
  let access := choice.access
  let byNumbers := access.index.isNone && access.bound.any fun relation =>
    match relation with
    | .among _ => true
    | _ => false
  if choice.sorted = 0 ∧ !layout.order.isEmpty ∧ !access.isSingle ∧ !byNumbers then
    let (sorted, reversed) := access.sorted layout true
    if sorted = layout.order.length then reversed else choice.reversed
  else choice.reversed

/-- Chooses how to find rows: first without regard to the order, which tells how many rows there are
to sort, and then with it. -/
def choose (layout : Layout) (times : Estimate) (found : List Access) : Option Choice :=
  match best (found.map (weigh { layout with order := [] } times 0)) with
  | none => none
  | some first =>
      if layout.order.isEmpty then some first
      else
        let rows := first.access.rows + times
        let sorted := if rows < 0 then 1 else rows + 1
        best ((steadied first.access found).map (weigh layout times sorted))

/-- The conditions that help to find rows beside a disjunction. -/
def beside (layout : Layout) (constraint : Constraint) : List Condition :=
  (layout.constraints.filter fun other =>
    other.parent.isNone && other.mark != constraint.mark && other.isHelpful).map (·.source)

/-- The plan for a conjunction. A plan for an alternative has a smaller conjunction, so `bound` need
not be greater than the number of its parts. -/
def ofConjunction (layout : Layout) (bound : Nat) (times : Estimate) (members : List Condition) :
    Plan :=
  match bound with
  | 0 => .table false
  | bound + 1 =>
      let layout := { layout with constraints := Constraint.ofConjunction [] members }
      let found := Access.all layout (Condition.sizeOfAll members)
      match choose layout (min times mostRuns) found with
      | none => .table false
      | some choice =>
          let access := choice.access
          match access.union, access.index with
          | some constraint, _ =>
              let inner := { layout with order := [], limit := none }
              let others := beside layout constraint
              .union (constraint.alternatives.map fun alternative =>
                (alternative.source,
                  ofConjunction inner bound (times + min times mostRuns + access.rows)
                    (alternative.source.conjuncts ++ others)))
          | none, some columns => .index columns (direction layout choice)
          | none, none => .table (direction layout choice)

def ofCondition (layout : Layout) (condition : Condition) : Plan :=
  let members := condition.propagate.conjuncts
  ofConjunction layout (Condition.sizeOfAll members + 1) 0 members

/-- The order of rows in an index. -/
def keyOrder : List Nat → Row → Row → Ordering
  | [], left, right => compare left.id right.id
  | position :: rest, left, right =>
      let x := left.cells[position]?.getD .null
      let y := right.cells[position]?.getD .null
      (x.order y).then (keyOrder rest left right)

def inDirection (reversed : Bool) (rows : List Row) : List Row :=
  if reversed then rows.reverse else rows

mutual

/-- The rows of a table as they are visited; `test` tells whether a condition holds for a row. Rows
for which no alternative of a disjunction holds need not be visited. -/
def visit (test : Condition → Row → Bool) (rows : List Row) : Plan → List Row
  | .table reversed => inDirection reversed rows
  | .index columns reversed =>
      inDirection reversed
        (stableSort (fun left right => keyOrder columns left right == .lt) rows)
  | .union branches => visitBranches test rows branches

def visitBranches (test : Condition → Row → Bool) (rows : List Row) :
    List (Condition × Plan) → List Row
  | [] => []
  | (condition, plan) :: rest =>
      let found := (visit test rows plan).filter (test condition)
      found ++ (visitBranches test rows rest).filter fun row => !found.contains row

end

theorem mem_inDirection {reversed : Bool} {rows : List Row} {row : Row} :
    row ∈ inDirection reversed rows ↔ row ∈ rows := by
  cases reversed <;> simp [inDirection]

mutual

/-- Only rows of the table are visited. -/
theorem mem_of_mem_visit {test : Condition → Row → Bool} {rows : List Row} {row : Row} :
    (plan : Plan) → row ∈ visit test rows plan → row ∈ rows
  | .table _, visited => mem_inDirection.mp visited
  | .index _ _, visited => mem_stableSort.mp (mem_inDirection.mp visited)
  | .union branches, visited => mem_of_mem_visitBranches branches visited

theorem mem_of_mem_visitBranches {test : Condition → Row → Bool} {rows : List Row} {row : Row} :
    (branches : List (Condition × Plan)) → row ∈ visitBranches test rows branches → row ∈ rows
  | (_, plan) :: rest, visited => by
      rw [visitBranches] at visited
      rcases List.mem_append.mp visited with first | later
      · exact mem_of_mem_visit plan (List.mem_filter.mp first).1
      · exact mem_of_mem_visitBranches rest (List.mem_filter.mp later).1

end

end Plan

end DataAccess.Sql
