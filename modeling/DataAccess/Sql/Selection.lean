import DataAccess.Sql.Connection
import DataAccess.Sql.Flavor
import DataAccess.Sql.Plan

namespace DataAccess.Sql

namespace Selection

/-- The label of a term that is given none: the column's own name, or the text of the term. -/
def label (table : Option Table) : Term → String
  | .column name quoted =>
      match table.bind fun table => (table.position? name).bind (table.columns[·]?) with
      | some column => column
      | none =>
          if table.isSome && isRowId name then "rowid"
          else if quoted then String.ofList (Flavor.sqlite.quote name.toList)
          else name
  | .parameter _ => "?"
  | .literal (.integer i) => String.ofList (Decimal.ofInt i)
  | .literal _ => ""

/-- The labels and terms that a projection stands for. -/
def expand (table : Option Table) : Projection → List (String × Term)
  | .star =>
      match table with
      | some table => table.columns.map fun column => (column, .column column true)
      | none => []
  | .term term label? => [(label?.getD (label table term), term)]

def results (selection : Selection) (table : Option Table) : List (String × Term) :=
  selection.projections.flatMap (expand table)

/-- The order of two rows by the first sort term on which they differ. -/
def rowOrder (scope : Scope) : List (Term × Bool) → Row → Row → Ordering
  | [], _, _ => .eq
  | (term, descending) :: rest, left, right =>
      let x := { scope with row := some left : Scope }.evaluate term
      let y := { scope with row := some right : Scope }.evaluate term
      (if descending then y.order x else x.order y).then (rowOrder scope rest left right)

/-- The items of a page, where a bound below zero sets none. -/
def page (limit offset : Option Int) (rows : List Row) : List Row :=
  let rest := rows.drop (offset.getD 0).toNat
  match limit with
  | some count => if count < 0 then rest else rest.take count.toNat
  | none => rest

/-- A bound of a page; a number too large for a signed word is none. -/
def bound : Option Bound → Except StoreError (Option Int)
  | none => .ok none
  | some none => .error .sqlite
  | some (some i) => .ok (some i)

def record (scope : Scope) (columns : List (String × Term)) : Except StoreError Record := do
  let entries ← columns.mapM fun (label, term) => do
    let value ← (scope.evaluate term).toValue
    return (label, value)
  return Dict.ofList entries

def hasStar (selection : Selection) : Bool :=
  selection.projections.any fun
    | .star => true
    | .term _ _ => false

/-- Whether every term means something in the table, and there are not too many. -/
def knownIn (selection : Selection) (table : Option Table) : Bool :=
  let results := selection.results table
  (table.isSome || !selection.hasStar) &&
    results.length ≤ mostColumns && results.all (fun entry => Scope.knows table entry.2) &&
    selection.predicate.all (·.knownIn table) &&
    selection.order.length ≤ mostColumns &&
    selection.order.all fun entry => Scope.knows table entry.1

def columnOf? : Operand → Option Nat
  | .key (.column position) => some position
  | _ => none

/-- What a planner has to know; a limit that takes more than 31 bits is not known to it. -/
def layout (selection : Selection) (table : Table) : Layout :=
  let keys := selection.order.map fun (term, descending) =>
    ((Operand.ofTerm table term).key?, descending)
  let operands :=
    (selection.results (some table)).map (fun entry => Operand.ofTerm table entry.2) ++
      selection.order.map (fun entry => Operand.ofTerm table entry.1) ++
      (selection.predicate.map fun predicate =>
        (Condition.ofPredicate table predicate).operands).getD []
  { width := table.columns.length
    indexes := table.constraints.reverse.map fun columns => columns.filterMap table.position?
    reads := (operands.filterMap columnOf?).eraseDups
    order := keys
    results := (selection.results (some table)).length
    limit := selection.limit.bind fun bound => bound.bind fun count =>
      if 0 ≤ count ∧ count < 2147483648 then some count.toNat else none }

/-- The order in which the rows of a table are visited. -/
def plan (selection : Selection) (table : Table) : Plan :=
  Plan.ofCondition (selection.layout table)
    ((selection.predicate.map (Condition.ofPredicate table)).getD (.all []))

def visited (selection : Selection) (table : Table) (scope : Scope) : List Row :=
  (selection.plan table).visit
    (fun condition row =>
      condition.holds? { scope with row := some row : Scope }.holds? == some true) table.rows

/-- The rows that a query finds, in its order; without a table there is one row of no cells. -/
def found (selection : Selection) (scope : Scope) : List Row :=
  let rows := match scope.table with
    | some table => selection.visited table scope
    | none => [{ id := 0, cells := [] }]
  let kept := rows.filter fun row =>
    { scope with row := some row : Scope }.satisfies selection.predicate
  stableSort (fun left right => rowOrder scope selection.order left right == .lt) kept

/-- The rows on the page that is asked for, and what they are evaluated in. -/
def fetched (selection : Selection) (table : Option Table) (parameters : List Cell) :
    Except StoreError (List Scope) := do
  if !selection.knownIn table then .error .sqlite
  else
    let limit ← bound selection.limit
    let offset ← bound selection.offset
    let scope : Scope := { table, parameters }
    return (page limit offset (selection.found scope)).map fun row => { scope with row := some row }

def records (selection : Selection) (table : Option Table) (scopes : List Scope) :
    Except StoreError (List Record) :=
  scopes.mapM fun scope => record scope (selection.results table)

end Selection

end DataAccess.Sql
