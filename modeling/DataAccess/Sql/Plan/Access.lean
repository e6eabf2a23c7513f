import DataAccess.Sql.Plan.Constraint
import DataAccess.Sql.Plan.Estimate

/-!
# Ways to find rows

A query finds the rows of a table by walking through the table or through the index of a constraint,
as a whole or where leading columns are bound to values, or by taking together what is found for the
alternatives of a disjunction. Each way is given what it is estimated to cost and to find. Of two
ways that could replace each other only the better one is kept.
-/

namespace DataAccess.Sql

/-- What a planner knows of a query on one table. -/
structure Layout where
  /-- How many columns the table has. -/
  width : Nat
  /-- The columns of each index, the latest one first. -/
  indexes : List (List Nat)
  /-- The columns that the query reads. -/
  reads : List Nat
  /-- What to sort by, where it is a column, and whether it is descending. -/
  order : List (Option Key × Bool) := []
  /-- How many columns the result has. -/
  results : Nat
  /-- The most rows that are asked for, where that is known. -/
  limit : Option Nat := none
  /-- The constraints of the whole condition. -/
  constraints : List Constraint := []

structure Access where
  /-- The columns of the index, or none for the table itself. -/
  index : Option (List Nat) := none
  /-- Ways are only compared with others of the same rank. -/
  rank : Nat := 0
  /-- How each of the leading columns is bound. -/
  bound : List Relation := []
  /-- Whether the next column is bound to a range. -/
  isRanged : Bool := false
  /-- The index holds all that the query reads. -/
  isCovering : Bool := false
  /-- At most one row is found. -/
  isSingle : Bool := false
  used : List Constraint := []
  /-- The disjunction whose alternatives are taken together. -/
  union : Option Constraint := none
  cost : Estimate
  rows : Estimate

namespace Access

/-- How many rows a table is taken to have. -/
def tableRows : Estimate := 200

/-- What it costs to read a row of a table; a step in an index costs about a third of that. -/
def rowRead : Estimate := 16

def tableSize (layout : Layout) : Estimate := .ofNat (4 * (layout.width + 1))

def indexSize (index : List Nat) : Estimate := .ofNat (4 * (index.length + 1))

/-- How much less a row of an index is to read than one of the table. -/
def indexShare (layout : Layout) (index : List Nat) : Estimate :=
  15 * indexSize index / tableSize layout

/-- How many rows an index is taken to have for a value of its leading columns: of none, one, two
and so on; all its columns together are unique. -/
def indexRows (index : List Nat) : List Estimate :=
  let leading := [33, 32, 30, 28, 26] ++ List.replicate index.length 23
  tableRows :: leading.take (index.length - 1) ++ [0, 0]

/-- Corrects a number of rows for the constraints that are not used. -/
def adjusted (constraints used : List Constraint) (rows : Estimate) : Estimate :=
  let others := constraints.filter fun constraint =>
    constraint.parent.isNone && constraint.source.varies &&
      !used.any fun taken => taken.mark == constraint.mark || taken.parent == some constraint.mark
  let most := if others.any (·.relation == some .equal) then tableRows - 20 else tableRows
  min (rows - others.length) most

/-- By how many units a bound narrows the rows; that a column is not null rules out few. -/
def narrowing (bound : Relation) : Estimate := if bound = .present then 0 else 20

/-- The rows above a bound, below one, or between two. -/
def rangeRows (rows : Estimate) (bounds : List Relation) : Estimate :=
  let each := bounds.foldl (fun rows bound => rows - narrowing bound) rows
  let narrowed := each - (if bounds.length = 2 then 20 else 0)
  min (rows - bounds.length) (max narrowed 10)

/-- Estimates a way that looks rows up: `found` is how many rows are visited for each of `times`
lists of values. -/
def settled (layout : Layout) (constraints : List Constraint) (access : Access) (found times : Estimate) :
    Access :=
  let walk := match access.index with
    | none => found + rowRead
    | some index => found + 1 + indexShare layout index
  let search := Estimate.add (Estimate.log tableRows) walk
  let cost :=
    if access.index.isNone || access.isCovering then search else search.add (found + rowRead)
  { access with
    cost := cost + times
    rows := adjusted constraints access.used (found + times) }

/-- The ways that bind further columns of an index. The lists give the columns that are still free,
and the rows for the columns bound so far and then for each further one. -/
def extended (layout : Layout) (own visible : List Constraint) (access : Access)
    (found times : Estimate) : List Key → List Estimate → List Access
  | key :: keys, now :: next :: later =>
      let candidates := Constraint.lookups visible key
      candidates.flatMap fun constraint =>
        let taken := { access with used := access.used ++ [constraint] }
        match constraint.relation with
        | some relation =>
            if relation.isUpper then
              [settled layout own { taken with isRanged := true } (rangeRows found [relation]) times]
            else if relation.isLower then
              let lower := { taken with isRanged := true }
              settled layout own lower (rangeRows found [relation]) times ::
                candidates.filterMap fun upper =>
                  match upper.relation with
                  | some bound =>
                      if bound.isUpper then
                        some (settled layout own { lower with used := lower.used ++ [upper] }
                          (rangeRows found [relation, bound]) times)
                      else none
                  | none => none
            else
              let more := match relation with
                | .among count => Estimate.ofNat count
                | _ => 0
              let each := found + (next - now) + (if relation = .null then 10 else 0)
              let single := relation == .equal &&
                (key == .rowId ||
                  (times == 0 && access.bound.isEmpty && access.index.any (·.length == 1)))
              let bound : Access :=
                { taken with
                  bound := access.bound ++ [relation]
                  isSingle := access.isSingle || single }
              settled layout own bound each (times + more) ::
                extended layout own visible bound each (times + more) keys (next :: later)
        | none => []
  | _, _ => []

/-- Whether an index has to do with the order that is asked for. -/
def helps (layout : Layout) (index : List Nat) : Bool :=
  layout.order.any fun entry =>
    match entry.1 with
    | some .rowId => true
    | some (.column position) => index.contains position
    | none => false

/-- Walks through the table, or looks rows up by their numbers. -/
def ofTable (layout : Layout) (own visible : List Constraint) : List Access :=
  let rank := if helps layout [] then 1 else 0
  let whole : Access := { rank, cost := tableRows + rowRead, rows := adjusted own [] tableRows }
  whole ::
    extended layout own visible { rank, cost := 0, rows := 0 } tableRows 0 [.rowId] [tableRows, 0]

/-- Whether an index holds the columns of a condition. -/
def holds (index : List Nat) (condition : Condition) : Bool :=
  condition.operands.all fun operand =>
    match operand.key? with
    | some (.column position) => index.contains position
    | _ => true

/-- What walking through an index leaves to be read from the table: rows that constraints on the
columns of the index do not rule out before. -/
def remaining (index : List Nat) (rows : Estimate) : List Constraint → Estimate
  | [] => rows
  | constraint :: rest =>
      if holds index constraint.source then
        let rows := rows - 1
        remaining index (if constraint.relation = some .equal then rows - 19 else rows) rest
      else rows

/-- Walks through an index, or looks rows up in it. -/
def ofIndex (layout : Layout) (own visible : List Constraint) (rank : Nat) (index : List Nat) :
    List Access :=
  let isCovering := layout.reads.all index.contains
  let helpful := helps layout index
  let rank := if helpful then rank else 0
  let walk := tableRows + 1 + indexShare layout index
  let cost :=
    if isCovering then walk
    else walk.add (remaining index (tableRows + rowRead) layout.constraints)
  let whole : Access :=
    { index := some index, rank, isCovering, cost, rows := adjusted own [] tableRows }
  let keys := index.map Key.column ++ [.rowId]
  (if helpful || (isCovering && indexSize index < tableSize layout) then [whole] else []) ++
    extended layout own visible { index := some index, rank, isCovering, cost := 0, rows := 0 }
      tableRows 0 keys (indexRows index)

/-- All ways to find rows by the constraints of a conjunction, which may stand inside others. -/
def single (layout : Layout) (own outer : List Constraint) : List Access :=
  ofTable layout own (own ++ outer) ++
    (layout.indexes.mapIdx fun position index =>
      ofIndex layout own (own ++ outer) (position + 2) index).flatten

/-- Whether one way uses fewer constraints than another, and none that the other does not, and yet
is no worse in every respect. -/
def isCheaperPart (part whole : Access) : Bool :=
  !(whole.cost < part.cost && whole.rows < part.rows) && part.used.length < whole.used.length &&
    (part.used.all fun constraint => whole.used.any (·.mark == constraint.mark)) &&
    (whole.isCovering || !part.isCovering)

/-- Makes a way that uses more constraints of an index the cheaper one. -/
def reconciled (found : List Access) (access : Access) : Access :=
  if access.index.isNone then access
  else
    found.foldl (fun access other =>
      if other.index.isNone then access
      else if isCheaperPart other access then
        { access with cost := min other.cost access.cost, rows := min (other.rows - 1) access.rows }
      else if isCheaperPart access other then
        { access with cost := max other.cost access.cost, rows := max (other.rows + 1) access.rows }
      else access) access

def isAsGood (left right : Access) : Bool :=
  left.rank == right.rank && left.cost ≤ right.cost && left.rows ≤ right.rows

/-- Drops the ways that a new one replaces, up to one that is as good. -/
def dropReplaced (access : Access) : List Access → List Access
  | [] => []
  | other :: rest =>
      if isAsGood other access then other :: rest
      else if isAsGood access other then dropReplaced access rest
      else other :: dropReplaced access rest

/-- Puts a way in the place of the first one that it replaces, or behind all; a way that is no
better than another is dropped. -/
def enter (access : Access) : List Access → List Access
  | [] => [access]
  | other :: rest =>
      if isAsGood other access then other :: rest
      else if isAsGood access other then access :: dropReplaced access rest
      else other :: enter access rest

def add (found : List Access) (access : Access) : List Access :=
  enter (reconciled found access) found

/-- Keeps the lowest cost, and the rows that go with it. -/
def cheaper (best : Option (Estimate × Estimate)) (cost rows : Estimate) :
    Option (Estimate × Estimate) :=
  match best with
  | none => some (cost, rows)
  | some (least, found) => if cost ≤ least then some (cost, min found rows) else some (least, found)

/-- The least cost of looking rows up by constraints, and how many are found. -/
def leastLookup (layout : Layout) (found : List Access) (own outer : List Constraint) :
    Option (Estimate × Estimate) :=
  (single layout own outer).foldl (fun best access =>
    if access.used.isEmpty then best
    else
      let access := reconciled found access
      cheaper best access.cost access.rows) none

/-- The cost and rows of two ways taken together. -/
def together (left right : Estimate × Estimate) : Estimate × Estimate :=
  (left.1.add right.1, left.2.add right.2)

/-- The least cost of taking the alternatives of a disjunction together, if rows can be looked up by
each of them. Disjunctions are nested no deeper than `depth`. -/
def unionCost (layout : Layout) (found : List Access) :
    Nat → List Constraint → Constraint → Option (Estimate × Estimate)
  | 0, _, _ => none
  | depth + 1, outer, constraint => do
      let costs ← constraint.alternatives.mapM fun alternative =>
        match alternative.conjunction? with
        | none => leastLookup layout found [alternative] outer
        | some own =>
            own.foldl (fun best inner =>
              match unionCost layout found depth (own ++ outer) inner with
              | some (cost, rows) => cheaper best cost rows
              | none => best) (leastLookup layout found own outer)
      match constraint.isSeparable, costs with
      | true, first :: rest =>
          let (cost, rows) := rest.foldl together first
          some (cost + 1, rows)
      | _, _ => none

/-- All ways worth comparing to find rows by a conjunction. -/
def all (layout : Layout) (depth : Nat) : List Access :=
  let found := (single layout layout.constraints []).foldl add []
  layout.constraints.foldl (fun found constraint =>
    match unionCost layout found depth layout.constraints constraint with
    | some (cost, rows) => add found { union := some constraint, used := [constraint], cost, rows }
    | none => found) found

end Access

end DataAccess.Sql
