import DataAccess.Sql.Plan.Access

/-!
# The order in which rows are found

A walk through an index finds rows in the order of its columns, and by their numbers where these
agree, or the other way round. How many sort terms that satisfies decides what is left to be sorted.
-/

namespace DataAccess.Sql

namespace Access

/-- A sort term, and whether it is satisfied already. -/
structure SortTerm where
  key : Option Key
  descending : Bool
  isSatisfied : Bool := false

/-- How far a walk has come along the columns of an index. -/
structure Progress where
  terms : List SortTerm
  /-- Whether the walk goes backwards, where that matters. -/
  reversed : Option Bool := none
  /-- No two rows agree on all columns so far. -/
  isDistinct : Bool

/-- Whether a column has one value in all rows that are found. In `lists` one of several values is
taken for one, if the rows are looked up by it. -/
def isConstant (layout : Layout) (access : Access) (lists : Bool) (key : Key) : Bool :=
  let candidates := (Constraint.lookups layout.constraints key).filter fun constraint =>
    match constraint.relation with
    | some .equal => true
    | some .null => true
    | some (.among _) => lists
    | _ => false
  let chosen := match candidates.find? (·.relation == some .equal) with
    | some constraint => some constraint
    | none => candidates.head?
  match chosen with
  | some constraint =>
      match constraint.relation with
      | some (.among _) => access.used.any (·.mark == constraint.mark)
      | _ => true
  | none => false

/-- Satisfies the first open sort term by a column, if it asks for that column and for the direction
of the walk. -/
def satisfy (key : Key) (reversed : Option Bool) : List SortTerm → Option (List SortTerm × Bool)
  | [] => none
  | term :: rest =>
      if term.isSatisfied then
        (satisfy key reversed rest).map fun (rest, descending) => (term :: rest, descending)
      else if term.key = some key ∧ reversed.getD term.descending = term.descending then
        some ({ term with isSatisfied := true } :: rest, term.descending)
      else none

/-- Follows the columns of an index of `length` columns, `position` of which are passed. Columns that
are bound to one value are skipped. -/
def follow (lists : Bool) (length : Nat) : Nat → List Key → List Relation → Progress → Progress
  | _, [], _, progress => progress
  | position, key :: keys, bound, progress =>
      let skip (isDistinct : Bool) :=
        follow lists length (position + 1) keys bound.tail { progress with isDistinct }
      let meet (isDistinct : Bool) :=
        match satisfy key progress.reversed progress.terms with
        | some (terms, descending) =>
            follow lists length (position + 1) keys bound.tail
              { terms, reversed := some descending, isDistinct := isDistinct || key == .rowId }
        | none =>
            { progress with isDistinct := isDistinct && position != 0 && length ≤ position }
      match bound.head? with
      | none => meet (progress.isDistinct && key == .rowId)
      | some (.among _) => if lists then skip progress.isDistinct else meet progress.isDistinct
      | some .null => skip false
      | some _ => skip progress.isDistinct

/-- How many of the first sort terms hold for the rows as they are found, and whether these have to be
found backwards. -/
def sorted (layout : Layout) (access : Access) (lists : Bool) : Nat × Bool :=
  let terms := layout.order.map fun (key, descending) =>
    { key, descending, isSatisfied := key.any (isConstant layout access lists) : SortTerm }
  if access.isSingle then (terms.length, false)
  else if access.union.isSome then (0, false)
  else
    let start : Progress := { terms, isDistinct := true }
    let reached := match access.index with
      | none => follow lists 0 0 [Key.rowId] access.bound start
      | some index =>
          follow lists index.length 0 (index.map Key.column ++ [Key.rowId]) access.bound start
    let count :=
      if reached.isDistinct then terms.length
      else (reached.terms.takeWhile SortTerm.isSatisfied).length
    (count, reached.reversed.getD false)

/-- What it costs to sort rows of which the first sort terms hold already: the number of rows times
its logarithm, more for wide results, and less for the part of the terms (in hundredths) that is left.
A limit bounds the logarithm. -/
def sortCost (layout : Layout) (rows : Estimate) (sorted : Nat) : Estimate :=
  let terms := layout.order.length
  let part := if sorted = 0 then 0 else Estimate.ofNat ((terms - sorted) * 100 / terms) - 66
  let whole := rows + Estimate.ofNat ((layout.results + 59) / 30) + part
  match layout.limit with
  | some limit =>
      whole + 10 + (if sorted = 0 then 0 else 6) + Estimate.log (min (Estimate.ofNat limit) rows)
  | none => whole + Estimate.log rows

end Access

end DataAccess.Sql
