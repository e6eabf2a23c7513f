import DataAccess.Path

namespace DataAccess.Path

/-- Why a write is refused on its way. -/
inductive AssignFault
  | beyondEnd (index length : Nat)
  | conflict (found : Value.Kind)
deriving DecidableEq

def AssignFault.toError (path : String) : AssignFault → ObjectError
  | .beyondEnd index length => .malformedPath path (.beyondEnd index length)
  | .conflict found => .pathConflict path found

/-- A position is in reach when it is no more than `growthLimit` past the end; the last position
that could be written at all is in reach of nothing. -/
def inReach (length index : Nat) : Bool :=
  index + 1 < Decimal.positionLimit && index - length ≤ growthLimit

/-- Finds an index out of reach before anything is written. What is missing counts as null, and a
container of the wrong kind ends the search. -/
def checkReach : Option Value → List Step → Except AssignFault Unit
  | _, [] => .ok ()
  | some (.map fields), .key name :: rest => checkReach (Dict.get? fields name) rest
  | some (.sequence items), .index position :: rest =>
      if inReach items.length position then checkReach items[position]? rest
      else .error (.beyondEnd position items.length)
  | none, .index position :: rest =>
      if inReach 0 position then checkReach none rest else .error (.beyondEnd position 0)
  | some .null, .index position :: rest =>
      if inReach 0 position then checkReach none rest else .error (.beyondEnd position 0)
  | none, .append :: rest => checkReach none rest
  | some .null, .append :: rest => checkReach none rest
  | some (.sequence _), .append :: rest => checkReach none rest
  | none, .key _ :: rest => checkReach none rest
  | some .null, .key _ :: rest => checkReach none rest
  | _, _ => .ok ()

/-- The entries of a map; null is an empty one. -/
def asMap? : Value → Option Record
  | .null => some []
  | .map fields => some fields
  | _ => none

/-- The items of a sequence; null is an empty one. -/
def asSequence? : Value → Option (List Value)
  | .null => some []
  | .sequence items => some items
  | _ => none

/-- Items with nulls added up to a length. -/
def padTo (length : Nat) (items : List Value) : List Value :=
  items ++ List.replicate (length - items.length) .null

/-- Puts a value where the steps lead, step by step, together with what became of the root. -/
def assign (new : Value) : List Step → Value → Except AssignFault Unit × Value
  | [], _ => (.ok (), new)
  | .key name :: rest, root =>
      match asMap? root with
      | some fields =>
          let (result, child) := assign new rest ((Dict.get? fields name).getD .null)
          (result, .map (Dict.insert fields name child))
      | none => (.error (.conflict root.kind), root)
  | .index position :: rest, root =>
      match asSequence? root with
      | some items =>
          if position < items.length || inReach items.length position then
            let items := padTo (position + 1) items
            let (result, child) := assign new rest (items[position]?.getD .null)
            (result, .sequence (items.set position child))
          else (.error (.beyondEnd position items.length), .sequence items)
      | none => (.error (.conflict root.kind), root)
  | .append :: rest, root =>
      match asSequence? root with
      | some items =>
          let (result, child) := assign new rest .null
          (result, .sequence (items ++ [child]))
      | none => (.error (.conflict root.kind), root)

/-- Writes a value, unless an index on the way is out of reach. -/
def assignInReach (steps : List Step) (new root : Value) : Except AssignFault Unit × Value :=
  match checkReach (some root) steps with
  | .ok () => assign new steps root
  | .error fault => (.error fault, root)

def set (root : Value) (path : String) (new : Value) : Except ObjectError Unit × Value :=
  match parse path with
  | .error error => (.error error, root)
  | .ok steps =>
      match assignInReach steps new root with
      | (.ok (), root) => (.ok (), root)
      | (.error fault, root) => (.error (fault.toError path), root)

end DataAccess.Path
