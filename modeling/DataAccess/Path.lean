import DataAccess.Object.Error

/-!
# Attribute paths

A path is a list of steps: a key of a map, a position in a sequence, or a new position at its end.
It is written as segments between points. A segment is a name followed by markers, and a marker is
`[position]` or, at the very end of the path, `[]`. The first segment may lack a name.
-/

namespace DataAccess.Path

inductive Step
  | key (name : String)
  | index (position : Nat)
  | append
deriving DecidableEq

/-- What stands between the brackets of a marker. -/
def parseMarker (inner : List Char) : Except PathFault Step :=
  if inner.isEmpty then .ok .append
  else match Decimal.toNat? inner with
    | some position =>
        if position < Decimal.positionLimit then .ok (.index position)
        else .error (.indexTooLarge (String.ofList inner))
    | none => .error (.invalidIndex (String.ofList inner))

/-- The markers of a segment, cut at their closing brackets: each piece but the last is an opening
bracket and its content, and nothing follows the last closing bracket. -/
def parseMarkers : List (List Char) → Except PathFault (List Step)
  | [] => .ok []
  | [[]] => .ok []
  | ('[' :: inner) :: rest =>
      if rest.isEmpty then .error .unclosed
      else do
        let step ← parseMarker inner
        let steps ← parseMarkers rest
        return step :: steps
  | _ => .error .textAfterMarker

/-- One segment; only the first may consist of markers alone. -/
def parseSegment (first : Bool) (segment : List Char) : Except PathFault (List Step) :=
  let name := segment.takeWhile (· ≠ '[')
  let markers := segment.dropWhile (· ≠ '[')
  if ']' ∈ name then .error .strayClose
  else if name.isEmpty then
    if first && !markers.isEmpty then parseMarkers (markers.splitOn ']')
    else .error .emptySegment
  else do
    let steps ← parseMarkers (markers.splitOn ']')
    return .key (String.ofList name) :: steps

def parseSegments (first : Bool) : List (List Char) → Except PathFault (List Step)
  | [] => .ok []
  | segment :: rest => do
      let steps ← parseSegment first segment
      let more ← parseSegments false rest
      return steps ++ more

/-- The steps of a path. -/
def parseSteps (text : List Char) : Except PathFault (List Step) :=
  if text.isEmpty then .error .empty
  else do
    let steps ← parseSegments true (text.splitOn '.')
    if .append ∈ steps.dropLast then .error .appendNotLast else .ok steps

def parse (path : String) : Except ObjectError (List Step) :=
  match parseSteps path.toList with
  | .ok steps => .ok steps
  | .error fault => .error (.malformedPath path fault)

/-- The value one step below another. -/
def child? : Value → Step → Option Value
  | .map fields, .key name => Dict.get? fields name
  | .sequence items, .index position => items[position]?
  | _, _ => none

def lookup : Value → List Step → Option Value
  | root, [] => some root
  | root, step :: rest => (child? root step).bind fun child => lookup child rest

end DataAccess.Path
