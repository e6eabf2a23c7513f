import DataAccess.Text.Quoted

namespace DataAccess

/-- The furthest that one indexed write may reach past the end of a sequence. -/
def Path.growthLimit : Nat := 65536

/-- Why a text is not a path, or not a path for this use. -/
inductive PathFault
  | empty
  | emptySegment
  | strayClose
  | unclosed
  | indexTooLarge (digits : String)
  | invalidIndex (text : String)
  | textAfterMarker
  | appendNotLast
  | appendInRead
  /-- An index too far past the end of a sequence of the given length. -/
  | beyondEnd (index length : Nat)
  | described (text : String)
deriving DecidableEq

namespace PathFault

def message : PathFault → String
  | .empty => "empty path"
  | .emptySegment => "empty segment"
  | .strayClose => "']' without matching '['"
  | .unclosed => "unclosed '['"
  | .indexTooLarge digits => "index " ++ digits ++ " out of range"
  | .invalidIndex text => "invalid index " ++ Text.quoted text
  | .textAfterMarker => "unexpected text after ']'"
  | .appendNotLast => "'[]' must be the last marker"
  | .appendInRead => "'[]' is only valid when writing"
  | .beyondEnd index length =>
      "index " ++ toString index ++ " is more than " ++ toString Path.growthLimit ++
        " past the end of a sequence of " ++ toString length
  | .described text => text

end PathFault

/-- Why a value is not converted. -/
inductive CoercionFault
  | kindMismatch
  | neitherZeroNorOne (n : Number)
  | notABoolean (text : String)
  | notAnInteger (n : Number)
  | textNotAnInteger (text : String)
  | notUnsigned
  | negative (i : Int)
  | inexact (n : Number)
  | textNotANumber (text : String)
  | outOfRange (i : Int)
  | stringExpected
  | described (text : String)
deriving DecidableEq

namespace CoercionFault

def message : CoercionFault → String
  | .kindMismatch => "kind mismatch"
  | .neitherZeroNorOne n => String.ofList n.text ++ " is neither 0 nor 1"
  | .notABoolean text => Text.quoted text ++ " is not a boolean"
  | .notAnInteger n => String.ofList n.text ++ " is not an integer in range"
  | .textNotAnInteger text => Text.quoted text ++ " is not an integer"
  | .notUnsigned => "not an unsigned integer in range"
  | .negative i => String.ofList (Decimal.ofInt i) ++ " is negative"
  | .inexact n => String.ofList n.text ++ " exceeds 2^53"
  | .textNotANumber text => Text.quoted text ++ " is not a number"
  | .outOfRange i => String.ofList (Decimal.ofInt i) ++ " out of range"
  | .stringExpected => "expected a string"
  | .described text => text

end CoercionFault

inductive ObjectError
  | malformedPath (path : String) (fault : PathFault)
  | pathConflict (path : String) (found : Value.Kind)
  | coercion (found : Value.Kind) (target : String) (fault : CoercionFault)
  | notAMap (found : Value.Kind)
  | json
  | time (value layout : String)
deriving DecidableEq

namespace ObjectError

/-- The wording; the two failures of reading text have none of their own. -/
def message? : ObjectError → Option String
  | .malformedPath path fault =>
      some ("malformed path " ++ Text.quoted path ++ ": " ++ fault.message)
  | .pathConflict path found =>
      some ("path " ++ Text.quoted path ++ " conflicts with existing " ++ found.name ++ " value")
  | .coercion found target fault =>
      some ("cannot convert " ++ found.name ++ " value to " ++ target ++ ": " ++ fault.message)
  | .notAMap found => some ("business object root is " ++ found.name ++ ", expected a map")
  | .json => none
  | .time _ _ => none

end ObjectError

end DataAccess
