import DataAccess.Comparison
import DataAccess.Store.Error
import DataAccess.Value.Field
import DataAccess.Value.Order

/-!
# Matching documents

A filter document holds conditions on fields, and the operators `$and`, `$or` and `$expr`; a
document matches when every entry holds. A condition is a value to be equal to, or a document of
operators. A null is equal to a missing field.
-/

namespace DataAccess.Document

def idField : String := "_id"

/-- Names that start with a dollar sign are operators. -/
def isOperator (name : String) : Bool := name.toList.head? == some '$'

def operatorName : Comparison → String
  | .equal => "$eq"
  | .notEqual => "$ne"
  | .greater => "$gt"
  | .greaterOrEqual => "$gte"
  | .less => "$lt"
  | .lessOrEqual => "$lte"

def comparison? (name : String) : Option Comparison :=
  Comparison.all.find? (operatorName · == name)

/-- A condition that is a document of operators; an empty document is a value. -/
def isOperatorDocument (fields : Record) : Bool :=
  !fields.isEmpty && fields.all fun entry => isOperator entry.1

/-- Equality in which a null stands for a missing field too. -/
def equals : Option Value → Value → Bool
  | none, expected => expected.isNull
  | some actual, expected => actual.equal expected

/-- A range comparison. Values of different kinds are in no order, and neither are nulls. -/
def inRange (op : Comparison) (actual : Option Value) (operand : Value) : Bool :=
  match actual with
  | some actual =>
      !actual.isNull && !operand.isNull && (actual.compare? operand).any op.accepts
  | none => false

def compares (op : Comparison) (actual : Option Value) (operand : Value) : Bool :=
  match op with
  | .equal => equals actual operand
  | .notEqual => !equals actual operand
  | op => inRange op actual operand

def operatorHolds (actual : Option Value) (name : String) (operand : Value) :
    Except QueryFault Bool :=
  match comparison? name with
  | some op => .ok (compares op actual operand)
  | none =>
      if name = "$exists" then
        match operand with
        | .bool wanted => .ok (actual.isSome == wanted)
        | _ => .error .existsNotABool
      else .error (.fieldOperator name)

/-- Every operator holds; those after one that does not are not looked at. -/
def operatorsHold (actual : Option Value) : Record → Except QueryFault Bool
  | [] => .ok true
  | (name, operand) :: rest => do
      if ← operatorHolds actual name operand then operatorsHold actual rest else .ok false

def fieldHolds (actual : Option Value) (condition : Value) : Except QueryFault Bool :=
  match condition with
  | .map fields =>
      if isOperatorDocument fields then operatorsHold actual fields
      else .ok (equals actual (.map fields))
  | value => .ok (equals actual value)

/-- A string that starts with a dollar sign names a field; all else stands for itself. -/
def operand (document : Record) : Value → Option Value
  | .string text =>
      match text.toList with
      | '$' :: name => Record.field? document (String.ofList name)
      | _ => some (.string text)
  | value => some value

def expressionHolds (document : Record) : Value → Except QueryFault Bool
  | .map [(name, .sequence [left, right])] =>
      match comparison? name with
      | some op =>
          .ok (op.accepts (Value.totalOrder (operand document left) (operand document right)))
      | none => .error (.expressionOperator name)
  | .map [(name, _)] => .error (.operandCount name)
  | .map _ => .error .expressionNotOneOperator
  | _ => .error .expressionNotADocument

mutual

def entriesHold (document : Record) : List (String × Value) → Except QueryFault Bool
  | [] => .ok true
  | (key, condition) :: rest => do
      let holds ←
        if key = "$and" then clausesHold document true condition
        else if key = "$or" then clausesHold document false condition
        else if key = "$expr" then expressionHolds document condition
        else if isOperator key then .error (.topLevelOperator key)
        else fieldHolds (Record.field? document key) condition
      if holds then entriesHold document rest else .ok false

/-- All clauses hold, or at least one does. -/
def clausesHold (document : Record) (all : Bool) : Value → Except QueryFault Bool
  | .sequence [] => .error .noClauses
  | .sequence (clause :: rest) => clauseListHolds document all (clause :: rest)
  | _ => .error .clausesNotAList

/-- Goes on as long as the clauses decide nothing. -/
def clauseListHolds (document : Record) (all : Bool) : List Value → Except QueryFault Bool
  | [] => .ok all
  | .map clause :: rest => do
      if (← entriesHold document clause) = all then clauseListHolds document all rest
      else .ok !all
  | _ :: _ => .error .clauseNotADocument

end

/-- Whether a document satisfies a filter. The empty filter matches every document. -/
def matches? (document filter : Record) : Except StoreError Bool :=
  match entriesHold document filter with
  | .ok holds => .ok holds
  | .error fault => .error (.invalidQuery fault)

end DataAccess.Document
