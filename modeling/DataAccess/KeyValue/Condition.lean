import DataAccess.Comparison
import DataAccess.Value.Field
import DataAccess.Value.Order

namespace DataAccess.KeyValue

/-- The right side of a comparison. -/
inductive Operand
  | literal (value : Value)
  /-- Another attribute of the same item. -/
  | ofItem (name : String)
deriving DecidableEq

def Operand.value? (item : Record) : Operand → Option Value
  | .literal value => some value
  | .ofItem name => Record.field? item name

inductive Condition
  | compare (name : String) (op : Comparison) (operand : Operand)
  | present (name : String)
  | absent (name : String)
  | allOf (parts : List Condition)
  | anyOf (parts : List Condition)

namespace Condition

instance : Inhabited Condition := ⟨.allOf []⟩

/-- Both conditions as one conjunction; a conjunction joins with its parts. -/
def join (left right : Condition) : Condition :=
  .allOf (parts left ++ parts right)
where
  parts : Condition → List Condition
    | .allOf parts => parts
    | single => [single]

def comparisonHolds (op : Comparison) (left right : Option Value) : Bool :=
  match left, right with
  | some x, some y =>
      match x.compare? y with
      | some order => op.accepts order
      | none => op == .notEqual
  | _, _ => false

mutual

def evaluate (item : Record) : Condition → Bool
  | .compare name op operand =>
      comparisonHolds op (Record.field? item name) (operand.value? item)
  | .present name => (Record.field? item name).isSome
  | .absent name => (Record.field? item name).isNone
  | .allOf parts => evaluateAll item parts
  | .anyOf parts => evaluateAny item parts

def evaluateAll (item : Record) : List Condition → Bool
  | [] => true
  | part :: rest => evaluate item part && evaluateAll item rest

def evaluateAny (item : Record) : List Condition → Bool
  | [] => false
  | part :: rest => evaluate item part || evaluateAny item rest

end

theorem evaluateAll_eq (item : Record) (parts : List Condition) :
    evaluateAll item parts = parts.all (evaluate item) := by
  induction parts with
  | nil => rfl
  | cons part rest ih => simp only [evaluateAll, List.all_cons, ih]

theorem evaluateAny_eq (item : Record) (parts : List Condition) :
    evaluateAny item parts = parts.any (evaluate item) := by
  induction parts with
  | nil => rfl
  | cons part rest ih => simp only [evaluateAny, List.any_cons, ih]

end Condition

end DataAccess.KeyValue
