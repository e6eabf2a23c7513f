import DataAccess.Comparison
import DataAccess.Json.Printer

namespace DataAccess

/-- A predicate over one record, the same for every kind of store. -/
inductive Filter
  | compare (field : String) (op : Comparison) (value : Value)
  | compareFields (left : String) (op : Comparison) (right : String)
  | isNull (field : String)
  | isNotNull (field : String)
  | allOf (members : List Filter)
  | anyOf (members : List Filter)

namespace Filter

instance : Inhabited Filter := ⟨.allOf []⟩

inductive Kind
  | compare | compareFields | isNull | isNotNull | allOf | anyOf
deriving DecidableEq

def Kind.name : Kind → String
  | .compare => "FieldOpValue"
  | .compareFields => "FieldOpField"
  | .isNull => "FieldIsNull"
  | .isNotNull => "FieldIsNotNull"
  | .allOf => "And"
  | .anyOf => "Or"

def kind : Filter → Kind
  | .compare _ _ _ => .compare
  | .compareFields _ _ _ => .compareFields
  | .isNull _ => .isNull
  | .isNotNull _ => .isNotNull
  | .allOf _ => .allOf
  | .anyOf _ => .anyOf

/-- Why a filter cannot be used. -/
inductive Fault
  | emptyGroup (kind : Kind)
  | described (text : String)
deriving DecidableEq

def Fault.message : Fault → String
  | .emptyGroup kind => kind.name ++ " without children"
  | .described text => text

def allOf? (members : List Filter) : Option Filter :=
  if members.isEmpty then none else some (.allOf members)

def anyOf? (members : List Filter) : Option Filter :=
  if members.isEmpty then none else some (.anyOf members)

/-- The members of a group, of which there has to be one. -/
def nonempty {α : Type} (kind : Kind) (members : List α) : Except Fault Unit :=
  if members.isEmpty then .error (.emptyGroup kind) else .ok ()

mutual

/-- Refuses the first empty group, from the outside in and from left to right. -/
def validate : Filter → Except Fault Unit
  | .compare _ _ _ => .ok ()
  | .compareFields _ _ _ => .ok ()
  | .isNull _ => .ok ()
  | .isNotNull _ => .ok ()
  | .allOf members => do
      nonempty .allOf members
      validateAll members
  | .anyOf members => do
      nonempty .anyOf members
      validateAll members

def validateAll : List Filter → Except Fault Unit
  | [] => .ok ()
  | member :: rest => do
      validate member
      validateAll rest

end

mutual

def rename (name : String → String) : Filter → Filter
  | .compare field op value => .compare (name field) op value
  | .compareFields left op right => .compareFields (name left) op (name right)
  | .isNull field => .isNull (name field)
  | .isNotNull field => .isNotNull (name field)
  | .allOf members => .allOf (renameAll name members)
  | .anyOf members => .anyOf (renameAll name members)

def renameAll (name : String → String) : List Filter → List Filter
  | [] => []
  | member :: rest => rename name member :: renameAll name rest

end

mutual

/-- The filter as it reads in messages, each group between parentheses. -/
def write : Filter → List Char
  | .compare field op value =>
      field.toList ++ ' ' :: (op.symbol.toList ++ ' ' :: Json.write value)
  | .compareFields left op right =>
      left.toList ++ ' ' :: (op.symbol.toList ++ ' ' :: right.toList)
  | .isNull field => field.toList ++ " IS NULL".toList
  | .isNotNull field => field.toList ++ " IS NOT NULL".toList
  | .allOf members => '(' :: (List.intercalate " AND ".toList (writeAll members) ++ [')'])
  | .anyOf members => '(' :: (List.intercalate " OR ".toList (writeAll members) ++ [')'])

def writeAll : List Filter → List (List Char)
  | [] => []
  | member :: rest => write member :: writeAll rest

end

def text (filter : Filter) : String := String.ofList (write filter)

end Filter

end DataAccess
