import DataAccess.Filter

namespace DataAccess.Filter

mutual

def toValue : Filter → Value
  | .compare field op value =>
      .map [("FieldOpValue",
        .map [("field", .string field), ("op", .string op.name), ("value", value)])]
  | .compareFields left op right =>
      .map [("FieldOpField",
        .map [("left", .string left), ("op", .string op.name), ("right", .string right)])]
  | .isNull field => .map [("FieldIsNull", .map [("field", .string field)])]
  | .isNotNull field => .map [("FieldIsNotNull", .map [("field", .string field)])]
  | .allOf members => .map [("And", .sequence (toValues members))]
  | .anyOf members => .map [("Or", .sequence (toValues members))]

def toValues : List Filter → List Value
  | [] => []
  | member :: rest => toValue member :: toValues rest

end

def text? (parts : Record) (name : String) : Option String :=
  match Dict.get? parts name with
  | some (.string text) => some text
  | _ => none

/-- An operator: its name, alone or as the only key of a map that holds null. -/
def comparison? (parts : Record) : Option Comparison :=
  match Dict.get? parts "op" with
  | some (.string name) => Comparison.ofName? name
  | some (.map [(name, .null)]) => Comparison.ofName? name
  | _ => none

def parts? : Value → Option Record
  | .map parts => some parts
  | _ => none

mutual

def ofValue? : Value → Option Filter
  | .map [(form, content)] =>
      if form = "FieldOpValue" then do
        let parts ← parts? content
        return .compare (← text? parts "field") (← comparison? parts) (← Dict.get? parts "value")
      else if form = "FieldOpField" then do
        let parts ← parts? content
        return .compareFields (← text? parts "left") (← comparison? parts) (← text? parts "right")
      else if form = "FieldIsNull" then do
        let parts ← parts? content
        return .isNull (← text? parts "field")
      else if form = "FieldIsNotNull" then do
        let parts ← parts? content
        return .isNotNull (← text? parts "field")
      else if form = "And" then (members? content).map .allOf
      else if form = "Or" then (members? content).map .anyOf
      else none
  | _ => none

def members? : Value → Option (List Filter)
  | .sequence members => ofValues? members
  | _ => none

def ofValues? : List Value → Option (List Filter)
  | [] => some []
  | member :: rest => do
      let member ← ofValue? member
      let rest ← ofValues? rest
      return member :: rest

end

end DataAccess.Filter
