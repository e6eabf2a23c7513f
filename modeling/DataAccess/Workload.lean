import DataAccess.Filter

namespace DataAccess.Workload

def number (n : Nat) : Value := (Value.ofInt? n).getD .null

def fieldName (i : Nat) : String := "f" ++ toString i

/-- Numbered fields with numbers from `start` on. -/
def fields (start width : Nat) : Record :=
  (List.range width).map fun i => (fieldName i, number (start + i))

/-- Maps nested in one another from a level on, each with `width` fields and the next map. -/
def nestedFrom (width level : Nat) : (depth : Nat) → Value
  | 0 => .null
  | depth + 1 =>
      let inner := match nestedFrom width (level + 1) depth with
        | .null => []
        | next => [("next", next)]
      .map (fields (level * width) width ++ inner)

/-- A document of maps nested `depth` deep. -/
def nestedDocument (depth width : Nat) : Value := nestedFrom width 0 depth

/-- The path to the first field of the innermost of `depth` nested maps. -/
def deepPath (depth : Nat) : String :=
  ".".intercalate (List.replicate (depth - 1) "next" ++ [fieldName 0])

/-- Text with zeros in front, up to a width. -/
def padded (width : Nat) (text : String) : String :=
  String.ofList (List.replicate (width - text.length) '0') ++ text

/-- A flat record with an id of at least eight digits. -/
def record (id width : Nat) : Value :=
  .map (("id", .string (padded 8 (toString id))) :: fields id width)

/-- One of the tests of a wide filter. -/
def wideTest (i : Nat) : Filter :=
  match i % 3 with
  | 0 => .compare (fieldName i) .greaterOrEqual (number i)
  | 1 => .anyOf [.compare (fieldName i) .less (number i), .isNull (fieldName i)]
  | _ => .isNotNull (fieldName i)

/-- A conjunction of `n` tests of ranges and nulls. -/
def wideFilter (n : Nat) : Filter := .allOf ((List.range n).map wideTest)

end DataAccess.Workload
