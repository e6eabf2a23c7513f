import DataAccess.KeyValue.Condition

/-!
# Condition expressions

A condition is sent as a text in which placeholders stand for the names of attributes and for
literals: `#n0`, `#n1` and so on for names, each name once, and `:v0`, `:v1` and so on for literals
from left to right. A name that is a path has a placeholder for each key, while positions in lists
are written out.
-/

namespace DataAccess.KeyValue

/-- What the placeholders of a text stand for, by their numbers. -/
structure Placeholders where
  names : List String := []
  values : List Value := []
deriving DecidableEq

structure Expression where
  text : List Char
  placeholders : Placeholders
deriving DecidableEq

namespace Placeholders

def nameMark (number : Nat) : List Char := '#' :: 'n' :: Decimal.ofNat number

def valueMark (number : Nat) : List Char := ':' :: 'v' :: Decimal.ofNat number

/-- The placeholder of a name: the one it has, or else the next. -/
def name (placeholders : Placeholders) (text : String) : List Char × Placeholders :=
  match placeholders.names.idxOf? text with
  | some number => (nameMark number, placeholders)
  | none =>
      (nameMark placeholders.names.length,
        { placeholders with names := placeholders.names ++ [text] })

/-- The placeholder of a literal, always the next. -/
def value (placeholders : Placeholders) (value : Value) : List Char × Placeholders :=
  (valueMark placeholders.values.length,
    { placeholders with values := placeholders.values ++ [value] })

/-- A part of a path that is written out as a position. -/
def isPosition (part : List Char) : Bool := !part.isEmpty && part.all Decimal.isDigit

/-- The parts of a path after the first. -/
def pathRest (placeholders : Placeholders) : List (List Char) → List Char × Placeholders
  | [] => ([], placeholders)
  | part :: rest =>
      if isPosition part then
        let (text, placeholders) := pathRest placeholders rest
        ('[' :: (part ++ ']' :: text), placeholders)
      else
        let (mark, placeholders) := placeholders.name (String.ofList part)
        let (text, placeholders) := pathRest placeholders rest
        ('.' :: (mark ++ text), placeholders)

def path (placeholders : Placeholders) (attr : String) : List Char × Placeholders :=
  match attr.toList.splitOn '.' with
  | [] => ([], placeholders)
  | first :: rest =>
      let (mark, placeholders) := placeholders.name (String.ofList first)
      let (text, placeholders) := pathRest placeholders rest
      (mark ++ text, placeholders)

def operand (placeholders : Placeholders) : Operand → List Char × Placeholders
  | .literal value => placeholders.value value
  | .ofItem name => placeholders.path name

/-- The placeholders with what they stand for, sorted by their text. -/
def table {α : Type} (mark : Nat → List Char) (items : List α) : Dict α :=
  let entries := items.zipIdx.map fun (item, number) => (String.ofList (mark number), item)
  entries.mergeSort fun left right => left.1 ≤ right.1

def nameTable (placeholders : Placeholders) : Dict String := table nameMark placeholders.names

def valueTable (placeholders : Placeholders) : Dict Value := table valueMark placeholders.values

end Placeholders

namespace Condition

mutual

/-- The text of a condition, and the placeholders after it. -/
def renderFrom (placeholders : Placeholders) : Condition → List Char × Placeholders
  | .compare name op operand =>
      let (left, placeholders) := placeholders.path name
      let (right, placeholders) := placeholders.operand operand
      (left ++ ' ' :: (op.symbol.toList ++ ' ' :: right), placeholders)
  | .present name =>
      let (path, placeholders) := placeholders.path name
      ("attribute_exists(".toList ++ path ++ [')'], placeholders)
  | .absent name =>
      let (path, placeholders) := placeholders.path name
      ("attribute_not_exists(".toList ++ path ++ [')'], placeholders)
  | .allOf parts =>
      let (texts, placeholders) := renderAll placeholders parts
      ('(' :: (List.intercalate " AND ".toList texts ++ [')']), placeholders)
  | .anyOf parts =>
      let (texts, placeholders) := renderAll placeholders parts
      ('(' :: (List.intercalate " OR ".toList texts ++ [')']), placeholders)

def renderAll (placeholders : Placeholders) :
    List Condition → List (List Char) × Placeholders
  | [] => ([], placeholders)
  | part :: rest =>
      let (text, placeholders) := renderFrom placeholders part
      let (texts, placeholders) := renderAll placeholders rest
      (text :: texts, placeholders)

end

def render (condition : Condition) : Expression :=
  let (text, placeholders) := renderFrom {} condition
  { text, placeholders }

/-- The condition as it reads in messages: the text of its expression. -/
def text (condition : Condition) : String := String.ofList condition.render.text

end Condition

end DataAccess.KeyValue
