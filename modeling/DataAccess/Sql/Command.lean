import DataAccess.Comparison
import DataAccess.Sql.Cell
import DataAccess.Sql.Token

namespace DataAccess.Sql

/-- An expression without operators. -/
inductive Term
  | literal (cell : Cell)
  | parameter (position : Nat)
  /-- A column; a quoted name that names none is text. -/
  | column (name : String) (quoted : Bool)
deriving DecidableEq

inductive Predicate
  | compare (left : Term) (op : Comparison) (right : Term)
  | isNull (term : Term)
  | isNotNull (term : Term)
  | both (left right : Predicate)
  | either (left right : Predicate)

/-- How many levels a predicate has, those of its terms included. -/
def Predicate.height : Predicate → Nat
  | .compare _ _ _ => 2
  | .isNull _ => 2
  | .isNotNull _ => 2
  | .both left right => max left.height right.height + 1
  | .either left right => max left.height right.height + 1

/-- What a query fetches: every column, or a term under a label. -/
inductive Projection
  | star
  | term (term : Term) (label : Option String)

/-- A bound of a page: a number, if it is small enough to be one. -/
abbrev Bound := Option Int

structure Selection where
  projections : List Projection
  table : Option String := none
  predicate : Option Predicate := none
  /-- Terms to sort by, and whether each is descending. -/
  order : List (Term × Bool) := []
  limit : Option Bound := none
  offset : Option Bound := none

inductive Command
  | select (selection : Selection)
  | insert (table : String) (columns : List String) (values : List Term)
  | update (table : String) (assignments : List (String × Term)) (predicate : Option Predicate)
  | delete (table : String) (predicate : Option Predicate)
  /-- The columns of a table, and those of each constraint. -/
  | createTable (name : String) (columns : List String) (constraints : List (List String))

/-- A reader of tokens that answers what it has read and what is left. -/
abbrev Parser (α : Type) := List Token → Option (α × List Token)

namespace Parser

def word (letters : String) : Parser Unit
  | .word found :: rest => if found = letters.toList then some ((), rest) else none
  | _ => none

def words : List String → Parser Unit
  | [], tokens => some ((), tokens)
  | first :: more, tokens => (word first tokens).bind fun ((), tokens) => words more tokens

def mark (text : String) : Parser Unit
  | .mark found :: rest => if found = text.toList then some ((), rest) else none
  | _ => none

def name : Parser String
  | .name text :: rest => some (text, rest)
  | _ => none

/-- What follows words, where they stand there. -/
def after {α : Type} (keywords : List String) (parser : Parser α) : Parser (Option α) :=
  fun tokens =>
    match words keywords tokens with
    | some ((), tokens) => (parser tokens).map fun (result, tokens) => (some result, tokens)
    | none => some (none, tokens)

/-- One or more items with commas between them; there are no more of them than tokens. -/
def listOf {α : Type} (item : Parser α) : Nat → Parser (List α)
  | 0, _ => none
  | bound + 1, tokens => do
      let (first, tokens) ← item tokens
      match mark "," tokens with
      | some ((), tokens) => do
          let (more, tokens) ← listOf item bound tokens
          return (first :: more, tokens)
      | none => return ([first], tokens)

def commaSeparated {α : Type} (item : Parser α) : Parser (List α) :=
  fun tokens => listOf item tokens.length tokens

/-- Something between parentheses. -/
def enclosed {α : Type} (parser : Parser α) : Parser α := fun tokens => do
  let ((), tokens) ← mark "(" tokens
  let (result, tokens) ← parser tokens
  let ((), tokens) ← mark ")" tokens
  return (result, tokens)

def term : Parser Term
  | .parameter position :: rest => some (.parameter position, rest)
  | .name text :: rest => some (.column text true, rest)
  | .number numeral :: rest => some (.literal (Cell.ofNumeral numeral), rest)
  | .bytes bytes :: rest => some (.literal (.blob bytes), rest)
  | .word ['C', 'A', 'S', 'T'] :: .mark ['('] :: .bytes bytes :: .word ['A', 'S'] ::
      .word ['T', 'E', 'X', 'T'] :: .mark [')'] :: rest => some (.literal (.text bytes), rest)
  | .word ['N', 'U', 'L', 'L'] :: rest => some (.literal .null, rest)
  | .word ['R', 'O', 'W', 'I', 'D'] :: rest => some (.column "rowid" false, rest)
  | _ => none

def operator : Parser Comparison
  | .mark text :: rest => (Comparison.ofSymbol? (String.ofList text)).map fun op => (op, rest)
  | _ => none

/-- A comparison or a test for null. -/
def basic : Parser Predicate := fun tokens => do
  let (left, tokens) ← term tokens
  match words ["IS", "NOT", "NULL"] tokens with
  | some ((), tokens) => return (.isNotNull left, tokens)
  | none =>
      match words ["IS", "NULL"] tokens with
      | some ((), tokens) => return (.isNull left, tokens)
      | none => do
          let (op, tokens) ← operator tokens
          let (right, tokens) ← term tokens
          return (.compare left op right, tokens)

/-- Predicates put together from the left to the right. -/
def joined (join : Predicate → Predicate → Predicate) : List Predicate → Option Predicate
  | [] => none
  | first :: rest => some (rest.foldl join first)

mutual

/-- Disjunctions of conjunctions, nested no deeper than `depth`. -/
def disjunction : Nat → Parser Predicate
  | 0, _ => none
  | depth + 1, tokens => do
      let (members, tokens) ← disjuncts depth tokens
      let predicate ← joined .either members
      return (predicate, tokens)

def disjuncts : Nat → Parser (List Predicate)
  | 0, _ => none
  | depth + 1, tokens => do
      let (first, tokens) ← conjunction depth tokens
      match word "OR" tokens with
      | some ((), tokens) => do
          let (rest, tokens) ← disjuncts depth tokens
          return (first :: rest, tokens)
      | none => return ([first], tokens)

def conjunction : Nat → Parser Predicate
  | 0, _ => none
  | depth + 1, tokens => do
      let (members, tokens) ← conjuncts depth tokens
      let predicate ← joined .both members
      return (predicate, tokens)

def conjuncts : Nat → Parser (List Predicate)
  | 0, _ => none
  | depth + 1, tokens => do
      let (first, tokens) ← factor depth tokens
      match word "AND" tokens with
      | some ((), tokens) => do
          let (rest, tokens) ← conjuncts depth tokens
          return (first :: rest, tokens)
      | none => return ([first], tokens)

def factor : Nat → Parser Predicate
  | 0, _ => none
  | depth + 1, tokens =>
      match mark "(" tokens with
      | some _ => enclosed (disjunction depth) tokens
      | none => basic tokens

end

/-- The most levels that a predicate may have. -/
def mostLevels : Nat := 1000

def predicate : Parser Predicate := fun tokens => do
  let (found, tokens) ← disjunction (5 * tokens.length + 5) tokens
  if found.height ≤ mostLevels then return (found, tokens) else none

def projection : Parser Projection := fun tokens =>
  match mark "*" tokens with
  | some ((), tokens) => some (.star, tokens)
  | none => do
      let (found, tokens) ← term tokens
      let (label, tokens) ← after ["AS"] name tokens
      return (.term found label, tokens)

def sortTerm : Parser (Term × Bool) := fun tokens => do
  let (found, tokens) ← term tokens
  match word "DESC" tokens with
  | some ((), tokens) => return ((found, true), tokens)
  | none =>
      match word "ASC" tokens with
      | some ((), tokens) => return ((found, false), tokens)
      | none => return ((found, false), tokens)

def bound : Parser Bound
  | .mark ['-'] :: .number numeral :: rest => some (some (-numeral.digits), rest)
  | .number numeral :: rest =>
      match Cell.ofNumeral numeral with
      | .integer i => some (some i, rest)
      | _ => some (none, rest)
  | _ => none

def select : Parser Command := fun tokens => do
  let (projections, tokens) ← commaSeparated projection tokens
  let (table, tokens) ← after ["FROM"] name tokens
  let (predicate, tokens) ← after ["WHERE"] predicate tokens
  let (order, tokens) ← after ["ORDER", "BY"] (commaSeparated sortTerm) tokens
  let (limit, tokens) ← after ["LIMIT"] bound tokens
  let (offset, tokens) ← after ["OFFSET"] bound tokens
  return (.select { projections, table, predicate, order := order.getD [], limit, offset }, tokens)

def insert : Parser Command := fun tokens => do
  let ((), tokens) ← word "INTO" tokens
  let (table, tokens) ← name tokens
  let (columns, tokens) ← enclosed (commaSeparated name) tokens
  let ((), tokens) ← word "VALUES" tokens
  let (values, tokens) ← enclosed (commaSeparated term) tokens
  return (.insert table columns values, tokens)

def assignment : Parser (String × Term) := fun tokens => do
  let (column, tokens) ← name tokens
  let ((), tokens) ← mark "=" tokens
  let (value, tokens) ← term tokens
  return ((column, value), tokens)

def update : Parser Command := fun tokens => do
  let (table, tokens) ← name tokens
  let ((), tokens) ← word "SET" tokens
  let (assignments, tokens) ← commaSeparated assignment tokens
  let (predicate, tokens) ← after ["WHERE"] predicate tokens
  return (.update table assignments predicate, tokens)

def delete : Parser Command := fun tokens => do
  let ((), tokens) ← word "FROM" tokens
  let (table, tokens) ← name tokens
  let (predicate, tokens) ← after ["WHERE"] predicate tokens
  return (.delete table predicate, tokens)

/-- A part of a table's definition: a column with the constraints on it alone, or a constraint. -/
def definition : Parser (List String × List (List String))
  | .word ['P', 'R', 'I', 'M', 'A', 'R', 'Y'] :: .word ['K', 'E', 'Y'] :: rest => do
      let (columns, tokens) ← enclosed (commaSeparated name) rest
      return (([], [columns]), tokens)
  | .word ['U', 'N', 'I', 'Q', 'U', 'E'] :: rest => do
      let (columns, tokens) ← enclosed (commaSeparated name) rest
      return (([], [columns]), tokens)
  | tokens => do
      let (column, tokens) ← name tokens
      let nothing : Parser Unit := fun tokens => some ((), tokens)
      let (key, tokens) ← after ["PRIMARY", "KEY"] nothing tokens
      let (unique, tokens) ← after ["UNIQUE"] nothing tokens
      return (([column], (key.toList ++ unique.toList).map fun _ => [column]), tokens)

def createTable : Parser Command := fun tokens => do
  let ((), tokens) ← word "TABLE" tokens
  let (table, tokens) ← name tokens
  let (parts, tokens) ← enclosed (commaSeparated definition) tokens
  return (.createTable table (parts.flatMap Prod.fst) (parts.flatMap Prod.snd), tokens)

def command : Parser Command
  | .word ['S', 'E', 'L', 'E', 'C', 'T'] :: rest => select rest
  | .word ['I', 'N', 'S', 'E', 'R', 'T'] :: rest => insert rest
  | .word ['U', 'P', 'D', 'A', 'T', 'E'] :: rest => update rest
  | .word ['D', 'E', 'L', 'E', 'T', 'E'] :: rest => delete rest
  | .word ['C', 'R', 'E', 'A', 'T', 'E'] :: rest => createTable rest
  | _ => none

end Parser

/-- The command of a statement, and how many parameters it has. -/
def Command.ofText? (sql : String) : Option (Command × Nat) := do
  let (tokens, parameters) ← Token.ofText? sql.toList
  match Parser.command tokens with
  | some (command, []) => return (command, parameters)
  | _ => none

end DataAccess.Sql
