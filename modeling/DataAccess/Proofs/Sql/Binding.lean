import DataAccess.Proofs.Except
import DataAccess.Proofs.Filter
import DataAccess.Proofs.Sql.Lexeme
import Mathlib.Data.List.Forall2

namespace DataAccess

namespace Filter

def literal? : Filter → Option (String × Value)
  | .compare field _ value => some (field, value)
  | _ => none

/-- The values in a filter with the fields that they are compared with, from left to right. -/
def literals (filter : Filter) : List (String × Value) := filter.tests.filterMap literal?

theorem literals_allOf (members : List Filter) :
    (Filter.allOf members).literals = members.flatMap literals := by
  rw [literals, tests, testsOfAll_eq, List.filterMap_flatMap]
  rfl

theorem literals_anyOf (members : List Filter) :
    (Filter.anyOf members).literals = members.flatMap literals := by
  rw [literals, tests, testsOfAll_eq, List.filterMap_flatMap]
  rfl

theorem literals_rename (name : String → String) (filter : Filter) :
    (filter.rename name).literals = filter.literals.map fun pair => (name pair.1, pair.2) := by
  simp only [literals, tests_rename, List.filterMap_map, List.map_filterMap]
  refine List.filterMap_congr fun test _ => ?_
  cases test <;> rfl

end Filter

namespace Sql

namespace Lexeme

def mark? : Lexeme → Option (List Char)
  | .mark found => some found
  | _ => none

def name? : Lexeme → Option String
  | .name found => some found
  | _ => none

/-- The marks in a text, from left to right. -/
def marks (text : List Lexeme) : List (List Char) := text.filterMap mark?

def names (text : List Lexeme) : List String := text.filterMap name?

/-- For each mark, the name that was read last before it. -/
def precedingNames (last : String) : List Lexeme → List String
  | [] => []
  | .name found :: rest => precedingNames found rest
  | .mark _ :: rest => last :: precedingNames last rest
  | .char _ :: rest => precedingNames last rest

/-- The columns that the marks of a statement stand for. Those of an insert are listed behind its
table; in other statements each is the name in front of the mark. -/
def columns (text : List Lexeme) : List String :=
  if ("INSERT ".toList.map .char).isPrefixOf text then (names text).tail
  else precedingNames "" text

variable (letters : List Char) (rest : List Lexeme)

theorem filterMap_chars {α : Type} {f : Lexeme → Option α} (skips : ∀ c, f (.char c) = none) :
    (letters.map Lexeme.char ++ rest).filterMap f = rest.filterMap f := by
  induction letters with
  | nil => rfl
  | cons c more ih => rw [List.map_cons, List.cons_append, List.filterMap_cons_none (skips c), ih]

theorem precedingNames_chars (last : String) :
    precedingNames last (letters.map .char ++ rest) = precedingNames last rest := by
  induction letters with
  | nil => rfl
  | cons c more ih => exact ih

end Lexeme

/-- A text whose marks are those of its parameters in their order, each parameter being the value of
the column that its mark stands for. -/
structure Aligned (flavor : Flavor) (sql : String) (parameters : List Value)
    (pairs : List (String × Value)) : Prop where
  numbered : Lexeme.marks (flavor.lexemes sql.toList) =
    (List.range parameters.length).map fun i => flavor.placeholder (i + 1)
  placed : Lexeme.columns (flavor.lexemes sql.toList) = pairs.map Prod.fst
  passed : parameters = pairs.map Prod.snd

namespace Statement

variable {flavor : Flavor} {statement left right : Statement} {text : String}
variable {pairs more : List (String × Value)}

def names : Statement → List String
  | [] => []
  | .identifier name :: rest => name :: names rest
  | .text _ :: rest => names rest
  | .value _ :: rest => names rest

/-- The values of a statement, each with the name in front of it. -/
def bindings (last : String) : Statement → List (String × Value)
  | [] => []
  | .text _ :: rest => bindings last rest
  | .identifier name :: rest => bindings name rest
  | .value value :: rest => (last, value) :: bindings last rest

theorem marks_lexemes (flavor : Flavor) (first : Nat) (statement : Statement) :
    Lexeme.marks (lexemes flavor first statement) =
      (List.range statement.parameters.length).map fun i => flavor.placeholder (first + i) := by
  induction statement generalizing first with
  | nil => rfl
  | cons piece rest ih =>
      cases piece with
      | text text => exact (Lexeme.filterMap_chars _ _ fun _ => rfl).trans (ih first)
      | identifier name => exact ih first
      | value value =>
          refine (congrArg (flavor.placeholder first :: ·) (ih (first + 1))).trans ?_
          simp only [parameters, List.length_cons, List.range_succ_eq_map, List.map_cons,
            List.map_map, Nat.add_zero, Function.comp_def, Nat.add_assoc, Nat.add_comm 1]

theorem names_lexemes (flavor : Flavor) (first : Nat) (statement : Statement) :
    Lexeme.names (lexemes flavor first statement) = names statement := by
  induction statement generalizing first with
  | nil => rfl
  | cons piece rest ih =>
      cases piece with
      | text text => exact (Lexeme.filterMap_chars _ _ fun _ => rfl).trans (ih first)
      | identifier name => exact congrArg (name :: ·) (ih first)
      | value value => exact ih (first + 1)

theorem precedingNames_lexemes (flavor : Flavor) (first : Nat) (last : String)
    (statement : Statement) :
    Lexeme.precedingNames last (lexemes flavor first statement) =
      (bindings last statement).map Prod.fst := by
  induction statement generalizing first last with
  | nil => rfl
  | cons piece rest ih =>
      cases piece with
      | text text => exact (Lexeme.precedingNames_chars _ _ last).trans (ih first last)
      | identifier name => exact ih first name
      | value value => exact congrArg (last :: ·) (ih (first + 1) last)

theorem parameters_eq (last : String) (statement : Statement) :
    parameters statement = (bindings last statement).map Prod.snd := by
  induction statement generalizing last with
  | nil => rfl
  | cons piece rest ih =>
      cases piece with
      | text text => exact ih last
      | identifier name => exact ih name
      | value value => exact congrArg (value :: ·) (ih last)

theorem names_append (left right : Statement) : names (left ++ right) = names left ++ names right := by
  induction left with
  | nil => rfl
  | cons piece rest ih => cases piece <;> simp [names, ih]

/-- What is collected piece by piece, and not from separators, is collected member by member. -/
theorem collect_separated {α : Type} {collect : Statement → List α} {separator : String}
    (empty : collect [] = [])
    (appends : ∀ left right, collect (left ++ right) = collect left ++ collect right)
    (skips : ∀ rest, collect (.text separator :: rest) = collect rest) (members : List Statement) :
    collect (separated separator members) = members.flatMap collect := by
  induction members with
  | nil => exact empty
  | cons member rest ih =>
      cases rest with
      | nil => simp [separated]
      | cons next more =>
          have split : separated separator (member :: next :: more) =
              member ++ .text separator :: separated separator (next :: more) := rfl
          rw [split, appends, skips, ih]
          rfl

theorem names_separated (separator : String) (members : List Statement) :
    names (separated separator members) = members.flatMap names :=
  collect_separated rfl names_append (fun _ => rfl) members

theorem parameters_separated (separator : String) (members : List Statement) :
    parameters (separated separator members) = members.flatMap parameters :=
  collect_separated rfl parameters_append (fun _ => rfl) members

/-- A spaced statement in which each value follows the name that it is paired with, whatever stands
in front of the statement. -/
structure Binds (statement : Statement) (pairs : List (String × Value)) : Prop where
  spaced : Spaced statement
  paired : ∀ last, bindings last statement = pairs

theorem binds_nil : Binds [] [] := ⟨trivial, fun _ => rfl⟩

theorem binds_text (free : Free text) (rest : Binds statement pairs) :
    Binds (.text text :: statement) pairs :=
  ⟨⟨free, rest.spaced⟩, rest.paired⟩

theorem binds_identifier {name : String} (delimits : Delimits statement)
    (rest : Binds statement pairs) : Binds (.identifier name :: statement) pairs :=
  ⟨⟨delimits, rest.spaced⟩, fun _ => rest.paired name⟩

theorem bindings_append (last : String) (left : Statement) (ofRight : Binds right pairs) :
    bindings last (left ++ right) = bindings last left ++ pairs := by
  induction left generalizing last with
  | nil => exact ofRight.paired last
  | cons piece rest ih =>
      cases piece with
      | text text => exact ih last
      | identifier name => exact ih name
      | value value => exact congrArg ((last, value) :: ·) (ih last)

theorem binds_append (ofLeft : Binds left pairs) (ofRight : Binds right more)
    (delimits : Delimits right) : Binds (left ++ right) (pairs ++ more) where
  spaced := spaced_append ofLeft.spaced ofRight.spaced delimits
  paired last := by rw [bindings_append last left ofRight, ofLeft.paired]

theorem binds_separated {α : Type} {separator : String} {items : List α} {members : List Statement}
    {pairsOf : α → List (String × Value)} (gap : Gap separator)
    (each : List.Forall₂ (fun item member => Binds member (pairsOf item)) items members) :
    Binds (separated separator members) (items.flatMap pairsOf) := by
  induction each with
  | nil => exact binds_nil
  | @cons item member items rest ofMember ofRest ih =>
      cases ofRest with
      | nil => simpa [separated] using ofMember
      | cons ofNext ofMore =>
          rw [List.flatMap_cons]
          exact binds_append ofMember (binds_text gap.free ih) (delimits_of_gap gap _)

theorem lexemes_sql (flavor : Flavor) (spaced : Spaced statement) :
    flavor.lexemes (statement.sql flavor).toList = lexemes flavor 1 statement := by
  rw [sql, String.toList_ofList]
  exact lexemes_render flavor 1 spaced

theorem marks_sql (flavor : Flavor) (spaced : Spaced statement) :
    Lexeme.marks (flavor.lexemes (statement.sql flavor).toList) =
      (List.range statement.parameters.length).map fun i => flavor.placeholder (i + 1) := by
  rw [lexemes_sql flavor spaced, marks_lexemes]
  simp only [Nat.add_comm 1]

theorem aligned_of_binds (flavor : Flavor) (binds : Binds statement pairs)
    (other : ("INSERT ".toList.map .char).isPrefixOf (lexemes flavor 1 statement) = false) :
    Aligned flavor (statement.sql flavor) statement.parameters pairs where
  numbered := marks_sql flavor binds.spaced
  -- No insert, so the columns are the names in front of the marks.
  placed := by
    rw [lexemes_sql flavor binds.spaced, Lexeme.columns, other, if_neg Bool.false_ne_true,
      precedingNames_lexemes, binds.paired]
  passed := by rw [parameters_eq "", binds.paired]

end Statement

end Sql

end DataAccess
