import DataAccess.Text.Numeral

namespace DataAccess.Sql

inductive Token
  /-- A word, in capitals. -/
  | word (letters : List Char)
  | name (text : String)
  | number (numeral : Numeral)
  | bytes (bytes : List UInt8)
  | parameter (position : Nat)
  | mark (marks : List Char)
deriving DecidableEq

namespace Token

/-- What the machine is reading; characters read so far stand in reverse. -/
inductive Reading
  | gap
  | word (letters : List Char)
  | name (chars : List Char)
  /-- After a quote inside a quoted name, which ends it unless another follows. -/
  | nameQuote (chars : List Char)
  | number (chars : List Char)
  | bytes (digits : List Char)
  | mark (c : Char)

structure Lexer where
  reading : Reading := .gap
  /-- The parameters read so far. -/
  parameters : Nat := 0
  /-- The tokens read so far, the latest first. -/
  tokens : List Token := []

def isWordStart (c : Char) : Bool := c.isAlpha || c == '_'

def isWordChar (c : Char) : Bool := c.isAlphanum || c == '_'

def isNumberChar (c : Char) : Bool := c.isAlphanum || c == '.'

def isBlank (c : Char) : Bool := c == ' ' || c == '\t' || c == '\n' || c == '\r'

/-- Marks that may be the first of two. -/
def isCompound (c : Char) : Bool := c == '<' || c == '>'

def hexValue? (c : Char) : Option Nat :=
  let code := c.toNat
  if 48 ≤ code ∧ code ≤ 57 then some (code - 48)
  else if 97 ≤ code ∧ code ≤ 102 then some (code - 87)
  else if 65 ≤ code ∧ code ≤ 70 then some (code - 55)
  else none

/-- The bytes that pairs of hexadecimal digits spell. -/
def hexBytes? : List Char → Option (List UInt8)
  | [] => some []
  | high :: low :: rest => do
      let high ← hexValue? high
      let low ← hexValue? low
      let bytes ← hexBytes? rest
      return UInt8.ofNat (16 * high + low) :: bytes
  | [_] => none

def number? (chars : List Char) : Option Token :=
  match Numeral.read? chars with
  | some numeral => if numeral.isDecimal then some (.number numeral) else none
  | none => none

/-- A character outside any token. -/
def start (state : Lexer) (c : Char) : Option Lexer :=
  if isBlank c then some { state with reading := .gap }
  else if c = '"' then some { state with reading := .name [] }
  else if c = '?' then
    some
      { reading := .gap
        parameters := state.parameters + 1
        tokens := .parameter state.parameters :: state.tokens }
  else if c.isDigit then some { state with reading := .number [c] }
  else if isWordStart c then some { state with reading := .word [c] }
  else if isCompound c then some { state with reading := .mark c }
  else some { state with reading := .gap, tokens := .mark [c] :: state.tokens }

/-- The token that ends where another character than its own follows. -/
def close? : Reading → Option (List Token)
  | .gap => some []
  | .word letters => some [.word (letters.reverse.map Char.toUpper)]
  | .nameQuote chars => some [.name (String.ofList chars.reverse)]
  | .number chars => (number? chars.reverse).map ([·])
  | .mark c => some [.mark [c]]
  | .name _ => none
  | .bytes _ => none

def closeAndStart (state : Lexer) (c : Char) : Option Lexer :=
  (close? state.reading).bind fun token => start { state with tokens := token ++ state.tokens } c

def step (state : Lexer) (c : Char) : Option Lexer :=
  match state.reading with
  | .word letters =>
      if isWordChar c then some { state with reading := .word (c :: letters) }
      else if c.toNat = 39 ∧ (letters = ['x'] ∨ letters = ['X']) then
        some { state with reading := .bytes [] }
      else closeAndStart state c
  | .name chars =>
      if c.toNat = 0 then none
      else if c = '"' then some { state with reading := .nameQuote chars }
      else some { state with reading := .name (c :: chars) }
  | .nameQuote chars =>
      if c = '"' then some { state with reading := .name (c :: chars) }
      else closeAndStart state c
  | .number chars =>
      if isNumberChar c then some { state with reading := .number (c :: chars) }
      else closeAndStart state c
  | .bytes digits =>
      if c.toNat = 39 then
        (hexBytes? digits.reverse).map fun bytes =>
          { state with reading := .gap, tokens := .bytes bytes :: state.tokens }
      else some { state with reading := .bytes (c :: digits) }
  | .mark first =>
      if c = '=' ∨ (first = '<' ∧ c = '>') then
        some { state with reading := .gap, tokens := .mark [first, c] :: state.tokens }
      else closeAndStart state c
  | .gap => start state c

/-- The tokens of a statement, and how many parameters it has. -/
def ofText? (text : List Char) : Option (List Token × Nat) :=
  (text.foldlM step {}).bind fun state =>
    (close? state.reading).map fun token =>
      ((token ++ state.tokens).reverse, state.parameters)

end Token

end DataAccess.Sql
