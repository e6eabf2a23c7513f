import DataAccess.Value

/-!
# Tokens of JSON text

Text is split into tokens by a machine that takes one character at a time. Between tokens only
space, tab, line feed and carriage return may stand; inside a string no character below U+0020 may,
and an escape of a surrogate must be followed by the escape of its partner.
-/

namespace DataAccess.Json

inductive Token
  | openList | closeList | openMap | closeMap | comma | colon
  | null
  | bool (b : Bool)
  | number (n : Number)
  | text (s : String)
deriving DecidableEq

namespace Token

/-- What the machine is reading; characters read so far stand in reverse. -/
inductive Reading
  | gap
  | word (letters : List Char)
  | literal (chars : List Char)
  | text (chars : List Char)
  | escape (chars : List Char)
  /-- Some hexadecimal digits of a unit, after the high surrogate of a pair where there is one. -/
  | unit (chars : List Char) (high : Option Nat) (digits value : Nat)
  /-- After a high surrogate: its partner's backslash, or the letter after it, comes next. -/
  | partner (chars : List Char) (high : Nat) (backslash : Bool)

structure Lexer where
  reading : Reading := .gap
  /-- The tokens read so far, the latest first. -/
  tokens : List Token := []

def ofWord? (letters : List Char) : Option Token :=
  if letters = ['n', 'u', 'l', 'l'] then some .null
  else if letters = ['t', 'r', 'u', 'e'] then some (.bool true)
  else if letters = ['f', 'a', 'l', 's', 'e'] then some (.bool false)
  else none

def ofMark? (c : Char) : Option Token :=
  if c = '[' then some .openList
  else if c = ']' then some .closeList
  else if c.toNat = 0x7b then some .openMap
  else if c.toNat = 0x7d then some .closeMap
  else if c = ',' then some .comma
  else if c = ':' then some .colon
  else none

def isGap (c : Char) : Bool :=
  c == ' ' || c == '\t' || c == '\n' || c == '\r'

/-- Characters that number literals are made of. -/
def isLiteralChar (c : Char) : Bool :=
  c.isDigit || c == '-' || c == '+' || c == '.' || c == 'e' || c == 'E'

/-- The characters that a letter stands for after a backslash. -/
def unescape? (c : Char) : Option Char :=
  if c = '"' then some '"'
  else if c = '\\' then some '\\'
  else if c = '/' then some '/'
  else if c = 'b' then some (Char.ofNat 0x08)
  else if c = 'f' then some (Char.ofNat 0x0c)
  else if c = 'n' then some (Char.ofNat 0x0a)
  else if c = 'r' then some (Char.ofNat 0x0d)
  else if c = 't' then some (Char.ofNat 0x09)
  else none

def hexValue? (c : Char) : Option Nat :=
  let code := c.toNat
  if 48 ≤ code ∧ code ≤ 57 then some (code - 48)
  else if 97 ≤ code ∧ code ≤ 102 then some (code - 87)
  else if 65 ≤ code ∧ code ≤ 70 then some (code - 55)
  else none

def isHighSurrogate (code : Nat) : Bool := 0xd800 ≤ code && code < 0xdc00

def isLowSurrogate (code : Nat) : Bool := 0xdc00 ≤ code && code < 0xe000

/-- The character beyond U+FFFF that a surrogate pair stands for. -/
def pairChar (high low : Nat) : Char :=
  Char.ofNat (0x10000 + (high - 0xd800) * 0x400 + (low - 0xdc00))

/-- A complete unit of four hexadecimal digits. -/
def endUnit (chars : List Char) (high : Option Nat) (code : Nat) : Option Reading :=
  match high with
  | some high =>
      if isLowSurrogate code then some (.text (pairChar high code :: chars)) else none
  | none =>
      if isHighSurrogate code then some (.partner chars code false)
      else if isLowSurrogate code then none
      else some (.text (Char.ofNat code :: chars))

/-- A character outside any token: a blank, a mark, or the first character of a token. -/
def start (tokens : List Token) (c : Char) : Option Lexer :=
  if isGap c then some ⟨.gap, tokens⟩
  else if c = '"' then some ⟨.text [], tokens⟩
  else match ofMark? c with
    | some mark => some ⟨.gap, mark :: tokens⟩
    | none =>
        if c = '-' ∨ c.isDigit then some ⟨.literal [c], tokens⟩
        else if c.isLower then some ⟨.word [c], tokens⟩
        else none

/-- The token that ends where another character than its own follows. -/
def close? : Reading → Option (List Token)
  | .gap => some []
  | .word letters => (ofWord? letters.reverse).map ([·])
  | .literal chars => (Number.ofLiteral? chars.reverse).map fun n => [.number n]
  | _ => none

def step (state : Lexer) (c : Char) : Option Lexer :=
  match state.reading with
  | .gap => start state.tokens c
  | .word letters =>
      if c.isLower then some { state with reading := .word (c :: letters) }
      else (close? (.word letters)).bind fun token => start (token ++ state.tokens) c
  | .literal chars =>
      if isLiteralChar c then some { state with reading := .literal (c :: chars) }
      else (close? (.literal chars)).bind fun token => start (token ++ state.tokens) c
  | .text chars =>
      if c = '"' then some ⟨.gap, .text (String.ofList chars.reverse) :: state.tokens⟩
      else if c = '\\' then some { state with reading := .escape chars }
      else if c.toNat < 0x20 then none
      else some { state with reading := .text (c :: chars) }
  | .escape chars =>
      if c = 'u' then some { state with reading := .unit chars none 0 0 }
      else (unescape? c).map fun plain => { state with reading := .text (plain :: chars) }
  | .unit chars high digits value =>
      (hexValue? c).bind fun digit =>
        let value := 16 * value + digit
        if digits < 3 then some { state with reading := .unit chars high (digits + 1) value }
        else (endUnit chars high value).map fun reading => { state with reading }
  | .partner chars high backslash =>
      if backslash then
        if c = 'u' then some { state with reading := .unit chars (some high) 0 0 } else none
      else if c = '\\' then some { state with reading := .partner chars high true }
      else none

def finish? (state : Lexer) : Option (List Token) :=
  (close? state.reading).map fun token => (token ++ state.tokens).reverse

def ofText? (text : List Char) : Option (List Token) :=
  (text.foldlM step {}).bind finish?

end Token

end DataAccess.Json
