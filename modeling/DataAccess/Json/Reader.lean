import DataAccess.Json.Token

/-!
# Reading JSON text

Tokens are put together by a machine that keeps the containers still open on a stack. At most
`limit` containers may be open at once. Of the entries of a map with one key the last one counts, in
the place of the first.
-/

namespace DataAccess.Json

/-- A container still open: the items of a list in reverse, or the entries of a map together with
the key whose value is being read. -/
inductive Frame
  | items (read : List Value)
  | fields (read : Record) (key : String)

/-- What may come next. -/
inductive Expecting
  /-- A value. -/
  | value
  /-- The first item of the list just opened, or its end. -/
  | firstItem
  /-- The first key of the map just opened, or its end. -/
  | firstKey
  /-- A key, of a map with the given entries. -/
  | key (read : Record)
  /-- The colon after a key. -/
  | colon (read : Record) (key : String)
  /-- What follows a complete value. -/
  | next (value : Value)

structure Reader where
  expecting : Expecting := .value
  /-- The open containers, the innermost first. -/
  stack : List Frame := []

namespace Reader

/-- The value a single token stands for. -/
def scalar? : Token → Option Value
  | .null => some .null
  | .bool b => some (.bool b)
  | .number n => some (.number n)
  | .text s => some (.string s)
  | _ => none

/-- A token where a value begins. -/
def begin? (limit : Nat) (stack : List Frame) (token : Token) : Option Reader :=
  match token with
  | .openList => if stack.length < limit then some ⟨.firstItem, stack⟩ else none
  | .openMap => if stack.length < limit then some ⟨.firstKey, stack⟩ else none
  | token => (scalar? token).map fun value => ⟨.next value, stack⟩

def step (limit : Nat) (state : Reader) (token : Token) : Option Reader :=
  match state.expecting, token with
  | .value, token => begin? limit state.stack token
  | .firstItem, .closeList => some ⟨.next (.sequence []), state.stack⟩
  | .firstItem, token => begin? limit (.items [] :: state.stack) token
  | .firstKey, .closeMap => some ⟨.next (.map []), state.stack⟩
  | .firstKey, .text key => some ⟨.colon [] key, state.stack⟩
  | .firstKey, _ => none
  | .key read, .text key => some ⟨.colon read key, state.stack⟩
  | .key _, _ => none
  | .colon read key, .colon => some ⟨.value, .fields read key :: state.stack⟩
  | .colon _ _, _ => none
  | .next value, token =>
      match state.stack, token with
      | .items read :: outer, .comma => some ⟨.value, .items (value :: read) :: outer⟩
      | .items read :: outer, .closeList =>
          some ⟨.next (.sequence (value :: read).reverse), outer⟩
      | .fields read key :: outer, .comma => some ⟨.key (Dict.insert read key value), outer⟩
      | .fields read key :: outer, .closeMap =>
          some ⟨.next (.map (Dict.insert read key value)), outer⟩
      | _, _ => none

def finish? (state : Reader) : Option Value :=
  match state.expecting, state.stack with
  | .next value, [] => some value
  | _, _ => none

/-- The one value that a list of tokens makes. -/
def ofTokens? (limit : Nat) (tokens : List Token) : Option Value :=
  (tokens.foldlM (step limit) {}).bind finish?

end Reader

/-- How deep the containers of a text may be nested. -/
def nestingLimit : Nat := 127

/-- Reads a text that nests at most `limit` containers. -/
def readWithin? (limit : Nat) (text : List Char) : Option Value :=
  (Token.ofText? text).bind (Reader.ofTokens? limit)

end DataAccess.Json

namespace DataAccess

/-- Reads JSON text of at most `Json.nestingLimit` nested containers. -/
def Value.ofJson? (text : String) : Option Value :=
  Json.readWithin? Json.nestingLimit text.toList

/-- Reads JSON text from bytes, which must be UTF-8. -/
def Value.ofJsonBytes? (bytes : ByteArray) : Option Value :=
  (String.fromUTF8? bytes).bind Value.ofJson?

end DataAccess
