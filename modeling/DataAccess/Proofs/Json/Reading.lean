import DataAccess.Json.Reader
import DataAccess.Proofs.Json.Token
import DataAccess.Proofs.Number.Reading
import DataAccess.Proofs.Value

namespace DataAccess

namespace Value

mutual

/-- What the text of a value is read as. -/
def reread : Value → Value
  | .number n => .number n.reread
  | .sequence items => .sequence (rereadItems items)
  | .map fields => .map (Dict.ofList (rereadFields fields))
  | scalar => scalar

def rereadItems : List Value → List Value
  | [] => []
  | item :: rest => reread item :: rereadItems rest

def rereadFields : List (String × Value) → List (String × Value)
  | [] => []
  | (key, value) :: rest => (key, reread value) :: rereadFields rest

end

mutual

/-- No number in the value is a float. -/
def Integral : Value → Prop
  | .number (.float _) => False
  | .sequence items => IntegralItems items
  | .map fields => IntegralFields fields
  | _ => True

def IntegralItems : List Value → Prop
  | [] => True
  | item :: items => Integral item ∧ IntegralItems items

def IntegralFields : List (String × Value) → Prop
  | [] => True
  | (_, value) :: fields => Integral value ∧ IntegralFields fields

end

theorem rereadItems_eq_self {items : List Value} (each : ∀ item ∈ items, item.reread = item) :
    rereadItems items = items := by
  induction items with
  | nil => rfl
  | cons item rest ih =>
      rw [rereadItems, each item List.mem_cons_self,
        ih fun other later => each other (List.mem_cons_of_mem _ later)]

theorem rereadFields_eq_self {fields : Record} (each : ∀ entry ∈ fields, entry.2.reread = entry.2) :
    rereadFields fields = fields := by
  induction fields with
  | nil => rfl
  | cons entry rest ih =>
      obtain ⟨key, value⟩ := entry
      rw [rereadFields, each (key, value) List.mem_cons_self,
        ih fun other later => each other (List.mem_cons_of_mem _ later)]

theorem integralItems_iff {items : List Value} :
    IntegralItems items ↔ ∀ item ∈ items, item.Integral := by
  induction items with
  | nil => simp [IntegralItems]
  | cons item rest ih => simp [IntegralItems, ih]

theorem integralFields_iff {fields : Record} :
    IntegralFields fields ↔ ∀ entry ∈ fields, entry.2.Integral := by
  induction fields with
  | nil => simp [IntegralFields]
  | cons entry rest ih =>
      obtain ⟨key, value⟩ := entry
      simp [IntegralFields, ih]

/-- Values without floats are read back as they are. -/
theorem reread_eq_self {value : Value} (well : value.WellFormed) (integral : value.Integral) :
    value.reread = value := by
  induction value using nested_induction with
  | null | bool | string => simp only [reread]
  | number n =>
      cases n with
      | int n => rw [reread, Number.reread_int]
      | float x => exact integral.elim
  | sequence items ih =>
      have each := wellFormed_sequence.mp well
      have integers := integralItems_iff.mp integral
      rw [reread, rereadItems_eq_self fun item member =>
        ih item member (each item member) (integers item member)]
  | map fields ih =>
      obtain ⟨distinct, each⟩ := wellFormed_map.mp well
      have integers := integralFields_iff.mp integral
      rw [reread, rereadFields_eq_self fun entry member =>
        ih entry member (each entry member) (integers entry member),
        Dict.ofList_eq_self distinct]

end Value

namespace Json

open Token

mutual

/-- The tokens that a value is printed as. -/
def tokens : Value → List Token
  | .null => [.null]
  | .bool b => [.bool b]
  | .number n => [.number n.reread]
  | .string s => [.text s]
  | .sequence items => .openList :: itemTokens items
  | .map fields => .openMap :: fieldTokens fields

def itemTokens : List Value → List Token
  | [] => [.closeList]
  | item :: rest => tokens item ++ moreItemTokens rest

def moreItemTokens : List Value → List Token
  | [] => [.closeList]
  | item :: rest => .comma :: (tokens item ++ moreItemTokens rest)

def fieldTokens : List (String × Value) → List Token
  | [] => [.closeMap]
  | (key, value) :: rest => .text key :: .colon :: (tokens value ++ moreFieldTokens rest)

def moreFieldTokens : List (String × Value) → List Token
  | [] => [.closeMap]
  | (key, value) :: rest => .comma :: .text key :: .colon :: (tokens value ++ moreFieldTokens rest)

end

variable {text other : List Char} {read more : List Token} {c : Char} {mark : Token}

/-- A text that is read as these tokens, to its last character. -/
def Settles (text : List Char) (read : List Token) : Prop :=
  ∀ before, text.foldlM step ⟨.gap, before⟩ = some ⟨.gap, read.reverse ++ before⟩

/-- A text that is read as these tokens where it ends or a mark follows. -/
def Lexes (text : List Char) (read : List Token) : Prop :=
  ∀ before, ∃ state, text.foldlM step ⟨.gap, before⟩ = some state ∧
    (close? state.reading).map (· ++ state.tokens) = some (read.reverse ++ before) ∧
    ∀ c mark, ofMark? c = some mark → step state c = some ⟨.gap, mark :: (read.reverse ++ before)⟩

/-- A text that begins with a mark and is read as these tokens. -/
def Punctuated (text : List Char) (read : List Token) : Prop :=
  ∃ c mark rest more, text = c :: rest ∧ read = mark :: more ∧ ofMark? c = some mark ∧
    Settles rest more

theorem mark_cases (marks : ofMark? c = some mark) :
    c ∈ ['[', ']', Char.ofNat 0x7b, Char.ofNat 0x7d, ',', ':'] := by
  unfold ofMark? at marks
  split_ifs at marks with list endList map endMap comma colon
  · simp [list]
  · simp [endList]
  · simp [← ofNat_of_toNat map]
  · simp [← ofNat_of_toNat endMap]
  · simp [comma]
  · simp [colon]

/-- A mark is neither a blank nor a quote, nor does a word or a number go on with it. -/
theorem mark_apart (marks : ofMark? c = some mark) :
    isGap c = false ∧ c ≠ '"' ∧ c.isLower = false ∧ isLiteralChar c = false := by
  have cases := mark_cases marks
  simp only [List.mem_cons, List.not_mem_nil, or_false] at cases
  rcases cases with rfl | rfl | rfl | rfl | rfl | rfl
  all_goals exact ⟨rfl, by decide, rfl, rfl⟩

theorem start_mark (marks : ofMark? c = some mark) (before : List Token) :
    start before c = some ⟨.gap, mark :: before⟩ := by
  obtain ⟨notGap, notQuote, _⟩ := mark_apart marks
  simp only [start, notGap, notQuote, marks, Bool.false_eq_true, ↓reduceIte]

theorem settles_nil : Settles [] [] := fun _ => rfl

theorem settles_append (first : Settles text read) (second : Settles other more) :
    Settles (text ++ other) (read ++ more) := by
  intro before
  rw [List.foldlM_append, first before, List.reverse_append, List.append_assoc]
  exact second _

theorem settles_mark (marks : ofMark? c = some mark) (rest : Settles text read) :
    Settles (c :: text) (mark :: read) := by
  intro before
  rw [List.foldlM_cons, List.reverse_cons, List.append_assoc]
  exact (congrArg (· >>= _) (start_mark marks before)).trans (rest _)

theorem settles_quote (s : String) : Settles (quote s) [.text s] := fun _ => foldlM_quote s

theorem lexes_of_settles (settles : Settles text read) : Lexes text read := fun before =>
  ⟨_, settles before, rfl, fun _ _ marks => start_mark marks _⟩

theorem settles_lexes_append (lexes : Lexes text read) (punctuated : Punctuated other more) :
    Settles (text ++ other) (read ++ more) := by
  obtain ⟨c, mark, rest, others, rfl, rfl, marks, settles⟩ := punctuated
  intro before
  obtain ⟨state, reads, _, next⟩ := lexes before
  rw [List.foldlM_append, reads, List.reverse_append, List.reverse_cons]
  refine (congrArg (· >>= _) (next c mark marks)).trans ?_
  simpa using settles (mark :: (read.reverse ++ before))

/-- What is still being read ends where a mark follows. -/
theorem lexes_of_close {reading : Reading} {token : Token}
    (reads : ∀ before, text.foldlM step ⟨.gap, before⟩ = some ⟨reading, before⟩)
    (closes : close? reading = some [token])
    (ends : ∀ c mark before, ofMark? c = some mark →
      step ⟨reading, before⟩ c = (close? reading).bind fun token => start (token ++ before) c) :
    Lexes text [token] := by
  intro before
  refine ⟨_, reads before, by rw [closes]; rfl, fun c mark marks => ?_⟩
  rw [ends c mark before marks, closes]
  exact start_mark marks (token :: before)

theorem lexes_word {letters : List Char} {token : Token}
    (reads : ∀ before, letters.foldlM step ⟨.gap, before⟩ = some ⟨.word letters.reverse, before⟩)
    (word : ofWord? letters = some token) : Lexes letters [token] := by
  refine lexes_of_close reads ?_ fun c mark before marks => ?_
  · rw [close?, List.reverse_reverse, word]
    rfl
  · simp only [step, (mark_apart marks).2.2.1, Bool.false_eq_true, ↓reduceIte]

theorem foldlM_literal {chars : List Char} (each : ∀ c ∈ text, isLiteralChar c = true)
    (before : List Token) :
    text.foldlM step ⟨.literal chars, before⟩ = some ⟨.literal (text.reverse ++ chars), before⟩ := by
  induction text generalizing chars with
  | nil => rfl
  | cons c rest ih =>
      have first : step ⟨.literal chars, before⟩ c = some ⟨.literal (c :: chars), before⟩ := by
        simp only [step, each c List.mem_cons_self, ↓reduceIte]
      rw [List.foldlM_cons, first]
      refine (ih fun other later => each other (List.mem_cons_of_mem _ later)).trans ?_
      simp

theorem start_literal (begins : c = '-' ∨ Decimal.isDigit c = true) (before : List Token) :
    start before c = some ⟨.literal [c], before⟩ := by
  have literal : isLiteralChar c = true := by
    rcases begins with rfl | digit
    · rfl
    · simp [isLiteralChar, show c.isDigit = true from digit]
  have notGap : isGap c = false := by
    refine Bool.eq_false_iff.mpr fun gap => ?_
    have blank : c = ' ' ∨ c = '\t' ∨ c = '\n' ∨ c = '\r' := by simpa [isGap, or_assoc] using gap
    rcases blank with rfl | rfl | rfl | rfl <;> cases literal
  have notQuote : c ≠ '"' := by
    rintro rfl
    cases literal
  have notMark : ofMark? c = none := by
    refine Option.eq_none_iff_forall_ne_some.mpr fun mark marks => ?_
    rw [(mark_apart marks).2.2.2] at literal
    cases literal
  simp only [start, notGap, notQuote, notMark, Bool.false_eq_true, ↓reduceIte]
  exact if_pos begins

theorem lexes_number (n : Number) : Lexes n.text [.number n.reread] := by
  obtain ⟨numeral, regular, written, _⟩ := n.exists_numeral
  obtain ⟨first, rest, text, begins⟩ := numeral.written_begins regular
  have each : ∀ c ∈ rest, isLiteralChar c = true := by
    intro c member
    have inText : c ∈ numeral.written := text ▸ List.mem_cons_of_mem _ member
    rcases numeral.mem_written regular inText with digit | rfl | rfl | rfl | rfl
    · simp [isLiteralChar, show c.isDigit = true from digit]
    all_goals rfl
  refine @lexes_of_close _ (.literal n.text.reverse) _ (fun before => ?_) ?_
    fun c mark before marks => ?_
  · have begun : step ⟨.gap, before⟩ first = some ⟨.literal [first], before⟩ :=
      start_literal begins before
    rw [← written, text, List.foldlM_cons, begun, List.reverse_cons]
    exact foldlM_literal each before
  · rw [close?, List.reverse_reverse, n.ofLiteral?_text]
    rfl
  · simp only [step, (mark_apart marks).2.2.2, Bool.false_eq_true, ↓reduceIte]

theorem punctuated_moreItems {items : List Value}
    (each : ∀ item ∈ items, Lexes (write item) (tokens item)) :
    Punctuated (writeMoreItems items) (moreItemTokens items) := by
  induction items with
  | nil => exact ⟨']', .closeList, [], [], rfl, rfl, by decide, settles_nil⟩
  | cons item rest ih =>
      have later := ih fun other member => each other (List.mem_cons_of_mem _ member)
      exact ⟨',', .comma, _, _, rfl, rfl, by decide,
        settles_lexes_append (each item List.mem_cons_self) later⟩

theorem settles_items {items : List Value}
    (each : ∀ item ∈ items, Lexes (write item) (tokens item)) :
    Settles (writeItems items) (itemTokens items) := by
  cases items with
  | nil => exact settles_mark (by decide) settles_nil
  | cons item rest =>
      exact settles_lexes_append (each item List.mem_cons_self)
        (punctuated_moreItems fun other member => each other (List.mem_cons_of_mem _ member))

theorem settles_field {value : Value} (key : String) (lexes : Lexes (write value) (tokens value))
    (rest : Punctuated other more) :
    Settles (quote key ++ ':' :: (write value ++ other))
      (.text key :: .colon :: (tokens value ++ more)) :=
  settles_append (settles_quote key) (settles_mark (by decide) (settles_lexes_append lexes rest))

theorem punctuated_moreFields {fields : Record}
    (each : ∀ entry ∈ fields, Lexes (write entry.2) (tokens entry.2)) :
    Punctuated (writeMoreFields fields) (moreFieldTokens fields) := by
  induction fields with
  | nil => exact ⟨_, .closeMap, [], [], rfl, rfl, by decide, settles_nil⟩
  | cons entry rest ih =>
      have later := ih fun other member => each other (List.mem_cons_of_mem _ member)
      exact ⟨',', .comma, _, _, rfl, rfl, by decide,
        settles_field entry.1 (each entry List.mem_cons_self) later⟩

theorem settles_fields {fields : Record}
    (each : ∀ entry ∈ fields, Lexes (write entry.2) (tokens entry.2)) :
    Settles (writeFields fields) (fieldTokens fields) := by
  cases fields with
  | nil => exact settles_mark (by decide) settles_nil
  | cons entry rest =>
      exact settles_field entry.1 (each entry List.mem_cons_self)
        (punctuated_moreFields fun other member => each other (List.mem_cons_of_mem _ member))

/-- A printed value is split into its tokens. -/
theorem lexes_write (value : Value) : Lexes (write value) (tokens value) := by
  induction value using Value.nested_induction with
  | null => exact lexes_word (fun _ => rfl) rfl
  | bool b => cases b <;> exact lexes_word (fun _ => rfl) rfl
  | number n =>
      rw [write, tokens]
      exact lexes_number n
  | string s =>
      rw [write, tokens]
      exact lexes_of_settles (settles_quote s)
  | sequence items ih =>
      rw [write, tokens]
      exact lexes_of_settles (settles_mark (by decide) (settles_items ih))
  | map fields ih =>
      rw [write, tokens]
      exact lexes_of_settles (settles_mark (by decide) (settles_fields ih))

theorem ofText?_write (value : Value) : ofText? (write value) = some (tokens value) := by
  obtain ⟨state, reads, closes, _⟩ := lexes_write value []
  obtain ⟨last, closed, all⟩ := Option.map_eq_some_iff.mp closes
  have started : (write value).foldlM step {} = some state := reads
  rw [ofText?, started, Option.bind_some, finish?, closed, Option.map_some, all, List.append_nil,
    List.reverse_reverse]

variable {limit : Nat} {stack : List Frame}

/-- Where a value is expected its tokens are read, as deep as the limit allows. -/
def Reads (limit : Nat) (value : Value) : Prop :=
  ∀ stack : List Frame, stack.length ≤ limit →
    (tokens value).foldlM (Reader.step limit) ⟨.value, stack⟩ =
      if value.depth + stack.length ≤ limit then some ⟨.next value.reread, stack⟩ else none

/-- A value is read first and something behind it next, in the container that is open. -/
theorem reads_append {value : Value} (reads : Reads limit value) (frame : Frame)
    (inside : stack.length < limit) {deeper : Nat} {result : Reader}
    (next : (more.foldlM (Reader.step limit) ⟨.next value.reread, frame :: stack⟩) =
      if deeper + 1 + stack.length ≤ limit then some result else none) :
    (tokens value ++ more).foldlM (Reader.step limit) ⟨.value, frame :: stack⟩ =
      if max value.depth deeper + 1 + stack.length ≤ limit then some result else none := by
  have first := reads (frame :: stack) inside
  rw [List.foldlM_append, first, List.length_cons]
  by_cases fits : value.depth + (stack.length + 1) ≤ limit
  · rw [if_pos fits]
    refine next.trans ?_
    congr 1
    simp only [eq_iff_iff]
    omega
  · rw [if_neg fits, if_neg (by omega)]
    rfl

theorem reads_moreItems {items : List Value} (each : ∀ item ∈ items, Reads limit item)
    (inside : stack.length < limit) (read : List Value) (value : Value) :
    (moreItemTokens items).foldlM (Reader.step limit) ⟨.next value, .items read :: stack⟩ =
      if Value.depthItems items + 1 + stack.length ≤ limit then
        some ⟨.next (.sequence ((value :: read).reverse ++ Value.rereadItems items)), stack⟩
      else none := by
  induction items generalizing read value with
  | nil =>
      rw [Value.depthItems, if_pos (by omega), Value.rereadItems, List.append_nil]
      rfl
  | cons item rest ih =>
      have later := ih (fun other member => each other (List.mem_cons_of_mem _ member))
        (value :: read) item.reread
      refine (reads_append (each item List.mem_cons_self) (.items (value :: read)) inside later).trans ?_
      rw [Value.depthItems, Value.rereadItems, List.reverse_cons, List.append_assoc]
      rfl

/-- The first item of a list is read as in a list that is open. -/
theorem foldlM_firstItem (value : Value) :
    (tokens value ++ more).foldlM (Reader.step limit) ⟨.firstItem, stack⟩ =
      (tokens value ++ more).foldlM (Reader.step limit) ⟨.value, .items [] :: stack⟩ := by
  cases value <;> rw [tokens] <;> rfl

theorem reads_sequence {items : List Value} (each : ∀ item ∈ items, Reads limit item) :
    Reads limit (.sequence items) := by
  intro stack bounded
  rw [tokens, List.foldlM_cons, Value.depth, Value.reread]
  by_cases inside : stack.length < limit
  · have opened : Reader.step limit ⟨.value, stack⟩ .openList = some ⟨.firstItem, stack⟩ :=
      if_pos inside
    rw [opened]
    cases items with
    | nil =>
        rw [Value.depthItems, if_pos (by omega)]
        rfl
    | cons item rest =>
        have later := reads_moreItems
          (fun other member => each other (List.mem_cons_of_mem _ member)) inside [] item.reread
        refine (foldlM_firstItem item).trans ?_
        refine (reads_append (each item List.mem_cons_self) (.items []) inside later).trans ?_
        rfl
  · have refused : Reader.step limit ⟨.value, stack⟩ .openList = none := if_neg inside
    rw [refused, if_neg (by omega)]
    rfl

theorem reads_moreFields {fields : Record} (each : ∀ entry ∈ fields, Reads limit entry.2)
    (inside : stack.length < limit) (read : Record) (key : String) (value : Value) :
    (moreFieldTokens fields).foldlM (Reader.step limit) ⟨.next value, .fields read key :: stack⟩ =
      if Value.depthFields fields + 1 + stack.length ≤ limit then
        some ⟨.next (.map ((Value.rereadFields fields).foldl
          (fun read entry => Dict.insert read entry.1 entry.2) (Dict.insert read key value))), stack⟩
      else none := by
  induction fields generalizing read key value with
  | nil =>
      rw [Value.depthFields, if_pos (by omega)]
      rfl
  | cons entry rest ih =>
      have later := ih (fun other member => each other (List.mem_cons_of_mem _ member))
        (Dict.insert read key value) entry.1 entry.2.reread
      exact reads_append (each entry List.mem_cons_self) (.fields (Dict.insert read key value) entry.1)
        inside later

theorem reads_map {fields : Record} (each : ∀ entry ∈ fields, Reads limit entry.2) :
    Reads limit (.map fields) := by
  intro stack bounded
  rw [tokens, List.foldlM_cons, Value.depth, Value.reread]
  by_cases inside : stack.length < limit
  · have opened : Reader.step limit ⟨.value, stack⟩ .openMap = some ⟨.firstKey, stack⟩ :=
      if_pos inside
    rw [opened]
    cases fields with
    | nil =>
        rw [Value.depthFields, if_pos (by omega)]
        rfl
    | cons entry rest =>
        have later := reads_moreFields
          (fun other member => each other (List.mem_cons_of_mem _ member)) inside [] entry.1
          entry.2.reread
        exact reads_append (each entry List.mem_cons_self) (.fields [] entry.1) inside later
  · have refused : Reader.step limit ⟨.value, stack⟩ .openMap = none := if_neg inside
    rw [refused, if_neg (by omega)]
    rfl

theorem reads_tokens (limit : Nat) (value : Value) : Reads limit value := by
  induction value using Value.nested_induction with
  | null | bool | number | string =>
      intro stack bounded
      rw [if_pos (by simpa [Value.depth] using bounded)]
      rfl
  | sequence items ih => exact reads_sequence ih
  | map fields ih => exact reads_map ih

/-- A printed value is read back within the limit of nesting, and not beyond it. -/
theorem readWithin?_write (limit : Nat) (value : Value) :
    readWithin? limit (write value) = if value.depth ≤ limit then some value.reread else none := by
  have reads : (tokens value).foldlM (Reader.step limit) {} =
      if value.depth ≤ limit then some ⟨.next value.reread, []⟩ else none :=
    reads_tokens limit value [] (Nat.zero_le limit)
  rw [readWithin?, ofText?_write, Option.bind_some, Reader.ofTokens?, reads]
  by_cases fits : value.depth ≤ limit
  · rw [if_pos fits, if_pos fits]
    rfl
  · rw [if_neg fits, if_neg fits]
    rfl

end Json

theorem Value.ofJson?_toJson (value : Value) :
    ofJson? value.toJson = if value.depth ≤ Json.nestingLimit then some value.reread else none := by
  rw [ofJson?, toJson, String.toList_ofList]
  exact Json.readWithin?_write Json.nestingLimit value

end DataAccess
