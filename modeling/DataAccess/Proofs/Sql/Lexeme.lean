import DataAccess.Sql.Statement

/-!
# Reading statements back

The text of a statement is read with names and marks of parameters as units: inside a quoted name
nothing is a mark, and a mark goes on as long as digits follow. A statement is spaced if the pieces
between its names and values keep them apart; its text is then read back as its pieces.
-/

namespace DataAccess.Sql

inductive Lexeme
  | char (c : Char)
  | name (name : String)
  | mark (mark : List Char)
deriving DecidableEq

namespace Flavor

/-- A name up to its closing quote, and what follows. A closing quote written twice is one of the
name. -/
def unquote? (quote : Char) : List Char → Option (List Char × List Char)
  | [] => none
  | [c] => if c = quote then some ([], []) else none
  | c :: next :: rest =>
      if c ≠ quote then (unquote? quote (next :: rest)).map fun (name, after) => (c :: name, after)
      else if next = quote then (unquote? quote rest).map fun (name, after) => (c :: name, after)
      else some ([], next :: rest)

/-- How the mark of a parameter begins. -/
def sign : Flavor → List Char
  | .sqlite | .mySql => ['?']
  | .postgreSql => ['$']
  | .msSql => ['@', 'p']
  | .oracle => [':']

/-- The mark of a parameter in front of a text, with all digits of its number, and what follows. -/
def mark? (flavor : Flavor) (text : List Char) : Option (List Char × List Char) :=
  let rest := text.drop flavor.sign.length
  if flavor.sign.isPrefixOf text then
    some (flavor.sign ++ rest.takeWhile Decimal.isDigit, rest.dropWhile Decimal.isDigit)
  else none

def firstLexeme (flavor : Flavor) (c : Char) (rest : List Char) : Lexeme × List Char :=
  match (if c = flavor.openQuote then unquote? flavor.closeQuote rest else none) with
  | some (name, after) => (.name (String.ofList name), after)
  | none =>
      match flavor.mark? (c :: rest) with
      | some (mark, after) => (.mark mark, after)
      | none => (.char c, rest)

variable {flavor : Flavor} {quote : Char} {text name after : List Char}

theorem unquote?_shorter (read : unquote? quote text = some (name, after)) :
    after.length < text.length := by
  induction text using unquote?.induct quote generalizing name with
  | case1 => simp [unquote?] at read
  | case2 => simp_all [unquote?]
  | case3 c different => simp [unquote?, different] at read
  | case4 c next rest different ih =>
      simp only [unquote?, different, ne_eq, not_false_eq_true, ↓reduceIte] at read
      obtain ⟨⟨inner, behind⟩, found, same⟩ := Option.map_eq_some_iff.mp read
      cases same
      have shorter : behind.length < (next :: rest).length := ih found
      exact Nat.lt_succ_of_lt shorter
  | case5 c rest isQuote ih =>
      simp only [unquote?, isQuote, ↓reduceIte] at read
      obtain ⟨⟨inner, behind⟩, found, same⟩ := Option.map_eq_some_iff.mp read
      cases same
      have shorter : behind.length < rest.length := ih found
      exact Nat.lt_succ_of_lt (Nat.lt_succ_of_lt shorter)
  | case6 c next rest isQuote different =>
      simp only [unquote?, isQuote, different, ↓reduceIte] at read
      cases read
      simp

theorem sign_ne_nil (flavor : Flavor) : flavor.sign ≠ [] := by
  cases flavor <;> decide

theorem mark?_shorter {mark : List Char} (read : flavor.mark? text = some (mark, after)) :
    after.length < text.length := by
  simp only [mark?] at read
  split at read
  · cases read
    rename_i begins
    have signed := (List.isPrefixOf_iff_prefix.mp begins).length_le
    have positive := List.length_pos_iff.mpr (sign_ne_nil flavor)
    have kept := (List.dropWhile_sublist Decimal.isDigit (l := text.drop flavor.sign.length)).length_le
    rw [List.length_drop] at kept
    omega
  · cases read

theorem firstLexeme_shorter (flavor : Flavor) (c : Char) (rest : List Char) :
    (flavor.firstLexeme c rest).2.length < (c :: rest).length := by
  unfold firstLexeme
  split
  · rename_i read
    split at read
    · exact Nat.lt_succ_of_lt (unquote?_shorter read)
    · cases read
  · split
    · rename_i read
      exact mark?_shorter read
    · simp

/-- The lexemes of a text. -/
def lexemes (flavor : Flavor) : List Char → List Lexeme
  | [] => []
  | c :: rest =>
      (flavor.firstLexeme c rest).1 :: lexemes flavor (flavor.firstLexeme c rest).2
termination_by text => text.length
decreasing_by exact firstLexeme_shorter flavor c rest

theorem unquote?_cons_of_ne {c : Char} (different : c ≠ quote) (rest : List Char) :
    unquote? quote (c :: rest) =
      (unquote? quote rest).map fun (name, after) => (c :: name, after) := by
  cases rest <;> simp [unquote?, different]

theorem unquote?_doubled (name : List Char) (ends : after.head? ≠ some quote) :
    unquote? quote (doubled quote name ++ quote :: after) = some (name, after) := by
  induction name with
  | nil =>
      cases after with
      | nil => simp [doubled, unquote?]
      | cons next rest =>
          have different : next ≠ quote := fun same => ends (congrArg some same)
          simp [doubled, unquote?, different]
  | cons c rest ih =>
      by_cases isQuote : c = quote
      · simp [doubled, isQuote, unquote?, ih]
      · simp [doubled, isQuote, unquote?_cons_of_ne isQuote, ih]

theorem eq_doubled_of_unquote? (read : unquote? quote text = some (name, after)) :
    text = doubled quote name ++ quote :: after ∧ after.head? ≠ some quote := by
  induction text using unquote?.induct quote generalizing name with
  | case1 => simp [unquote?] at read
  | case2 =>
      simp only [unquote?, ↓reduceIte, Option.some.injEq, Prod.mk.injEq] at read
      obtain ⟨rfl, rfl⟩ := read
      simp [doubled]
  | case3 c different => simp [unquote?, different] at read
  | case4 c next rest different ih =>
      simp only [unquote?, different, ne_eq, not_false_eq_true, ↓reduceIte] at read
      obtain ⟨⟨inner, behind⟩, found, same⟩ := Option.map_eq_some_iff.mp read
      cases same
      obtain ⟨whole, ends⟩ := ih found
      exact ⟨by rw [doubled, if_neg different, List.cons_append, ← whole], ends⟩
  | case5 c rest isQuote ih =>
      obtain rfl := Decidable.not_not.mp isQuote
      simp only [unquote?, isQuote, ↓reduceIte] at read
      obtain ⟨⟨inner, behind⟩, found, same⟩ := Option.map_eq_some_iff.mp read
      cases same
      obtain ⟨whole, ends⟩ := ih found
      exact ⟨by simp only [doubled, ↓reduceIte, List.cons_append, ← whole], ends⟩
  | case6 c next rest isQuote different =>
      obtain rfl := Decidable.not_not.mp isQuote
      simp only [unquote?, isQuote, different, ↓reduceIte, Option.some.injEq,
        Prod.mk.injEq] at read
      obtain ⟨rfl, rfl⟩ := read
      simp [doubled, different]

/-- The quoted name in front of a text, and what follows. -/
def delimited? (flavor : Flavor) : List Char → Option (List Char × List Char)
  | [] => none
  | c :: rest => if c = flavor.openQuote then unquote? flavor.closeQuote rest else none

theorem quote_append (flavor : Flavor) (name after : List Char) : flavor.quote name ++ after =
    flavor.openQuote :: (doubled flavor.closeQuote name ++ flavor.closeQuote :: after) := by
  simp [Flavor.quote]

theorem delimited?_quote (name : List Char) (ends : after.head? ≠ some flavor.closeQuote) :
    flavor.delimited? (flavor.quote name ++ after) = some (name, after) := by
  rw [quote_append, delimited?, if_pos rfl, unquote?_doubled name ends]

theorem eq_quote_of_delimited? (read : flavor.delimited? text = some (name, after)) :
    text = flavor.quote name ++ after ∧ after.head? ≠ some flavor.closeQuote := by
  cases text with
  | nil => cases read
  | cons c rest =>
      rw [delimited?] at read
      split at read
      · rename_i opens
        obtain ⟨whole, ends⟩ := eq_doubled_of_unquote? read
        exact ⟨by rw [quote_append, opens, whole], ends⟩
      · cases read

/-- Whatever characters a name holds, its quoted form is read back as this name, and reading stops
where it ends; nothing else is read as the name. So different names have different quoted forms. -/
theorem quoted_name_is_read_back (flavor : Flavor) :
    (∀ text name after, flavor.delimited? text = some (name, after) ↔
      text = flavor.quote name ++ after ∧ after.head? ≠ some flavor.closeQuote) ∧
    Function.Injective flavor.quote := by
  have reads : ∀ name, flavor.delimited? (flavor.quote name) = some (name, []) := by
    intro name
    have ends : ([] : List Char).head? ≠ some flavor.closeQuote := by simp
    simpa using delimited?_quote name ends
  constructor
  · intro text name after
    constructor
    · exact eq_quote_of_delimited?
    · rintro ⟨rfl, ends⟩
      exact delimited?_quote name ends
  · intro name other same
    have read := reads name
    rw [same, reads other] at read
    cases read
    rfl

example : Flavor.msSql.delimited? "[]]; DROP TABLE [x]]] = 1".toList =
    some ("]; DROP TABLE [x]".toList, " = 1".toList) := by decide

theorem lexemes_cons {c : Char} {rest : List Char} {lexeme : Lexeme}
    (read : flavor.firstLexeme c rest = (lexeme, after)) :
    flavor.lexemes (c :: rest) = lexeme :: flavor.lexemes after := by
  rw [lexemes, read]

theorem lexemes_quote (name : List Char) (ends : after.head? ≠ some flavor.closeQuote) :
    flavor.lexemes (flavor.quote name ++ after) =
      .name (String.ofList name) :: flavor.lexemes after := by
  rw [quote_append]
  apply lexemes_cons
  simp only [firstLexeme, ↓reduceIte, unquote?_doubled name ends]

/-- The characters that open or close a quoted name, or begin a mark, in some dialect. -/
def reserved : List Char := ['"', Char.ofNat 0x60, '[', ']', '?', '$', '@', ':']

theorem openQuote_reserved (flavor : Flavor) : flavor.openQuote ∈ reserved := by
  cases flavor <;> decide

theorem closeQuote_reserved (flavor : Flavor) : flavor.closeQuote ∈ reserved := by
  cases flavor <;> decide

theorem lexemes_char {c : Char} (free : c ∉ reserved) (rest : List Char) :
    flavor.lexemes (c :: rest) = .char c :: flavor.lexemes rest := by
  apply lexemes_cons
  have unquoted : c ≠ flavor.openQuote := fun same => free (same ▸ openQuote_reserved flavor)
  have other (taken : Char) (member : taken ∈ reserved) : taken ≠ c := fun same =>
    free (same ▸ member)
  have unmarked : flavor.mark? (c :: rest) = none := by
    cases flavor with
    | sqlite | mySql => simp [mark?, sign, other '?' (by decide)]
    | postgreSql => simp [mark?, sign, other '$' (by decide)]
    | msSql => simp [mark?, sign, other '@' (by decide)]
    | oracle => simp [mark?, sign, other ':' (by decide)]
  simp only [firstLexeme, unquoted, ↓reduceIte, unmarked]

theorem lexemes_free {free : List Char} (allFree : ∀ c ∈ free, c ∉ reserved) (rest : List Char) :
    flavor.lexemes (free ++ rest) = free.map .char ++ flavor.lexemes rest := by
  induction free with
  | nil => rfl
  | cons c more ih =>
      rw [List.cons_append, lexemes_char (allFree c (by simp)),
        ih fun other member => allFree other (by simp [member])]
      rfl

/-- What a mark consists of behind its sign. -/
def markDigits (flavor : Flavor) (n : Nat) : List Char :=
  match flavor with
  | .sqlite | .mySql => []
  | .postgreSql | .msSql | .oracle => Decimal.ofNat n

theorem placeholder_eq (flavor : Flavor) (n : Nat) :
    flavor.placeholder n = flavor.sign ++ flavor.markDigits n := by
  cases flavor <;> rfl

theorem isDigit_of_mem_markDigits {n : Nat} {c : Char} (member : c ∈ flavor.markDigits n) :
    Decimal.isDigit c = true := by
  cases flavor with
  | sqlite | mySql => cases member
  | postgreSql | msSql | oracle => exact Decimal.isDigit_of_mem_ofNat member

theorem mark?_placeholder (n : Nat) (ends : ∀ c ∈ after.head?, Decimal.isDigit c = false) :
    flavor.mark? (flavor.placeholder n ++ after) = some (flavor.placeholder n, after) := by
  have begins : flavor.sign.isPrefixOf (flavor.placeholder n ++ after) = true := by
    rw [placeholder_eq, List.append_assoc]
    exact List.isPrefixOf_iff_prefix.mpr (List.prefix_append _ _)
  have behind : (flavor.placeholder n ++ after).drop flavor.sign.length =
      flavor.markDigits n ++ after := by
    rw [placeholder_eq, List.append_assoc, List.drop_left]
  have digits : ∀ c ∈ flavor.markDigits n, Decimal.isDigit c = true := fun _ member =>
    isDigit_of_mem_markDigits member
  have ended : after.takeWhile Decimal.isDigit = [] ∧ after.dropWhile Decimal.isDigit = after := by
    cases after with
    | nil => simp
    | cons c rest => simp [ends c (by simp)]
  simp only [mark?, begins, ↓reduceIte, behind, List.takeWhile_append_of_pos digits,
    List.dropWhile_append_of_pos digits, ended.1, ended.2, List.append_nil, ← placeholder_eq]

theorem lexemes_placeholder (n : Nat) (ends : ∀ c ∈ after.head?, Decimal.isDigit c = false) :
    flavor.lexemes (flavor.placeholder n ++ after) =
      .mark (flavor.placeholder n) :: flavor.lexemes after := by
  have read : flavor.mark? (flavor.placeholder n ++ after) = some (flavor.placeholder n, after) :=
    mark?_placeholder n ends
  cases written : flavor.placeholder n with
  | nil =>
      rw [placeholder_eq, List.append_eq_nil_iff] at written
      exact absurd written.1 (sign_ne_nil flavor)
  | cons c rest =>
      rw [written] at read
      have unquoted : c ≠ flavor.openQuote := by
        rintro rfl
        cases flavor <;> simp [placeholder, openQuote] at written
      rw [List.cons_append] at read ⊢
      apply lexemes_cons
      simp only [firstLexeme, unquoted, ↓reduceIte, read]

end Flavor

namespace Statement

variable {flavor : Flavor} {statement left right : Statement}

/-- The pieces of a statement as lexemes, its first parameter having the number `first`. -/
def lexemes (flavor : Flavor) (first : Nat) : Statement → List Lexeme
  | [] => []
  | .text text :: rest => text.toList.map .char ++ lexemes flavor first rest
  | .identifier name :: rest => .name name :: lexemes flavor first rest
  | .value _ :: rest => .mark (flavor.placeholder first) :: lexemes flavor (first + 1) rest

/-- A text without reserved characters. -/
def Free (text : String) : Prop := ∀ c ∈ text.toList, c ∉ Flavor.reserved

instance (text : String) : Decidable (Free text) :=
  decidable_of_iff (text.toList.all (fun c => !Flavor.reserved.contains c) = true) (by simp [Free])

/-- What may follow a name or a value: nothing, or a text that does not begin with a digit. -/
def Delimits : Statement → Prop
  | [] => True
  | .text text :: rest =>
      (text.toList = [] → Delimits rest) ∧ ∀ c ∈ text.toList.head?, Decimal.isDigit c = false
  | .identifier _ :: _ => False
  | .value _ :: _ => False

/-- Texts hold no reserved characters, and stand between any two names or values. -/
def Spaced : Statement → Prop
  | [] => True
  | .text text :: rest => Free text ∧ Spaced rest
  | .identifier _ :: rest => Delimits rest ∧ Spaced rest
  | .value _ :: rest => Delimits rest ∧ Spaced rest

/-- A text that keeps names and values apart. -/
structure Gap (text : String) : Prop where
  free : Free text
  nonempty : text.toList ≠ []
  undigited : ∀ c ∈ text.toList.head?, Decimal.isDigit c = false

instance (text : String) : Decidable (Gap text) :=
  decidable_of_iff (Free text ∧ text.toList ≠ [] ∧
      text.toList.head?.all (fun c => !Decimal.isDigit c) = true)
    ⟨fun ⟨free, nonempty, undigited⟩ =>
        { free, nonempty, undigited := by simpa [Option.all_eq_true] using undigited },
      fun gap => ⟨gap.free, gap.nonempty, by simpa [Option.all_eq_true] using gap.undigited⟩⟩

theorem free_append {text more : String} (free : Free text) (moreFree : Free more) :
    Free (text ++ more) := by
  intro c member
  rw [String.toList_append, List.mem_append] at member
  exact member.elim (free c) (moreFree c)

theorem free_number (n : Nat) : Free (toString n) := by
  intro c member taken
  have digits : (toString n).toList = Decimal.ofNat n := by simp [Decimal.ofNat]
  rw [digits] at member
  have digit := Decimal.isDigit_of_mem_ofNat member
  have none : Flavor.reserved.all (fun c => !Decimal.isDigit c) = true := by decide
  have undigited := List.all_eq_true.mp none c taken
  rw [digit] at undigited
  cases undigited

theorem gap_append {text more : String} (gap : Gap text) (free : Free more) : Gap (text ++ more) where
  free := free_append gap.free free
  nonempty := by simp [String.toList_append, gap.nonempty]
  undigited := by
    rw [String.toList_append, List.head?_append,
      Option.or_of_isSome (List.isSome_head?.mpr gap.nonempty)]
    exact gap.undigited

theorem delimits_of_gap {text : String} (gap : Gap text) (rest : Statement) :
    Delimits (.text text :: rest) :=
  ⟨fun empty => absurd empty gap.nonempty, gap.undigited⟩

theorem delimits_append (ofLeft : Delimits left) (ofRight : Delimits right) :
    Delimits (left ++ right) := by
  induction left with
  | nil => exact ofRight
  | cons piece rest ih =>
      cases piece with
      | text text => exact ⟨fun empty => ih (ofLeft.1 empty), ofLeft.2⟩
      | identifier | value => cases ofLeft

theorem spaced_text {text : String} (free : Free text) (spaced : Spaced statement) :
    Spaced (.text text :: statement) :=
  ⟨free, spaced⟩

theorem spaced_append (ofLeft : Spaced left) (ofRight : Spaced right) (delimits : Delimits right) :
    Spaced (left ++ right) := by
  induction left with
  | nil => exact ofRight
  | cons piece rest ih =>
      cases piece with
      | text text => exact ⟨ofLeft.1, ih ofLeft.2⟩
      | identifier | value => exact ⟨delimits_append ofLeft.1 delimits, ih ofLeft.2⟩

theorem spaced_separated {separator : String} {members : List Statement} (gap : Gap separator)
    (ofMembers : ∀ member ∈ members, Spaced member) : Spaced (separated separator members) := by
  induction members with
  | nil => trivial
  | cons member rest ih =>
      have ofMember := ofMembers member (by simp)
      have ofRest := ih fun other inRest => ofMembers other (by simp [inRest])
      cases rest with
      | nil => exact ofMember
      | cons next more => exact spaced_append ofMember (spaced_text gap.free ofRest) (delimits_of_gap gap _)

theorem head?_render (flavor : Flavor) (first : Nat) (spaced : Spaced statement)
    (delimits : Delimits statement) :
    ∀ c ∈ (render flavor first statement).head?,
      c ∉ Flavor.reserved ∧ Decimal.isDigit c = false := by
  induction statement with
  | nil => simp [render]
  | cons piece rest ih =>
      cases piece with
      | text text =>
          obtain ⟨free, spaced⟩ := spaced
          obtain ⟨passed, undigited⟩ := delimits
          intro c atHead
          cases letters : text.toList with
          | nil =>
              rw [render, letters] at atHead
              exact ih spaced (passed letters) c atHead
          | cons d more =>
              simp only [render, letters, List.cons_append, List.head?_cons,
                Option.mem_some] at atHead
              subst atHead
              exact ⟨free d (by simp [letters]), undigited d (by simp [letters])⟩
      | identifier | value => cases delimits

theorem lexemes_render (flavor : Flavor) (first : Nat) (spaced : Spaced statement) :
    flavor.lexemes (render flavor first statement) = lexemes flavor first statement := by
  -- What follows a name or a value begins with neither a quote nor a digit, so the reader stops
  -- where the piece ends.
  induction statement generalizing first with
  | nil => rw [render, Flavor.lexemes, lexemes]
  | cons piece rest ih =>
      cases piece with
      | text text => rw [render, lexemes, Flavor.lexemes_free spaced.1, ih first spaced.2]
      | identifier name =>
          have followed := head?_render flavor first spaced.2 spaced.1
          have ends : (render flavor first rest).head? ≠ some flavor.closeQuote := fun same =>
            (followed _ same).1 (Flavor.closeQuote_reserved flavor)
          rw [render, lexemes, Flavor.lexemes_quote _ ends, ih first spaced.2, String.ofList_toList]
      | value value =>
          have followed := head?_render flavor (first + 1) spaced.2 spaced.1
          rw [render, lexemes, Flavor.lexemes_placeholder _ fun c atHead => (followed c atHead).2,
            ih (first + 1) spaced.2]

end Statement

end DataAccess.Sql
