import DataAccess.Proofs.KeyValue.Placeholders

namespace DataAccess.KeyValue

open DataAccess.Symbol (letters letters_values separators inGroup inGroup_values)
open Placeholders (Delimits Spaced isPosition)

/-- Induction over conditions, with a hypothesis for every part of a group. -/
@[elab_as_elim]
theorem Condition.nested_induction {motive : Condition → Prop}
    (compare : ∀ name op operand, motive (.compare name op operand))
    (present : ∀ name, motive (.present name)) (absent : ∀ name, motive (.absent name))
    (allOf : ∀ parts, (∀ part ∈ parts, motive part) → motive (.allOf parts))
    (anyOf : ∀ parts, (∀ part ∈ parts, motive part) → motive (.anyOf parts))
    (condition : Condition) : motive condition := by
  refine @Condition.rec motive (fun parts => ∀ part ∈ parts, motive part)
    compare present absent allOf anyOf ?_ ?_ condition
  · simp
  · intro part rest ofPart ofRest
    simpa using ⟨ofPart, ofRest⟩

/-- The symbols of the parts of a path after the first. -/
def symbolsOfRest : List (List Char) → List Symbol
  | [] => []
  | part :: rest =>
      if isPosition part then
        .char '[' :: (part.map .char ++ .char ']' :: symbolsOfRest rest)
      else
        .char '.' :: .name (String.ofList part) :: symbolsOfRest rest

def symbolsOfPath (attr : String) : List Symbol :=
  match attr.toList.splitOn '.' with
  | [] => []
  | first :: rest => .name (String.ofList first) :: symbolsOfRest rest

def Operand.symbols : Operand → List Symbol
  | .literal value => [.value value]
  | .ofItem name => symbolsOfPath name

namespace Condition

mutual

def symbols : Condition → List Symbol
  | .compare name op operand =>
      symbolsOfPath name ++ (letters (" " ++ op.symbol ++ " ") ++ operand.symbols)
  | .present name => letters "attribute_exists(" ++ (symbolsOfPath name ++ letters ")")
  | .absent name => letters "attribute_not_exists(" ++ (symbolsOfPath name ++ letters ")")
  | .allOf parts => letters "(" ++ inGroup " AND " (symbolsOfParts parts)
  | .anyOf parts => letters "(" ++ inGroup " OR " (symbolsOfParts parts)

def symbolsOfParts : List Condition → List (List Symbol)
  | [] => []
  | part :: rest => symbols part :: symbolsOfParts rest

end

theorem symbolsOfParts_eq (parts : List Condition) : symbolsOfParts parts = parts.map symbols := by
  induction parts with
  | nil => rfl
  | cons part rest ih => rw [symbolsOfParts, ih, List.map_cons]

end Condition

namespace Placeholders

/-- The text of symbols, and the placeholders after it. -/
def writing (placeholders : Placeholders) (symbols : List Symbol) : List Char × Placeholders :=
  (placeholders.written symbols, placeholders.noted symbols)

theorem writing_append (placeholders : Placeholders) (first second : List Symbol) :
    placeholders.writing (first ++ second) =
      (placeholders.written first ++ ((placeholders.noted first).writing second).1,
        ((placeholders.noted first).writing second).2) := by
  rw [writing, written_append, noted_append]
  rfl

theorem writing_letters_append (placeholders : Placeholders) (text : String)
    (symbols : List Symbol) :
    placeholders.writing (letters text ++ symbols) =
      (text.toList ++ (placeholders.writing symbols).1, (placeholders.writing symbols).2) := by
  rw [writing_append, written_letters, noted_letters]

theorem writing_letters (placeholders : Placeholders) (text : String) :
    placeholders.writing (letters text) = (text.toList, placeholders) := by
  rw [writing, written_letters, noted_letters]

theorem pathRest_eq_writing (placeholders : Placeholders) (parts : List (List Char)) :
    placeholders.pathRest parts = placeholders.writing (symbolsOfRest parts) := by
  induction parts generalizing placeholders with
  | nil => rfl
  | cons part rest ih =>
      rw [pathRest, symbolsOfRest]
      split
      · obtain ⟨text, unchanged⟩ := placeholders.written_chars part
        simp only [ih, writing, written, noted, written_append, noted_append, text, unchanged]
      · simp only [ih, writing, written, noted]

theorem path_eq_writing (placeholders : Placeholders) (attr : String) :
    placeholders.path attr = placeholders.writing (symbolsOfPath attr) := by
  unfold path symbolsOfPath
  cases attr.toList.splitOn '.' with
  | nil => rfl
  | cons first rest => simp only [pathRest_eq_writing, writing, written, noted]

theorem operand_eq_writing (placeholders : Placeholders) (operand : Operand) :
    placeholders.operand operand = placeholders.writing operand.symbols := by
  cases operand with
  | literal value => simp [Placeholders.operand, Operand.symbols, writing, written, noted]
  | ofItem name => exact placeholders.path_eq_writing name

end Placeholders

namespace Condition

open Placeholders

variable {condition : Condition} {parts : List Condition}

theorem renderFrom_compare (placeholders : Placeholders) (name : String) (op : Comparison)
    (operand : Operand) :
    renderFrom placeholders (.compare name op operand) =
      ((placeholders.path name).1 ++
          ' ' :: (op.symbol.toList ++ ' ' :: ((placeholders.path name).2.operand operand).1),
        ((placeholders.path name).2.operand operand).2) := rfl

theorem renderFrom_present (placeholders : Placeholders) (name : String) :
    renderFrom placeholders (.present name) =
      ("attribute_exists(".toList ++ (placeholders.path name).1 ++ [')'],
        (placeholders.path name).2) := rfl

theorem renderFrom_absent (placeholders : Placeholders) (name : String) :
    renderFrom placeholders (.absent name) =
      ("attribute_not_exists(".toList ++ (placeholders.path name).1 ++ [')'],
        (placeholders.path name).2) := rfl

theorem renderAll_cons (placeholders : Placeholders) (part : Condition) (rest : List Condition) :
    renderAll placeholders (part :: rest) =
      ((renderFrom placeholders part).1 :: (renderAll (renderFrom placeholders part).2 rest).1,
        (renderAll (renderFrom placeholders part).2 rest).2) := rfl

/-- The parts of a group with what is written between them and behind. -/
theorem renderAll_eq_writing (separator : String)
    (each : ∀ part ∈ parts, ∀ placeholders, renderFrom placeholders part =
      placeholders.writing part.symbols) (placeholders : Placeholders) :
    (List.intercalate separator.toList (renderAll placeholders parts).1 ++ [')'],
      (renderAll placeholders parts).2) =
        placeholders.writing (inGroup separator (symbolsOfParts parts)) := by
  induction parts generalizing placeholders with
  | nil => exact (placeholders.writing_letters ")").symm
  | cons part rest ih =>
      obtain ⟨ofPart, ofRest⟩ := List.forall_mem_cons.mp each
      cases rest with
      | nil =>
          have closed : inGroup separator (symbolsOfParts [part]) =
              part.symbols ++ letters ")" := rfl
          rw [closed, writing_append, writing_letters, renderAll_cons, ofPart]
          simp [renderAll, writing]
      | cons next rest =>
          -- The separator adds no placeholders, so the rest goes on from those of the first part.
          have behind := ih ofRest (placeholders.noted part.symbols)
          have split : inGroup separator (symbolsOfParts (part :: next :: rest)) =
              part.symbols ++ (letters separator ++
                inGroup separator (symbolsOfParts (next :: rest))) := rfl
          rw [split, writing_append, writing_letters_append, ← behind, renderAll_cons, ofPart,
            renderAll_cons, List.intercalate_cons_cons, List.append_assoc, List.append_assoc]
          rfl

theorem renderFrom_eq_writing (condition : Condition) :
    ∀ placeholders, renderFrom placeholders condition =
      placeholders.writing condition.symbols := by
  induction condition using nested_induction with
  | compare name op operand =>
      intro placeholders
      have spaced (behind : List Char) : (" " ++ op.symbol ++ " ").toList ++ behind =
          ' ' :: (op.symbol.toList ++ ' ' :: behind) := by
        rw [String.toList_append, String.toList_append, List.append_assoc, List.append_assoc]
        rfl
      rw [symbols, writing_append, writing_letters_append, ← operand_eq_writing, spaced,
        renderFrom_compare, path_eq_writing]
      rfl
  | present name =>
      intro placeholders
      rw [symbols, writing_letters_append, writing_append, writing_letters, renderFrom_present,
        path_eq_writing]
      rfl
  | absent name =>
      intro placeholders
      rw [symbols, writing_letters_append, writing_append, writing_letters, renderFrom_absent,
        path_eq_writing]
      rfl
  | allOf parts ih | anyOf parts ih =>
      intro placeholders
      rw [symbols, writing_letters_append, ← renderAll_eq_writing _ ih]
      rfl

theorem render_text (condition : Condition) :
    condition.render.text = written {} condition.symbols := by
  rw [render, renderFrom_eq_writing]
  rfl

theorem render_placeholders (condition : Condition) :
    condition.render.placeholders = noted {} condition.symbols := by
  rw [render, renderFrom_eq_writing]
  rfl

end Condition

namespace Placeholders

variable {left right symbols rest : List Symbol} {members : List (List Symbol)}
variable {text separator : String} {chars : List Char}

theorem spaced_append (first : Spaced left) (second : Spaced right) (delimits : Delimits right) :
    Spaced (left ++ right) := by
  induction left with
  | nil => exact second
  | cons symbol rest ih =>
      have behind (delimited : Delimits rest) : Delimits (rest ++ right) := by
        cases rest with
        | nil => exact delimits
        | cons next rest => exact delimited
      cases symbol with
      | char c => exact ⟨first.1, ih first.2⟩
      | name text => exact ⟨behind first.1, ih first.2⟩
      | value literal => exact ⟨behind first.1, ih first.2⟩

/-- No placeholder begins with this character. -/
def isPlain (c : Char) : Bool := c != '#' && c != ':'

theorem spaced_chars_append (plain : chars.all isPlain = true) (spaced : Spaced rest) :
    Spaced (chars.map .char ++ rest) := by
  induction chars with
  | nil => exact spaced
  | cons c others ih =>
      rw [List.all_cons, Bool.and_eq_true, isPlain, Bool.and_eq_true, bne_iff_ne, bne_iff_ne]
        at plain
      exact ⟨plain.1, ih plain.2⟩

theorem spaced_letters (plain : text.toList.all isPlain = true) : Spaced (letters text) :=
  List.append_nil (letters text) ▸ spaced_chars_append plain trivial

/-- What may stand behind a path. -/
def EndsPath (symbols : List Symbol) : Prop :=
  ∀ c, symbols.head? = some (.char c) → c = ' ' ∨ c = ')'

theorem endsPath_nil : EndsPath [] := by
  rintro c ⟨⟩

theorem EndsPath.delimits (ends : EndsPath symbols) : Delimits symbols := by
  intro c first
  rcases ends c first with rfl | rfl <;> rfl

theorem endsPath_letters_append
    (begins : text.toList.head? = some ' ' ∨ text.toList.head? = some ')') (rest : List Symbol) :
    EndsPath (letters text ++ rest) := by
  intro c first
  obtain ⟨found, begins, ends⟩ : ∃ d, text.toList.head? = some d ∧ (d = ' ' ∨ d = ')') := by
    rcases begins with begins | begins
    · exact ⟨_, begins, .inl rfl⟩
    · exact ⟨_, begins, .inr rfl⟩
  rw [letters, List.head?_append, List.head?_map, begins] at first
  cases first
  exact ends

theorem endsPath_delimiter {delimiter : String} (member : delimiter ∈ Symbol.delimiters)
    (rest : List Symbol) : EndsPath (letters delimiter ++ rest) := by
  have begins : ∀ delimiter ∈ Symbol.delimiters,
      delimiter.toList.head? = some ' ' ∨ delimiter.toList.head? = some ')' := by
    decide
  exact endsPath_letters_append (begins delimiter member) rest

theorem endsPath_operator (op : Comparison) (rest : List Symbol) :
    EndsPath (letters (" " ++ op.symbol ++ " ") ++ rest) :=
  endsPath_letters_append (.inl (by cases op <;> rfl)) rest

theorem plain_delimiter : ∀ delimiter ∈ Symbol.delimiters,
    delimiter.toList.all isPlain = true := by
  decide

theorem spaced_inGroup (ofSeparator : separator ∈ separators)
    (each : ∀ member ∈ members, Spaced member) : Spaced (inGroup separator members) := by
  have closing : Spaced (letters ")") := spaced_letters (plain_delimiter ")" List.mem_cons_self)
  have between := List.mem_cons_of_mem ")" ofSeparator
  induction members with
  | nil => exact closing
  | cons member members ih =>
      obtain ⟨ofMember, ofRest⟩ := List.forall_mem_cons.mp each
      refine spaced_append ofMember ?_ ?_
      · cases members with
        | nil => exact closing
        | cons next members => exact spaced_chars_append (plain_delimiter _ between) (ih ofRest)
      · cases members with
        | nil => exact (endsPath_delimiter List.mem_cons_self []).delimits
        | cons next members => exact (endsPath_delimiter between _).delimits

theorem delimits_rest (parts : List (List Char)) : Delimits (symbolsOfRest parts) := by
  cases parts with
  | nil => nofun
  | cons part rest =>
      rw [symbolsOfRest]
      split <;> rintro _ ⟨⟩ <;> rfl

theorem spaced_rest (parts : List (List Char)) : Spaced (symbolsOfRest parts) := by
  induction parts with
  | nil => trivial
  | cons part rest ih =>
      rw [symbolsOfRest]
      split
      · rename_i position
        have digits : ∀ c ∈ part, Decimal.isDigit c = true :=
          List.all_eq_true.mp (Bool.and_eq_true_iff.mp position).2
        have plain : part.all isPlain = true := by
          rw [List.all_eq_true]
          intro c member
          rw [isPlain, Bool.and_eq_true, bne_iff_ne, bne_iff_ne]
          constructor <;> rintro rfl <;> exact absurd (digits _ member) (by decide)
        exact ⟨by decide, spaced_chars_append plain ⟨by decide, ih⟩⟩
      · exact ⟨by decide, delimits_rest rest, ih⟩

theorem spaced_path (attr : String) : Spaced (symbolsOfPath attr) := by
  unfold symbolsOfPath
  cases attr.toList.splitOn '.' with
  | nil => trivial
  | cons first rest => exact ⟨delimits_rest rest, spaced_rest rest⟩

theorem spaced_operand (operand : Operand) : Spaced operand.symbols := by
  cases operand with
  | literal value => exact ⟨nofun, trivial⟩
  | ofItem name => exact spaced_path name

end Placeholders

namespace Condition

open Placeholders

theorem spaced_symbols (condition : Condition) : Spaced condition.symbols := by
  have closed (name : String) : Spaced (symbolsOfPath name ++ letters ")") :=
    spaced_append (spaced_path name) (spaced_letters (plain_delimiter _ List.mem_cons_self))
      (endsPath_delimiter List.mem_cons_self []).delimits
  induction condition using nested_induction with
  | compare name op operand =>
      have plain : (" " ++ op.symbol ++ " ").toList.all isPlain = true := by
        cases op <;> decide
      exact spaced_append (spaced_path name) (spaced_chars_append plain (spaced_operand operand))
        (endsPath_operator op _).delimits
  | present name => exact spaced_chars_append (by decide) (closed name)
  | absent name => exact spaced_chars_append (by decide) (closed name)
  | allOf parts ih | anyOf parts ih =>
      refine spaced_chars_append (by decide) (spaced_inGroup (by decide) ?_)
      rw [symbolsOfParts_eq]
      exact List.forall_mem_map.mpr ih

mutual

/-- The literals of a condition, from left to right. -/
def literals : Condition → List Value
  | .compare _ _ (.literal value) => [value]
  | .compare _ _ (.ofItem _) => []
  | .present _ => []
  | .absent _ => []
  | .allOf parts => literalsOfParts parts
  | .anyOf parts => literalsOfParts parts

def literalsOfParts : List Condition → List Value
  | [] => []
  | part :: rest => literals part ++ literalsOfParts rest

end

theorem literalsOfParts_eq (parts : List Condition) :
    literalsOfParts parts = parts.flatMap literals := by
  induction parts with
  | nil => rfl
  | cons part rest ih => rw [literalsOfParts, ih, List.flatMap_cons]

theorem value?_of_mem_rest {parts : List (List Char)} {symbol : Symbol}
    (member : symbol ∈ symbolsOfRest parts) : symbol.value? = none := by
  induction parts with
  | nil => cases member
  | cons part rest ih =>
      rw [symbolsOfRest] at member
      split at member
      · simp only [List.mem_cons, List.mem_append, List.mem_map] at member
        obtain rfl | ⟨c, _, rfl⟩ | rfl | member := member
        · rfl
        · rfl
        · rfl
        · exact ih member
      · simp only [List.mem_cons] at member
        obtain rfl | rfl | member := member
        · rfl
        · rfl
        · exact ih member

/-- No literal is written in a path. -/
theorem value?_of_mem_path {attr : String} {symbol : Symbol}
    (member : symbol ∈ symbolsOfPath attr) : symbol.value? = none := by
  unfold symbolsOfPath at member
  cases parts : attr.toList.splitOn '.' with
  | nil =>
      rw [parts] at member
      cases member
  | cons first rest =>
      rw [parts] at member
      cases member with
      | head => rfl
      | tail _ member => exact value?_of_mem_rest member

theorem values_path (attr : String) : (symbolsOfPath attr).filterMap Symbol.value? = [] :=
  List.filterMap_eq_nil_iff.mpr fun _ => value?_of_mem_path

theorem values_symbols (condition : Condition) :
    condition.symbols.filterMap Symbol.value? = condition.literals := by
  induction condition using nested_induction with
  | compare name op operand =>
      rw [symbols, List.filterMap_append, List.filterMap_append, values_path, letters_values]
      cases operand with
      | literal value => rfl
      | ofItem name => exact values_path name
  | present name | absent name =>
      rw [symbols, List.filterMap_append, List.filterMap_append, values_path, letters_values,
        letters_values]
      rfl
  | allOf parts ih | anyOf parts ih =>
      rw [symbols, List.filterMap_append, letters_values, inGroup_values, literals,
        literalsOfParts_eq, symbolsOfParts_eq, List.nil_append, List.flatMap_map]
      exact List.flatMap_congr ih

end Condition

namespace Expression

open Placeholders

/-- The placeholders in the text are those that stand for something. No name has two, and those of
these literals are numbered from left to right. -/
structure Accounts (expression : Expression) (literals : List Value) : Prop where
  names : ∀ key, key ∈ placeholdersIn '#' expression.text ↔
    key ∈ Dict.keys expression.placeholders.nameTable
  values : ∀ key, key ∈ placeholdersIn ':' expression.text ↔
    key ∈ Dict.keys expression.placeholders.valueTable
  distinct : (Dict.values expression.placeholders.nameTable).Nodup
  numbered : placeholdersIn ':' expression.text =
    (List.range literals.length).map fun number => String.ofList (valueMark number)
  carried : ∀ number, Dict.get? expression.placeholders.valueTable
    (String.ofList (valueMark number)) = literals[number]?

end Expression

namespace Condition

open Placeholders

variable {condition : Condition}

/-- All names of a condition, each once. -/
theorem nodup_names (condition : Condition) : condition.render.placeholders.names.Nodup := by
  rw [render_placeholders]
  exact nodup_noted List.nodup_nil condition.symbols

theorem mem_names {text : String} :
    text ∈ condition.render.placeholders.names ↔
      text ∈ condition.symbols.filterMap Symbol.name? := by
  rw [render_placeholders, mem_names_noted]
  exact or_iff_right List.not_mem_nil

theorem values_eq_literals (condition : Condition) :
    condition.render.placeholders.values = condition.literals := by
  rw [render_placeholders, values_noted, values_symbols]
  rfl

theorem text_eq_spelled (condition : Condition) :
    condition.render.text = spelled condition.render.placeholders.names 0 condition.symbols := by
  rw [render_text, render_placeholders]
  exact written_eq_spelled condition.symbols (List.prefix_refl _)

theorem placeholders_of_names (condition : Condition) (key : String) :
    key ∈ placeholdersIn '#' condition.render.text ↔
      key ∈ Dict.keys condition.render.placeholders.nameTable := by
  rw [text_eq_spelled, placeholdersIn_names condition.spaced_symbols,
    nameTable, (keys_table_perm _ _).mem_iff, List.mem_map, List.mem_map]
  constructor
  · rintro ⟨text, member, rfl⟩
    exact ⟨_, List.mem_range.mpr (List.idxOf_lt_length_of_mem (mem_names.mpr member)), rfl⟩
  · rintro ⟨number, counted, rfl⟩
    have inside := List.mem_range.mp counted
    refine ⟨_, mem_names.mp (List.getElem_mem inside), ?_⟩
    rw [condition.nodup_names.idxOf_getElem]

theorem placeholders_of_values (condition : Condition) :
    placeholdersIn ':' condition.render.text =
      (List.range condition.literals.length).map fun number =>
        String.ofList (valueMark number) := by
  rw [text_eq_spelled, placeholdersIn_values condition.spaced_symbols, values_symbols,
    List.range_eq_range']

theorem accounts_render (condition : Condition) :
    condition.render.Accounts condition.literals where
  names := condition.placeholders_of_names
  values key := by
    rw [placeholders_of_values, valueTable, (keys_table_perm _ _).mem_iff, values_eq_literals]
  distinct := (values_table_perm _ _).nodup_iff.mpr condition.nodup_names
  numbered := condition.placeholders_of_values
  carried number := by
    rw [valueTable, get?_table valueMark_injective, values_eq_literals]

end Condition

end DataAccess.KeyValue
