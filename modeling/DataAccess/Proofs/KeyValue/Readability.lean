import DataAccess.Proofs.KeyValue.Rendering
import DataAccess.Proofs.Value

namespace DataAccess.KeyValue

open DataAccess.Symbol (letters letters_erased letters_append_inj PrefixFree separators inGroup
  inGroup_erased readable_members operator_injective)
open Placeholders (EndsPath endsPath_nil endsPath_delimiter endsPath_operator isPosition)

def Operand.erased : Operand → Operand
  | .literal _ => .literal .null
  | .ofItem name => .ofItem name

/-- Equality of operands, literals being compared by their content. -/
def Operand.same : Operand → Operand → Bool
  | .literal value, .literal other => value.same other
  | .ofItem name, .ofItem other => name == other
  | _, _ => false

namespace Condition

mutual

/-- A condition with a null in the place of each literal. -/
def erased : Condition → Condition
  | .compare name op operand => .compare name op operand.erased
  | .present name => .present name
  | .absent name => .absent name
  | .allOf parts => .allOf (erasedParts parts)
  | .anyOf parts => .anyOf (erasedParts parts)

def erasedParts : List Condition → List Condition
  | [] => []
  | part :: rest => erased part :: erasedParts rest

end

mutual

/-- Equality of conditions, literals being compared by their content. -/
def same : Condition → Condition → Bool
  | .compare name op operand, .compare other operator opposite =>
      name == other && op == operator && operand.same opposite
  | .present name, .present other => name == other
  | .absent name, .absent other => name == other
  | .allOf parts, .allOf others => sameParts parts others
  | .anyOf parts, .anyOf others => sameParts parts others
  | _, _ => false

def sameParts : List Condition → List Condition → Bool
  | [], [] => true
  | part :: rest, other :: others => same part other && sameParts rest others
  | _, _ => false

end

mutual

/-- Every group in the condition has at least two parts. -/
def Grouped : Condition → Prop
  | .allOf parts => 2 ≤ parts.length ∧ GroupedParts parts
  | .anyOf parts => 2 ≤ parts.length ∧ GroupedParts parts
  | _ => True

def GroupedParts : List Condition → Prop
  | [] => True
  | part :: rest => Grouped part ∧ GroupedParts rest

end

variable {left right : Condition} {parts others : List Condition}

theorem erasedParts_eq (parts : List Condition) : erasedParts parts = parts.map erased := by
  induction parts with
  | nil => rfl
  | cons part rest ih => rw [erasedParts, ih, List.map_cons]

theorem groupedParts_iff : GroupedParts parts ↔ ∀ part ∈ parts, part.Grouped := by
  induction parts with
  | nil => simp [GroupedParts]
  | cons part rest ih => rw [GroupedParts, ih, List.forall_mem_cons]

theorem length_literals_erased (condition : Condition) :
    condition.erased.literals.length = condition.literals.length := by
  induction condition using nested_induction with
  | compare name op operand => cases operand <;> rfl
  | present | absent => rfl
  | allOf parts ih | anyOf parts ih =>
      rw [erased, literals, literals, literalsOfParts_eq, literalsOfParts_eq, erasedParts_eq,
        List.flatMap_map, List.length_flatMap, List.length_flatMap, List.map_congr_left ih]

theorem sameParts_of_erased
    (each : ∀ part ∈ parts, ∀ other : Condition, part.erased = other.erased →
      List.Forall₂ (fun x y => Value.same x y = true) part.literals other.literals →
        part.same other = true)
    (erased : erasedParts parts = erasedParts others)
    (literals : List.Forall₂ (fun x y => Value.same x y = true) (literalsOfParts parts)
      (literalsOfParts others)) : sameParts parts others = true := by
  induction parts generalizing others with
  | nil =>
      cases others with
      | nil => rfl
      | cons other others => cases erased
  | cons part rest ih =>
      cases others with
      | nil => cases erased
      | cons other others =>
          obtain ⟨here, behind⟩ := List.cons.inj erased
          obtain ⟨ofPart, ofRest⟩ := List.forall_mem_cons.mp each
          -- Parts that are equal but for their literals have equally many of them.
          have counted : part.literals.length = other.literals.length := by
            rw [← length_literals_erased, here, length_literals_erased]
          rw [literalsOfParts, literalsOfParts] at literals
          have first := List.forall₂_take_append _ _ _ literals
          have second := List.forall₂_drop_append _ _ _ literals
          rw [← counted, List.take_left] at first
          rw [← counted, List.drop_left] at second
          rw [sameParts, ofPart other here first, ih ofRest behind second]
          rfl

/-- Conditions are the same if they are so but for their literals, and these are the same. -/
theorem same_of_erased (erased : left.erased = right.erased)
    (literals : List.Forall₂ (fun x y => Value.same x y = true) left.literals right.literals) :
    left.same right = true := by
  induction left using nested_induction generalizing right with
  | compare name op operand =>
      cases right with
      | compare other operator opposite =>
          obtain ⟨rfl, rfl, ofOperand⟩ := Condition.compare.inj erased
          cases operand with
          | literal value =>
              cases opposite with
              | literal other =>
                  cases literals with
                  | cons equal _ => simp [same, Operand.same, equal]
              | ofItem other => cases ofOperand
          | ofItem field =>
              cases opposite with
              | literal other => cases ofOperand
              | ofItem other =>
                  cases ofOperand
                  simp [same, Operand.same]
      | present | absent | allOf | anyOf => cases erased
  | present name =>
      cases right with
      | present other =>
          cases erased
          simp [same]
      | compare | absent | allOf | anyOf => cases erased
  | absent name =>
      cases right with
      | absent other =>
          cases erased
          simp [same]
      | compare | present | allOf | anyOf => cases erased
  | allOf parts ih =>
      cases right with
      | allOf others =>
          exact sameParts_of_erased (fun part member other => ih part member)
            (Condition.allOf.inj erased) literals
      | compare | present | absent | anyOf => cases erased
  | anyOf parts ih =>
      cases right with
      | anyOf others =>
          exact sameParts_of_erased (fun part member other => ih part member)
            (Condition.anyOf.inj erased) literals
      | compare | present | absent | allOf => cases erased

theorem grouped_erased {condition : Condition} (grouped : condition.Grouped) :
    condition.erased.Grouped := by
  induction condition using nested_induction with
  | compare | present | absent => trivial
  | allOf parts ih | anyOf parts ih =>
      obtain ⟨several, each⟩ := grouped
      rw [erased, erasedParts_eq]
      refine ⟨by rwa [List.length_map], ?_⟩
      rw [groupedParts_iff] at each ⊢
      exact List.forall_mem_map.mpr fun part member => ih part member (each part member)

theorem erased_path (attr : String) :
    (symbolsOfPath attr).map Symbol.erased = symbolsOfPath attr := by
  refine (List.map_congr_left fun symbol member => ?_).trans (List.map_id _)
  have notValue := value?_of_mem_path member
  cases symbol with
  | char | name => rfl
  | value literal => cases notValue

theorem symbols_erased (condition : Condition) :
    condition.erased.symbols = condition.symbols.map Symbol.erased := by
  induction condition using nested_induction with
  | compare name op operand =>
      rw [erased, symbols, symbols, List.map_append, List.map_append, erased_path, letters_erased]
      cases operand with
      | literal value => rfl
      | ofItem other => rw [Operand.erased, Operand.symbols, erased_path]
  | present name | absent name =>
      rw [erased, symbols, List.map_append, List.map_append, erased_path, letters_erased,
        letters_erased]
  | allOf parts ih | anyOf parts ih =>
      rw [erased, symbols, symbols, List.map_append, letters_erased, inGroup_erased,
        symbolsOfParts_eq, symbolsOfParts_eq, erasedParts_eq, List.map_map, List.map_map]
      exact congrArg (letters "(" ++ inGroup _ ·) (List.map_congr_left ih)

end Condition

section

variable {digits others : List Char} {parts more : List (List Char)} {rest behind : List Symbol}

theorem position_append_inj (plain : ']' ∉ digits) (otherPlain : ']' ∉ others)
    (same : digits.map Symbol.char ++ .char ']' :: rest =
      others.map Symbol.char ++ .char ']' :: behind) : digits = others ∧ rest = behind := by
  induction digits generalizing others with
  | nil =>
      cases others with
      | nil => exact ⟨rfl, (List.cons.inj same).2⟩
      | cons c others =>
          cases (List.cons.inj same).1
          exact absurd List.mem_cons_self otherPlain
  | cons c digits ih =>
      cases others with
      | nil =>
          cases (List.cons.inj same).1
          exact absurd List.mem_cons_self plain
      | cons d others =>
          obtain ⟨first, same⟩ := List.cons.inj same
          rw [List.mem_cons, not_or] at plain otherPlain
          obtain ⟨equal, ends⟩ := ih plain.2 otherPlain.2 same
          rw [Symbol.char.inj first, equal]
          exact ⟨rfl, ends⟩

theorem bracket_not_mem {part : List Char} (position : isPosition part = true) : ']' ∉ part := by
  intro member
  exact absurd (List.all_eq_true.mp (Bool.and_eq_true_iff.mp position).2 _ member) (by decide)

/-- What follows a path does not read like a part of it. -/
theorem rest_ne (part : List Char) (ends : EndsPath rest) :
    rest ≠ symbolsOfRest (part :: parts) ++ behind := by
  rintro rfl
  rw [symbolsOfRest] at ends
  split at ends
  · exact absurd (ends '[' rfl) (by decide)
  · exact absurd (ends '.' rfl) (by decide)

theorem rest_append_inj (ends : EndsPath rest) (otherEnds : EndsPath behind)
    (same : symbolsOfRest parts ++ rest = symbolsOfRest more ++ behind) :
    parts = more ∧ rest = behind := by
  induction parts generalizing more with
  | nil =>
      cases more with
      | nil => exact ⟨rfl, same⟩
      | cons other more => exact absurd same (rest_ne other ends)
  | cons part parts ih =>
      cases more with
      | nil => exact absurd same.symm (rest_ne part otherEnds)
      | cons other more =>
          rw [symbolsOfRest, symbolsOfRest] at same
          split at same <;> split at same
          · rename_i position otherPosition
            simp only [List.cons_append, List.append_assoc] at same
            obtain ⟨equal, same⟩ := position_append_inj (bracket_not_mem position)
              (bracket_not_mem otherPosition) (List.cons.inj same).2
            obtain ⟨alike, finished⟩ := ih same
            exact ⟨congrArg₂ List.cons equal alike, finished⟩
          · cases (List.cons.inj same).1
          · cases (List.cons.inj same).1
          · obtain ⟨names, same⟩ := List.cons.inj (List.cons.inj same).2
            obtain ⟨alike, finished⟩ := ih same
            exact ⟨congrArg₂ List.cons (String.ofList_injective (Symbol.name.inj names)) alike,
              finished⟩

theorem exists_path (attr : String) :
    ∃ first rest, attr.toList.splitOn '.' = first :: rest ∧
      symbolsOfPath attr = .name (String.ofList first) :: symbolsOfRest rest := by
  unfold symbolsOfPath
  cases parts : attr.toList.splitOn '.' with
  | nil => exact absurd parts (List.splitOn_ne_nil _ _)
  | cons first rest => exact ⟨first, rest, rfl, rfl⟩

/-- A path is read part by part. -/
theorem path_append_inj {attr other : String} (ends : EndsPath rest) (otherEnds : EndsPath behind)
    (same : symbolsOfPath attr ++ rest = symbolsOfPath other ++ behind) :
    attr = other ∧ rest = behind := by
  obtain ⟨first, parts, split, path⟩ := exists_path attr
  obtain ⟨second, more, otherSplit, otherPath⟩ := exists_path other
  rw [path, otherPath] at same
  obtain ⟨names, same⟩ := List.cons.inj same
  obtain ⟨alike, finished⟩ := rest_append_inj ends otherEnds same
  have joined (attr : String) : List.intercalate ['.'] (attr.toList.splitOn '.') = attr.toList :=
    List.intercalate_splitOn '.'
  refine ⟨?_, finished⟩
  rw [← String.toList_inj, ← joined attr, ← joined other, split, otherSplit, alike,
    String.ofList_injective (Symbol.name.inj names)]

theorem operand_append_inj {operand opposite : Operand} (ends : EndsPath rest)
    (otherEnds : EndsPath behind)
    (same : operand.symbols ++ rest = opposite.symbols ++ behind) :
    operand = opposite ∧ rest = behind := by
  cases operand with
  | literal value =>
      cases opposite with
      | literal other =>
          obtain ⟨values, finished⟩ := List.cons.inj same
          exact ⟨congrArg Operand.literal (Symbol.value.inj values), finished⟩
      | ofItem other =>
          obtain ⟨first, parts, _, path⟩ := exists_path other
          rw [Operand.symbols, Operand.symbols, path] at same
          cases same
  | ofItem name =>
      cases opposite with
      | literal other =>
          obtain ⟨first, parts, _, path⟩ := exists_path name
          rw [Operand.symbols, Operand.symbols, path] at same
          cases same
      | ofItem other =>
          obtain ⟨names, finished⟩ := path_append_inj ends otherEnds same
          exact ⟨congrArg Operand.ofItem names, finished⟩

end

namespace Condition

variable {left right : Condition} {parts others : List Condition} {rest more : List Symbol}
variable {separator between : String}

/-- What conditions begin with that do not begin with a path. -/
def openings : List String := ["attribute_exists(", "attribute_not_exists(", "("]

theorem openings_prefixFree : PrefixFree openings := by
  decide

/-- What a condition begins with in front of a path or of the parts of a group. -/
def opening? : Condition → Option String
  | .compare _ _ _ => none
  | .present _ => some "attribute_exists("
  | .absent _ => some "attribute_not_exists("
  | .allOf _ => some "("
  | .anyOf _ => some "("

/-- The symbols behind the opening. -/
def body : Condition → List Symbol
  | .compare name op operand =>
      symbolsOfPath name ++ (letters (" " ++ op.symbol ++ " ") ++ operand.symbols)
  | .present name => symbolsOfPath name ++ letters ")"
  | .absent name => symbolsOfPath name ++ letters ")"
  | .allOf parts => inGroup " AND " (symbolsOfParts parts)
  | .anyOf parts => inGroup " OR " (symbolsOfParts parts)

theorem symbols_eq (condition : Condition) :
    condition.symbols = letters (condition.opening?.getD "") ++ condition.body := by
  cases condition <;> rfl

theorem opening?_mem {opening : String} (opens : left.opening? = some opening) :
    opening ∈ openings := by
  cases left with
  | compare => cases opens
  | present | absent | allOf | anyOf =>
      cases opens
      decide

/-- A comparison begins with a name. -/
theorem opened_ne_comparison {opening : String} (opens : left.opening? = some opening)
    (closed : right.opening? = none) : left.symbols ++ rest ≠ right.symbols ++ more := by
  cases right with
  | compare name op operand =>
      obtain ⟨first, parts, _, path⟩ := exists_path name
      rw [symbols_eq left, opens, symbols, path]
      have letter : ∃ c chars, opening.toList = c :: chars := by
        have nonempty : ∀ opening ∈ openings, opening.toList ≠ [] := by decide
        exact List.exists_cons_of_ne_nil (nonempty opening (opening?_mem opens))
      obtain ⟨c, chars, begins⟩ := letter
      rw [Option.getD_some, letters, begins]
      intro same
      cases (List.cons.inj same).1
  | present | absent | allOf | anyOf => cases closed

theorem body_of_symbols (same : left.symbols ++ rest = right.symbols ++ more) :
    left.opening? = right.opening? ∧ left.body ++ rest = right.body ++ more := by
  cases opens : left.opening? with
  | none =>
      cases otherOpens : right.opening? with
      | none =>
          rw [symbols_eq left, symbols_eq right, opens, otherOpens] at same
          exact ⟨rfl, same⟩
      | some other => exact absurd same.symm (opened_ne_comparison otherOpens opens)
  | some opening =>
      cases otherOpens : right.opening? with
      | none => exact absurd same (opened_ne_comparison opens otherOpens)
      | some other =>
          rw [symbols_eq left, symbols_eq right, opens, otherOpens, Option.getD_some,
            Option.getD_some, List.append_assoc, List.append_assoc] at same
          obtain ⟨equal, behind⟩ := letters_append_inj openings_prefixFree (opening?_mem opens)
            (opening?_mem otherOpens) same
          exact ⟨congrArg some equal, behind⟩

/-- The symbols of a condition without groups of less than two parts. -/
def Spells (condition : Condition) (written : List Symbol) : Prop :=
  condition.Grouped ∧ condition.symbols = written

/-- Whatever ends the last path behind this condition, it is told from other conditions. -/
def Readable : Condition → Prop := Symbol.Readable Spells id EndsPath

theorem spells_parts (grouped : GroupedParts parts) :
    List.Forall₂ Spells parts (symbolsOfParts parts) := by
  induction parts with
  | nil => exact .nil
  | cons part rest ih => exact .cons ⟨grouped.1, rfl⟩ (ih grouped.2)

theorem parts_of_group (ofSeparator : separator ∈ separators) (ofBetween : between ∈ separators)
    (each : ∀ part ∈ parts, Readable part) (grouped : 2 ≤ parts.length ∧ GroupedParts parts)
    (otherGrouped : 2 ≤ others.length ∧ GroupedParts others)
    (same : inGroup separator (symbolsOfParts parts) ++ rest =
      inGroup between (symbolsOfParts others) ++ more) :
    parts = others ∧ separator = between ∧ rest = more := by
  have nonempty {parts : List Condition} (several : 2 ≤ parts.length) :
      symbolsOfParts parts ≠ [] := by
    rw [symbolsOfParts_eq, ← List.length_pos_iff, List.length_map]
    omega
  obtain ⟨alike, finished, kinds⟩ := readable_members ofSeparator ofBetween
    (fun _ member behind => endsPath_delimiter member behind) each (spells_parts grouped.2)
    (spells_parts otherGrouped.2) (nonempty grouped.1) (nonempty otherGrouped.1) same
  rw [List.map_id, List.map_id] at alike
  -- There are two parts or more, so a separator is written and tells the kind of the group.
  exact ⟨alike, kinds.resolve_left (by omega), finished⟩

theorem operators_prefixFree :
    PrefixFree (Comparison.all.map fun op => " " ++ op.symbol ++ " ") := by
  decide

theorem closed_path_inj {attr other : String}
    (same : symbolsOfPath attr ++ letters ")" ++ rest = symbolsOfPath other ++ letters ")" ++ more) :
    attr = other ∧ rest = more := by
  rw [List.append_assoc, List.append_assoc] at same
  obtain ⟨names, behind⟩ := path_append_inj (endsPath_delimiter List.mem_cons_self rest)
    (endsPath_delimiter List.mem_cons_self more) same
  exact ⟨names, List.append_cancel_left behind⟩

theorem readable (condition : Condition) : Readable condition := by
  induction condition using nested_induction with
  | compare name op operand =>
      rintro right _ _ rest more ⟨_, rfl⟩ ⟨_, rfl⟩ ends otherEnds same
      obtain ⟨opening, same⟩ := body_of_symbols same
      cases right with
      | compare other operator opposite =>
          simp only [body, List.append_assoc] at same
          obtain ⟨names, behind⟩ :=
            path_append_inj (endsPath_operator op _) (endsPath_operator operator _) same
          obtain ⟨operators, behind⟩ := letters_append_inj operators_prefixFree
            (List.mem_map_of_mem op.mem_all) (List.mem_map_of_mem operator.mem_all) behind
          obtain ⟨operands, finished⟩ := operand_append_inj ends otherEnds behind
          rw [names, operator_injective operators, operands]
          exact ⟨rfl, finished⟩
      | present | absent | allOf | anyOf => cases opening
  | present name =>
      rintro right _ _ rest more ⟨_, rfl⟩ ⟨_, rfl⟩ _ _ same
      obtain ⟨opening, same⟩ := body_of_symbols same
      cases right with
      | present other =>
          obtain ⟨names, finished⟩ := closed_path_inj same
          exact ⟨congrArg Condition.present names, finished⟩
      | compare => cases opening
      | absent | allOf | anyOf => exact absurd (Option.some.inj opening) (by decide)
  | absent name =>
      rintro right _ _ rest more ⟨_, rfl⟩ ⟨_, rfl⟩ _ _ same
      obtain ⟨opening, same⟩ := body_of_symbols same
      cases right with
      | absent other =>
          obtain ⟨names, finished⟩ := closed_path_inj same
          exact ⟨congrArg Condition.absent names, finished⟩
      | compare => cases opening
      | present | allOf | anyOf => exact absurd (Option.some.inj opening) (by decide)
  | allOf parts ih =>
      rintro right _ _ rest more ⟨grouped, rfl⟩ ⟨otherGrouped, rfl⟩ _ _ same
      obtain ⟨opening, same⟩ := body_of_symbols same
      cases right with
      | allOf others =>
          obtain ⟨alike, _, finished⟩ :=
            parts_of_group (by decide) (by decide) ih grouped otherGrouped same
          exact ⟨congrArg Condition.allOf alike, finished⟩
      | anyOf others =>
          obtain ⟨_, kinds, _⟩ :=
            parts_of_group (by decide) (by decide) ih grouped otherGrouped same
          exact absurd kinds (by decide)
      | compare => cases opening
      | present | absent => exact absurd (Option.some.inj opening) (by decide)
  | anyOf parts ih =>
      rintro right _ _ rest more ⟨grouped, rfl⟩ ⟨otherGrouped, rfl⟩ _ _ same
      obtain ⟨opening, same⟩ := body_of_symbols same
      cases right with
      | anyOf others =>
          obtain ⟨alike, _, finished⟩ :=
            parts_of_group (by decide) (by decide) ih grouped otherGrouped same
          exact ⟨congrArg Condition.anyOf alike, finished⟩
      | allOf others =>
          obtain ⟨_, kinds, _⟩ :=
            parts_of_group (by decide) (by decide) ih grouped otherGrouped same
          exact absurd kinds (by decide)
      | compare => cases opening
      | present | absent => exact absurd (Option.some.inj opening) (by decide)

theorem eq_of_symbols (grouped : left.Grouped) (otherGrouped : right.Grouped)
    (same : left.symbols = right.symbols) : left = right :=
  (readable left ⟨grouped, rfl⟩ ⟨otherGrouped, rfl⟩ endsPath_nil endsPath_nil
    (congrArg (· ++ []) same)).1

/-- Text and names tell the symbols, but for the literals. -/
theorem erased_symbols_of_text (texts : left.render.text = right.render.text)
    (names : left.render.placeholders.nameTable = right.render.placeholders.nameTable) :
    left.symbols.map Symbol.erased = right.symbols.map Symbol.erased := by
  have listed := Placeholders.table_inj Placeholders.nameMark_injective names
  rw [text_eq_spelled, text_eq_spelled right, ← listed] at texts
  exact Placeholders.erased_of_spelled left.spaced_symbols right.spaced_symbols
    (fun text member => mem_names.mpr member) texts

theorem length_valueTable (condition : Condition) :
    condition.render.placeholders.valueTable.length = condition.literals.length := by
  rw [Placeholders.valueTable, Placeholders.length_table, values_eq_literals]

theorem literals_of_table
    (values : left.render.placeholders.valueTable = right.render.placeholders.valueTable) :
    left.literals = right.literals := by
  rw [← values_eq_literals, ← values_eq_literals]
  exact Placeholders.table_inj Placeholders.valueMark_injective values

/-- Literals with the same placeholder are the same if the tables of the placeholders are. -/
theorem literals_of_same_table
    (values : Value.same (.map left.render.placeholders.valueTable)
      (.map right.render.placeholders.valueTable) = true) :
    List.Forall₂ (fun x y => Value.same x y = true) left.literals right.literals := by
  rw [Value.same, Bool.and_eq_true, beq_iff_eq, length_valueTable, length_valueTable] at values
  obtain ⟨counted, fields⟩ := values
  refine List.forall₂_iff_get.mpr ⟨counted, fun number inside otherInside => ?_⟩
  have carried := left.accounts_render.carried number
  rw [List.getElem?_eq_getElem inside] at carried
  obtain ⟨other, found, equal⟩ := Value.sameFields_iff.mp fields _ (Dict.mem_of_get? carried)
  rw [right.accounts_render.carried number, List.getElem?_eq_getElem otherInside] at found
  rw [List.get_eq_getElem, List.get_eq_getElem, Option.some.inj found]
  exact equal

/-- The placeholders in the text of a condition are those that its expression explains, each name has
one, and those of the literals are numbered from left to right. Of conditions whose groups all have
two or more parts, the same text and names make them the same but for their literals; with the same
values, they are the same. -/
theorem expression_determines_condition :
    (∀ condition : Condition, condition.render.Accounts condition.literals) ∧
    ∀ left right : Condition, left.Grouped → right.Grouped →
      left.render.text = right.render.text →
      left.render.placeholders.nameTable = right.render.placeholders.nameTable →
        left.erased = right.erased ∧
        (left.render.placeholders.valueTable = right.render.placeholders.valueTable →
          left = right) ∧
        (Value.same (.map left.render.placeholders.valueTable)
            (.map right.render.placeholders.valueTable) = true → left.same right = true) := by
  refine ⟨accounts_render, fun left right grouped otherGrouped texts names => ?_⟩
  have symbols := erased_symbols_of_text texts names
  have erased : left.erased = right.erased := by
    rw [← symbols_erased, ← symbols_erased] at symbols
    exact eq_of_symbols (grouped_erased grouped) (grouped_erased otherGrouped) symbols
  refine ⟨erased, fun values => ?_, fun values => ?_⟩
  · have literals := literals_of_table values
    rw [← values_symbols, ← values_symbols] at literals
    exact eq_of_symbols grouped otherGrouped (Symbol.eq_of_erased symbols literals)
  · exact same_of_erased erased (literals_of_same_table values)

/-- A condition on the price of the first copy, which is read next to the price of the item. -/
def affordable (limit : Value) : Condition :=
  .allOf [.compare "copies.0.price" .lessOrEqual (.literal limit),
    .anyOf [.absent "copies.0.loan", .compare "copies.0.price" .equal (.ofItem "price")]]

theorem valueTable_affordable (limit : Value) :
    (affordable limit).render.placeholders.valueTable = [(":v0", limit)] := by
  have literals : (affordable limit).literals = [limit] := rfl
  rw [Placeholders.valueTable, values_eq_literals, literals]
  exact List.mergeSort_singleton _

/-- Limits whose keys are in another order make the same condition, though not an identical one. -/
theorem order_of_keys_is_left_open :
    let left := affordable (.map [("amount", .null), ("currency", .null)])
    let right := affordable (.map [("currency", .null), ("amount", .null)])
    left.Grouped ∧ right.Grouped ∧
    left.render.text =
      "(#n0[0].#n1 <= :v0 AND (attribute_not_exists(#n0[0].#n2) OR #n0[0].#n1 = #n1))".toList ∧
    left.render.text = right.render.text ∧
    left.render.placeholders.nameTable = right.render.placeholders.nameTable ∧
    Value.same (.map left.render.placeholders.valueTable)
      (.map right.render.placeholders.valueTable) = true ∧
    left.same right = true ∧
    left.render.placeholders.valueTable ≠ right.render.placeholders.valueTable := by
  intro left right
  have grouped (limit : Value) : (affordable limit).Grouped := by
    simp [affordable, Grouped, GroupedParts]
  have texts : left.render.text = right.render.text := by decide +kernel
  have names : left.render.placeholders.nameTable = right.render.placeholders.nameTable :=
    congrArg (Placeholders.table Placeholders.nameMark)
      (by decide +kernel : left.render.placeholders.names = right.render.placeholders.names)
  have values : Value.same (.map left.render.placeholders.valueTable)
      (.map right.render.placeholders.valueTable) = true := by
    rw [valueTable_affordable, valueTable_affordable]
    decide +kernel
  obtain ⟨_, identical, same⟩ := expression_determines_condition.2 left right (grouped _)
    (grouped _) texts names
  refine ⟨grouped _, grouped _, by decide +kernel, texts, names, values, same values, ?_⟩
  intro tables
  exact absurd (congrArg literals (identical tables)) (by decide)

end Condition

end DataAccess.KeyValue
