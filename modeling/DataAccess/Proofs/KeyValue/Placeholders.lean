import DataAccess.KeyValue.Expression
import DataAccess.Proofs.Decimal
import DataAccess.Proofs.Dict
import DataAccess.Proofs.Symbol
import Mathlib.Data.List.Nodup
import Mathlib.Data.List.Range

/-!
# Placeholders

Symbols are written from left to right, each name under the placeholder that it has or gets and each
literal under the next one. Which placeholder a name has can be told from all names in the end, so
the text tells its symbols but for the literals.
-/

namespace DataAccess.KeyValue

open DataAccess.Symbol (letters)

namespace Placeholders

variable {placeholders : Placeholders} {names : List String} {text : String}

theorem nameMark_injective : Function.Injective nameMark := by
  intro m n same
  exact Decimal.ofNat_injective (List.cons.inj (List.cons.inj same).2).2

theorem valueMark_injective : Function.Injective valueMark := by
  intro m n same
  exact Decimal.ofNat_injective (List.cons.inj (List.cons.inj same).2).2

theorem isAlphanum_of_isDigit {c : Char} (digit : Decimal.isDigit c = true) :
    c.isAlphanum = true := by
  rw [Decimal.isDigit] at digit
  rw [Char.isAlphanum, digit, Bool.or_true]

theorem isAlphanum_of_mem_ofNat {number : Nat} {c : Char} (member : c ∈ Decimal.ofNat number) :
    c.isAlphanum = true :=
  isAlphanum_of_isDigit (Decimal.isDigit_of_mem_ofNat member)

theorem mark_name (placeholders : Placeholders) (text : String) :
    (placeholders.name text).1 = nameMark ((placeholders.name text).2.names.idxOf text) := by
  unfold name
  split
  · rename_i number found
    rw [List.idxOf_eq_getD_idxOf?, found, Option.getD_some]
  · rename_i absent
    have fresh : text ∉ placeholders.names := List.idxOf?_eq_none_iff.mp absent
    simp [List.idxOf_append, fresh]

theorem names_name (placeholders : Placeholders) (text : String) :
    (placeholders.name text).2.names =
      if text ∈ placeholders.names then placeholders.names else placeholders.names ++ [text] := by
  unfold name
  split
  · rename_i number found
    have member : text ∈ placeholders.names := by
      by_contra absent
      rw [List.idxOf?_eq_none_iff.mpr absent] at found
      cases found
    rw [if_pos member]
  · rename_i absent
    rw [if_neg (List.idxOf?_eq_none_iff.mp absent)]

theorem values_name (placeholders : Placeholders) (text : String) :
    (placeholders.name text).2.values = placeholders.values := by
  unfold name
  split <;> rfl

/-- The placeholders after symbols have been written. -/
def noted (placeholders : Placeholders) : List Symbol → Placeholders
  | [] => placeholders
  | .char _ :: rest => noted placeholders rest
  | .name text :: rest => noted (placeholders.name text).2 rest
  | .value literal :: rest => noted (placeholders.value literal).2 rest

/-- The text of symbols. -/
def written (placeholders : Placeholders) : List Symbol → List Char
  | [] => []
  | .char c :: rest => c :: written placeholders rest
  | .name text :: rest => (placeholders.name text).1 ++ written (placeholders.name text).2 rest
  | .value literal :: rest =>
      (placeholders.value literal).1 ++ written (placeholders.value literal).2 rest

theorem noted_append (placeholders : Placeholders) (first second : List Symbol) :
    placeholders.noted (first ++ second) = (placeholders.noted first).noted second := by
  induction first generalizing placeholders with
  | nil => rfl
  | cons symbol rest ih => cases symbol <;> exact ih _

theorem written_append (placeholders : Placeholders) (first second : List Symbol) :
    placeholders.written (first ++ second) =
      placeholders.written first ++ (placeholders.noted first).written second := by
  induction first generalizing placeholders with
  | nil => rfl
  | cons symbol rest ih =>
      cases symbol <;> simp only [List.cons_append, written, noted, ih, List.append_assoc]

theorem written_chars (placeholders : Placeholders) (chars : List Char) :
    placeholders.written (chars.map .char) = chars ∧
      placeholders.noted (chars.map .char) = placeholders := by
  induction chars with
  | nil => exact ⟨rfl, rfl⟩
  | cons c rest ih =>
      simp only [List.map_cons, written, noted, ih.1, ih.2]
      exact ⟨trivial, trivial⟩

theorem written_letters (placeholders : Placeholders) (text : String) :
    placeholders.written (letters text) = text.toList :=
  (placeholders.written_chars text.toList).1

theorem noted_letters (placeholders : Placeholders) (text : String) :
    placeholders.noted (letters text) = placeholders :=
  (placeholders.written_chars text.toList).2

theorem names_prefix_noted (placeholders : Placeholders) (symbols : List Symbol) :
    placeholders.names <+: (placeholders.noted symbols).names := by
  induction symbols generalizing placeholders with
  | nil => exact List.prefix_refl _
  | cons symbol rest ih =>
      cases symbol with
      | char c => exact ih placeholders
      | value literal => exact ih (placeholders.value literal).2
      | name text =>
          refine List.IsPrefix.trans ?_ (ih _)
          rw [names_name]
          split
          · exact List.prefix_refl _
          · exact List.prefix_append _ _

theorem nodup_noted (distinct : placeholders.names.Nodup) (symbols : List Symbol) :
    (placeholders.noted symbols).names.Nodup := by
  induction symbols generalizing placeholders with
  | nil => exact distinct
  | cons symbol rest ih =>
      cases symbol with
      | char c => exact ih distinct
      | value literal => exact ih distinct
      | name text =>
          apply ih
          rw [names_name]
          split
          · exact distinct
          · rename_i fresh
            exact List.concat_eq_append ▸ distinct.concat fresh

theorem mem_names_noted (symbols : List Symbol) :
    text ∈ (placeholders.noted symbols).names ↔
      text ∈ placeholders.names ∨ text ∈ symbols.filterMap Symbol.name? := by
  induction symbols generalizing placeholders with
  | nil => simp [noted]
  | cons symbol rest ih =>
      cases symbol with
      | char c => exact ih
      | value literal => exact ih
      | name other =>
          have here : (Symbol.name other).name? = some other := rfl
          rw [noted, ih, names_name, List.filterMap_cons_some here, List.mem_cons]
          split
          · rename_i listed
            constructor
            · rintro (earlier | later)
              · exact .inl earlier
              · exact .inr (.inr later)
            · rintro (earlier | same | later)
              · exact .inl earlier
              · exact .inl (same ▸ listed)
              · exact .inr later
          · rw [List.mem_append, List.mem_singleton, or_assoc]

theorem values_noted (placeholders : Placeholders) (symbols : List Symbol) :
    (placeholders.noted symbols).values =
      placeholders.values ++ symbols.filterMap Symbol.value? := by
  induction symbols generalizing placeholders with
  | nil => exact (List.append_nil _).symm
  | cons symbol rest ih =>
      cases symbol with
      | char c => exact ih placeholders
      | name text => exact (ih _).trans (congrArg (· ++ _) (values_name placeholders text))
      | value literal =>
          refine (ih _).trans ?_
          rw [value, List.append_assoc]
          rfl

/-- The text of symbols where all names are known, literals being numbered from a number on. -/
def spelled (names : List String) : Nat → List Symbol → List Char
  | _, [] => []
  | number, .char c :: rest => c :: spelled names number rest
  | number, .name text :: rest => nameMark (names.idxOf text) ++ spelled names number rest
  | number, .value _ :: rest => valueMark number ++ spelled names (number + 1) rest

/-- A name has the same placeholder in all texts that go on from here. -/
theorem written_eq_spelled (symbols : List Symbol)
    (known : (placeholders.noted symbols).names <+: names) :
    placeholders.written symbols = spelled names placeholders.values.length symbols := by
  induction symbols generalizing placeholders with
  | nil => rfl
  | cons symbol rest ih =>
      cases symbol with
      | char c => exact congrArg (c :: ·) (ih known)
      | name text =>
          have here : text ∈ (placeholders.name text).2.names := by
            rw [names_name]
            split
            · assumption
            · exact List.mem_append_right _ (List.mem_singleton.mpr rfl)
          -- The name is listed from here on, and names are only added behind it.
          obtain ⟨others, extended⟩ := (names_prefix_noted _ rest).trans known
          have same : names.idxOf text = (placeholders.name text).2.names.idxOf text := by
            rw [← extended, List.idxOf_append_of_mem here]
          rw [written, spelled, mark_name, same, ih known, values_name]
      | value literal =>
          have counted : (placeholders.value literal).2.values.length =
              placeholders.values.length + 1 := by
            simp [value]
          rw [written, spelled, ih known, counted]
          rfl

/-- Neither a letter nor a digit stands in front of the text. -/
def Stops (text : List Char) : Prop := ∀ c ∈ text.head?, c.isAlphanum = false

/-- Neither a letter nor a digit stands in front of the symbols. -/
def Delimits (symbols : List Symbol) : Prop :=
  ∀ c, symbols.head? = some (.char c) → c.isAlphanum = false

/-- Symbols that are told apart in their text: no character is taken for the beginning of a
placeholder, and none behind a placeholder for a part of it. -/
def Spaced : List Symbol → Prop
  | [] => True
  | .char c :: rest => (c ≠ '#' ∧ c ≠ ':') ∧ Spaced rest
  | .name _ :: rest => Delimits rest ∧ Spaced rest
  | .value _ :: rest => Delimits rest ∧ Spaced rest

variable {chars rest more : List Char} {symbols : List Symbol} {number : Nat} {sign : Char}

theorem stops_spelled (delimits : Delimits symbols) : Stops (spelled names number symbols) := by
  cases symbols with
  | nil => nofun
  | cons symbol rest =>
      cases symbol with
      | char c =>
          rintro _ ⟨⟩
          exact delimits c rfl
      | name text =>
          rintro _ ⟨⟩
          rfl
      | value literal =>
          rintro _ ⟨⟩
          rfl

theorem takeWhile_append (each : ∀ c ∈ chars, c.isAlphanum = true) (stops : Stops rest) :
    (chars ++ rest).takeWhile Char.isAlphanum = chars := by
  have ends : rest.takeWhile Char.isAlphanum = [] := by
    cases rest with
    | nil => rfl
    | cons c tail => simp [stops c rfl]
  rw [List.takeWhile_append_of_pos each, ends, List.append_nil]

theorem ofNat_append_inj {m n : Nat} (stops : Stops rest) (otherStops : Stops more)
    (same : Decimal.ofNat m ++ rest = Decimal.ofNat n ++ more) : m = n ∧ rest = more := by
  have digits := congrArg (List.takeWhile Char.isAlphanum) same
  rw [takeWhile_append (fun _ => isAlphanum_of_mem_ofNat) stops,
    takeWhile_append (fun _ => isAlphanum_of_mem_ofNat) otherStops] at digits
  have equal := Decimal.ofNat_injective digits
  rw [equal] at same
  exact ⟨equal, List.append_cancel_left same⟩

/-- A text tells the symbols that it spells, but for the literals. -/
theorem erased_of_spelled {left right : List Symbol} (spaced : Spaced left)
    (otherSpaced : Spaced right) (known : ∀ text ∈ left.filterMap Symbol.name?, text ∈ names)
    (same : spelled names number left = spelled names number right) :
    left.map Symbol.erased = right.map Symbol.erased := by
  induction left generalizing right number with
  | nil =>
      cases right with
      | nil => rfl
      | cons other more => cases other <;> simp [spelled, nameMark, valueMark] at same
  | cons symbol rest ih =>
      cases right with
      | nil => cases symbol <;> simp [spelled, nameMark, valueMark] at same
      | cons other more =>
          cases symbol with
          | char c =>
              obtain ⟨⟨notName, notValue⟩, spaced⟩ := spaced
              cases other with
              | char d =>
                  obtain ⟨equal, others⟩ := List.cons.inj same
                  rw [List.map_cons, List.map_cons, equal, ih spaced otherSpaced.2 known others]
              | name text => exact absurd (List.cons.inj same).1 notName
              | value literal => exact absurd (List.cons.inj same).1 notValue
          | name text =>
              obtain ⟨delimits, spaced⟩ := spaced
              obtain ⟨listed, known⟩ := List.forall_mem_cons.mp known
              cases other with
              | char d => exact absurd (List.cons.inj same).1.symm otherSpaced.1.1
              | name other =>
                  -- The number ends where the placeholder does, and the name is at its place.
                  obtain ⟨equal, others⟩ := ofNat_append_inj (stops_spelled delimits)
                    (stops_spelled otherSpaced.1) (List.cons.inj (List.cons.inj same).2).2
                  rw [List.map_cons, List.map_cons, (List.idxOf_inj listed).mp equal,
                    ih spaced otherSpaced.2 known others]
              | value literal => exact absurd (List.cons.inj same).1 (by decide)
          | value literal =>
              obtain ⟨delimits, spaced⟩ := spaced
              cases other with
              | char d => exact absurd (List.cons.inj same).1.symm otherSpaced.1.2
              | name text => exact absurd (List.cons.inj same).1 (by decide)
              | value other =>
                  have others := List.append_cancel_left same
                  exact congrArg (Symbol.value .null :: ·) (ih spaced otherSpaced.2 known others)

/-- The placeholders in a text: wherever the sign stands, it with the letters and digits behind. -/
def placeholdersIn (sign : Char) : List Char → List String
  | [] => []
  | c :: rest =>
      if c = sign then
        String.ofList (c :: rest.takeWhile Char.isAlphanum) :: placeholdersIn sign rest
      else placeholdersIn sign rest

theorem placeholdersIn_append (absent : sign ∉ chars) (rest : List Char) :
    placeholdersIn sign (chars ++ rest) = placeholdersIn sign rest := by
  induction chars with
  | nil => rfl
  | cons c others ih =>
      rw [List.mem_cons, not_or] at absent
      rw [List.cons_append, placeholdersIn, if_neg (Ne.symm absent.1), ih absent.2]

/-- A letter and a number behind the sign. -/
theorem placeholdersIn_mark {letter : Char} (ofLetter : letter.isAlphanum = true)
    (notSign : sign.isAlphanum = false) (number : Nat) (stops : Stops rest) :
    placeholdersIn sign (sign :: letter :: (Decimal.ofNat number ++ rest)) =
      String.ofList (sign :: letter :: Decimal.ofNat number) :: placeholdersIn sign rest := by
  have each : ∀ c ∈ letter :: Decimal.ofNat number, c.isAlphanum = true :=
    List.forall_mem_cons.mpr ⟨ofLetter, fun _ => isAlphanum_of_mem_ofNat⟩
  have absent : sign ∉ letter :: Decimal.ofNat number := by
    intro member
    rw [each sign member] at notSign
    cases notSign
  rw [placeholdersIn, if_pos rfl, ← List.cons_append, takeWhile_append each stops,
    placeholdersIn_append absent]

theorem placeholdersIn_nameMark (number : Nat) (stops : Stops rest) :
    placeholdersIn '#' (nameMark number ++ rest) =
      String.ofList (nameMark number) :: placeholdersIn '#' rest :=
  placeholdersIn_mark rfl rfl number stops

theorem placeholdersIn_valueMark (number : Nat) (stops : Stops rest) :
    placeholdersIn ':' (valueMark number ++ rest) =
      String.ofList (valueMark number) :: placeholdersIn ':' rest :=
  placeholdersIn_mark rfl rfl number stops

theorem not_mem_nameMark (number : Nat) : ':' ∉ nameMark number := by
  simp [nameMark, Decimal.not_mem_ofNat_of_not_digit (c := ':') rfl]

theorem not_mem_valueMark (number : Nat) : '#' ∉ valueMark number := by
  simp [valueMark, Decimal.not_mem_ofNat_of_not_digit (c := '#') rfl]

theorem placeholdersIn_names (spaced : Spaced symbols) (names : List String) (number : Nat) :
    placeholdersIn '#' (spelled names number symbols) =
      (symbols.filterMap Symbol.name?).map fun text =>
        String.ofList (nameMark (names.idxOf text)) := by
  induction symbols generalizing number with
  | nil => rfl
  | cons symbol rest ih =>
      cases symbol with
      | char c =>
          rw [spelled, placeholdersIn, if_neg spaced.1.1]
          exact ih spaced.2 number
      | name text =>
          rw [spelled, placeholdersIn_nameMark _ (stops_spelled spaced.1), ih spaced.2]
          rfl
      | value literal =>
          rw [spelled, placeholdersIn_append (not_mem_valueMark number)]
          exact ih spaced.2 (number + 1)

theorem placeholdersIn_values (spaced : Spaced symbols) (names : List String) (number : Nat) :
    placeholdersIn ':' (spelled names number symbols) =
      (List.range' number (symbols.filterMap Symbol.value?).length).map fun number =>
        String.ofList (valueMark number) := by
  induction symbols generalizing number with
  | nil => rfl
  | cons symbol rest ih =>
      cases symbol with
      | char c =>
          rw [spelled, placeholdersIn, if_neg spaced.1.2]
          exact ih spaced.2 number
      | name text =>
          rw [spelled, placeholdersIn_append (not_mem_nameMark _)]
          exact ih spaced.2 number
      | value literal =>
          rw [spelled, placeholdersIn_valueMark _ (stops_spelled spaced.1), ih spaced.2]
          rfl

section

variable {α : Type} {mark : Nat → List Char} (injective : Function.Injective mark)

theorem table_perm (mark : Nat → List Char) (items : List α) :
    (table mark items).Perm
      (items.zipIdx.map fun (item, number) => (String.ofList (mark number), item)) :=
  List.mergeSort_perm _ _

theorem keys_table_perm (mark : Nat → List Char) (items : List α) :
    (Dict.keys (table mark items)).Perm
      ((List.range items.length).map fun number => String.ofList (mark number)) := by
  refine ((table_perm mark items).map Prod.fst).trans (List.Perm.of_eq ?_)
  rw [List.map_map, List.range_eq_range', ← List.zipIdx_map_snd 0, List.map_map]
  rfl

theorem values_table_perm (mark : Nat → List Char) (items : List α) :
    (Dict.values (table mark items)).Perm items := by
  refine ((table_perm mark items).map Prod.snd).trans (List.Perm.of_eq ?_)
  rw [List.map_map]
  exact List.zipIdx_map_fst 0 items

theorem length_table (mark : Nat → List Char) (items : List α) :
    (table mark items).length = items.length := by
  rw [(table_perm mark items).length_eq, List.length_map, List.length_zipIdx]

include injective

theorem distinct_table (items : List α) : Dict.Distinct (table mark items) := by
  refine (keys_table_perm mark items).nodup_iff.mpr ?_
  exact List.nodup_range.map fun m n same => injective (String.ofList_injective same)

theorem get?_table (items : List α) (number : Nat) :
    Dict.get? (table mark items) (String.ofList (mark number)) = items[number]? := by
  ext item
  rw [← Dict.mem_iff_get? (distinct_table injective items), (table_perm mark items).mem_iff,
    List.mem_map]
  constructor
  · rintro ⟨⟨_, other⟩, member, same⟩
    obtain ⟨marks, rfl⟩ := Prod.mk.inj same
    cases injective (String.ofList_injective marks)
    exact List.mem_zipIdx_iff_getElem?.mp member
  · intro found
    exact ⟨(item, number), List.mem_zipIdx_iff_getElem?.mpr found, rfl⟩

theorem table_inj {items others : List α} (same : table mark items = table mark others) :
    items = others := by
  apply List.ext_getElem?
  intro number
  rw [← get?_table injective, same, get?_table injective]

end

end Placeholders

end DataAccess.KeyValue
