import DataAccess.Comparison
import DataAccess.Value
import Mathlib.Data.List.Forall2
import Mathlib.Data.List.Infix

/-!
# Symbols of conditions

Before names and literals are spelled out or numbered, a condition is a list of characters, names and
literals. Where none of the phrases that may stand somewhere begins another, it is known where a
phrase ends. So the members of a group are told apart if each can be read on its own.
-/

namespace DataAccess

/-- What a condition is written with: characters, and names and values as units. -/
inductive Symbol
  | char (c : Char)
  | name (name : String)
  | value (value : Value)

namespace Symbol

def name? : Symbol → Option String
  | .name found => some found
  | _ => none

def value? : Symbol → Option Value
  | .value found => some found
  | _ => none

def erased : Symbol → Symbol
  | .value _ => .value .null
  | symbol => symbol

theorem eq_of_erased {left right : List Symbol} (same : left.map erased = right.map erased)
    (values : left.filterMap value? = right.filterMap value?) : left = right := by
  induction left generalizing right with
  | nil =>
      cases right with
      | nil => rfl
      | cons symbol rest => cases same
  | cons symbol rest ih =>
      cases right with
      | nil => cases same
      | cons other more =>
          obtain ⟨first, others⟩ := List.cons.inj same
          cases symbol with
          | char c =>
              cases other with
              | char d =>
                  cases first
                  exact congrArg (Symbol.char c :: ·) (ih others values)
              | name | value => cases first
          | name column =>
              cases other with
              | name column =>
                  cases first
                  exact congrArg (Symbol.name column :: ·) (ih others values)
              | char | value => cases first
          | value literal =>
              cases other with
              | value literal =>
                  obtain ⟨same, values⟩ := List.cons.inj values
                  rw [same, ih others values]
              | char | name => cases first

def letters (text : String) : List Symbol := text.toList.map .char

theorem letters_erased (text : String) : (letters text).map erased = letters text := by
  simp [letters, erased]

theorem letters_values (text : String) : (letters text).filterMap value? = [] := by
  simp [letters, List.filterMap_map, Function.comp_def, value?]

/-- No phrase begins another. -/
def PrefixFree (phrases : List String) : Prop :=
  ∀ phrase ∈ phrases, ∀ other ∈ phrases,
    phrase.toList.isPrefixOf other.toList = true → phrase = other

instance (phrases : List String) : Decidable (PrefixFree phrases) :=
  inferInstanceAs (Decidable (∀ phrase ∈ phrases, ∀ other ∈ phrases, _))

section

variable {phrases : List String} (prefixFree : PrefixFree phrases)
variable {phrase other : String} (ofPhrase : phrase ∈ phrases) (ofOther : other ∈ phrases)

include prefixFree ofPhrase ofOther

theorem eq_of_begins (begins : letters phrase <+: letters other) : phrase = other := by
  obtain ⟨front, isPrefix, same⟩ := List.prefix_map_iff.mp begins
  have whole : phrase.toList = front :=
    List.map_injective_iff.mpr (fun _ _ equal => Symbol.char.inj equal) same
  exact prefixFree phrase ofPhrase other ofOther
    (List.isPrefixOf_iff_prefix.mpr (whole ▸ isPrefix))

theorem letters_append_inj {rest more : List Symbol}
    (same : letters phrase ++ rest = letters other ++ more) : phrase = other ∧ rest = more := by
  have begins : letters phrase <+: letters other ++ more := same ▸ List.prefix_append _ _
  have equal : phrase = other := by
    rcases List.prefix_or_prefix_of_prefix begins (List.prefix_append _ _) with shorter | longer
    · exact eq_of_begins prefixFree ofPhrase ofOther shorter
    · exact (eq_of_begins prefixFree ofOther ofPhrase longer).symm
  subst equal
  exact ⟨rfl, List.append_cancel_left same⟩

end

theorem operator_injective {op other : Comparison}
    (same : " " ++ op.symbol ++ " " = " " ++ other.symbol ++ " ") : op = other := by
  revert same
  cases op <;> cases other <;> decide

/-- What is written between the members of groups. -/
def separators : List String := [" AND ", " OR "]

/-- What is written behind a member of a group. -/
def delimiters : List String := ")" :: separators

theorem delimiters_prefixFree : PrefixFree delimiters := by
  decide

theorem closing_not_separator : ∀ separator ∈ separators, ")" ≠ separator := by
  decide

/-- What stands behind a member: the members that follow, and what closes the group. -/
def behindMember (separator : String) : List (List Symbol) → List Symbol
  | [] => letters ")"
  | next :: members => letters separator ++ (next ++ behindMember separator members)

/-- The members of a group, and what closes it. -/
def inGroup (separator : String) : List (List Symbol) → List Symbol
  | [] => letters ")"
  | member :: members => member ++ behindMember separator members

theorem behindMember_cons (separator : String) (next : List Symbol) (members : List (List Symbol)) :
    behindMember separator (next :: members) =
      letters separator ++ inGroup separator (next :: members) := rfl

theorem inGroup_cons_cons (separator : String) (member next : List Symbol)
    (members : List (List Symbol)) :
    inGroup separator (member :: next :: members) =
      member ++ (letters separator ++ inGroup separator (next :: members)) := rfl

theorem inGroup_erased (separator : String) (members : List (List Symbol)) :
    (inGroup separator members).map erased =
      inGroup separator (members.map (List.map erased)) := by
  induction members with
  | nil => exact letters_erased ")"
  | cons member members ih =>
      cases members with
      | nil => rw [inGroup, behindMember, List.map_append, letters_erased]; rfl
      | cons next members =>
          rw [inGroup_cons_cons, List.map_append, List.map_append, letters_erased, ih]
          rfl

theorem inGroup_values (separator : String) (members : List (List Symbol)) :
    (inGroup separator members).filterMap value? = members.flatMap (List.filterMap value?) := by
  induction members with
  | nil => exact letters_values ")"
  | cons member members ih =>
      cases members with
      | nil => simp [inGroup, behindMember, letters_values]
      | cons next members =>
          rw [inGroup_cons_cons, List.filterMap_append, List.filterMap_append, letters_values, ih]
          rfl

section

variable {separator between : String} (ofSeparator : separator ∈ separators)
variable (ofBetween : between ∈ separators) {rest more : List Symbol}

include ofSeparator ofBetween

/-- What stands behind a member tells whether it is the last, and if not, which group this is. -/
theorem behindMember_cases {members others : List (List Symbol)}
    (same : behindMember separator members ++ rest = behindMember between others ++ more) :
    members = [] ∧ others = [] ∧ rest = more ∨
      members ≠ [] ∧ others ≠ [] ∧ separator = between ∧
        inGroup separator members ++ rest = inGroup between others ++ more := by
  have closes : ")" ∈ delimiters := List.mem_cons_self
  have goesOn := List.mem_cons_of_mem ")" ofSeparator
  have otherGoesOn := List.mem_cons_of_mem ")" ofBetween
  cases members with
  | nil =>
      cases others with
      | nil =>
          exact .inl ⟨rfl, rfl, (letters_append_inj delimiters_prefixFree closes closes same).2⟩
      | cons next others =>
          rw [behindMember, behindMember, List.append_assoc] at same
          have equal := (letters_append_inj delimiters_prefixFree closes otherGoesOn same).1
          exact absurd equal (closing_not_separator between ofBetween)
  | cons next members =>
      cases others with
      | nil =>
          rw [behindMember, behindMember, List.append_assoc] at same
          have equal := (letters_append_inj delimiters_prefixFree goesOn closes same).1
          exact absurd equal.symm (closing_not_separator separator ofSeparator)
      | cons second others =>
          rw [behindMember_cons, behindMember_cons, List.append_assoc, List.append_assoc] at same
          obtain ⟨shared, same⟩ :=
            letters_append_inj delimiters_prefixFree goesOn otherGoesOn same
          exact .inr ⟨List.cons_ne_nil _ _, List.cons_ne_nil _ _, shared, same⟩

end

section

variable {α β : Type} {spells : α → List Symbol → Prop} {meaning : α → β}
variable {ends : List Symbol → Prop}

/-- Whatever is written behind this item, another item that begins the same text means the same, and
the same is written behind. -/
def Readable (spells : α → List Symbol → Prop) (meaning : α → β) (ends : List Symbol → Prop)
    (left : α) : Prop :=
  ∀ ⦃right : α⦄ ⦃ours theirs rest more : List Symbol⦄,
    spells left ours → spells right theirs → ends rest → ends more →
      ours ++ rest = theirs ++ more → meaning left = meaning right ∧ rest = more

/-- Members are read one by one. -/
theorem readable_members {separator between : String} {rest more : List Symbol}
    (ofSeparator : separator ∈ separators) (ofBetween : between ∈ separators)
    (delimits : ∀ delimiter ∈ delimiters, ∀ behind, ends (letters delimiter ++ behind))
    {members others : List α} {ofMembers ofOthers : List (List Symbol)}
    (each : ∀ member ∈ members, Readable spells meaning ends member)
    (first : List.Forall₂ spells members ofMembers)
    (second : List.Forall₂ spells others ofOthers)
    (nonempty : ofMembers ≠ []) (othersNonempty : ofOthers ≠ [])
    (same : inGroup separator ofMembers ++ rest = inGroup between ofOthers ++ more) :
    members.map meaning = others.map meaning ∧ rest = more ∧
      (members.length = 1 ∨ separator = between) := by
  have behind_ends {separator : String} (ofSeparator : separator ∈ separators)
      (members : List (List Symbol)) (rest : List Symbol) :
      ends (behindMember separator members ++ rest) := by
    cases members with
    | nil => exact delimits ")" List.mem_cons_self rest
    | cons next members =>
        rw [behindMember, List.append_assoc]
        exact delimits separator (List.mem_cons_of_mem _ ofSeparator) _
  induction first generalizing others ofOthers with
  | nil => exact absurd rfl nonempty
  | @cons member _ members ofRest spelled spelledRest ih =>
      cases second with
      | nil => exact absurd rfl othersNonempty
      | @cons other _ others ofOther spelledOther spelledOthers =>
          rw [inGroup, inGroup, List.append_assoc, List.append_assoc] at same
          obtain ⟨equal, behind⟩ := each member List.mem_cons_self spelled spelledOther
            (behind_ends ofSeparator _ _) (behind_ends ofBetween _ _) same
          obtain ⟨rfl, rfl, finished⟩ | ⟨further, othersFurther, shared, behind⟩ :=
            behindMember_cases ofSeparator ofBetween behind
          · cases spelledRest
            cases spelledOthers
            exact ⟨congrArg (fun one => [one]) equal, finished, .inl rfl⟩
          · have eachOfRest : ∀ next ∈ members, Readable spells meaning ends next :=
              fun next inRest => each next (List.mem_cons_of_mem member inRest)
            obtain ⟨alike, finished, _⟩ := ih eachOfRest spelledOthers further othersFurther behind
            exact ⟨congrArg₂ List.cons equal alike, finished, .inr shared⟩

end

end Symbol

end DataAccess
