import DataAccess.Proofs.Compilation
import DataAccess.Proofs.Sql.Alignment
import DataAccess.Proofs.Sql.Erasure
import DataAccess.Proofs.Symbol

namespace DataAccess

namespace Filter

/-- A disjunction, which with a single member is taken for a conjunction. -/
def disjunction : List Filter → Filter
  | [member] => .allOf [member]
  | members => .anyOf members

mutual

/-- The filter with all groups of one member being of one kind. -/
def unified : Filter → Filter
  | .allOf members => .allOf (unifiedAll members)
  | .anyOf members => disjunction (unifiedAll members)
  | test => test

def unifiedAll : List Filter → List Filter
  | [] => []
  | member :: rest => unified member :: unifiedAll rest

end

theorem unifiedAll_eq (members : List Filter) : unifiedAll members = members.map unified := by
  induction members with
  | nil => rfl
  | cons member rest ih => rw [unifiedAll, ih, List.map_cons]

theorem disjunction_cons (member next : Filter) (rest : List Filter) :
    disjunction (member :: next :: rest) = .anyOf (member :: next :: rest) := rfl

theorem disjunction_of_length {members : List Filter} (single : members.length = 1) :
    disjunction members = .allOf members := by
  obtain ⟨member, rfl⟩ := List.length_eq_one_iff.mp single
  rfl

end Filter

namespace Sql

open Statement
open DataAccess.Symbol (letters letters_erased letters_values PrefixFree letters_append_inj
  separators operator_injective inGroup behindMember readable_members)

def Lexeme.symbol : Lexeme → Symbol
  | .char c => .char c
  | .name found => .name found
  | .mark _ => .value .null

namespace Statement

def symbols : Statement → List Symbol
  | [] => []
  | .text text :: rest => letters text ++ symbols rest
  | .identifier name :: rest => .name name :: symbols rest
  | .value value :: rest => .value value :: symbols rest

theorem symbols_append (left right : Statement) :
    symbols (left ++ right) = symbols left ++ symbols right := by
  induction left with
  | nil => rfl
  | cons piece rest ih => cases piece <;> simp [symbols, ih]

theorem symbols_erased (statement : Statement) :
    symbols (erased statement) = (symbols statement).map Symbol.erased := by
  induction statement with
  | nil => rfl
  | cons piece rest ih =>
      cases piece with
      | text text =>
          rw [symbols, List.map_append, letters_erased, ← ih]
          rfl
      | identifier name => exact congrArg (Symbol.name name :: ·) ih
      | value value => exact congrArg (Symbol.value .null :: ·) ih

theorem parameters_eq_values (statement : Statement) :
    parameters statement = (symbols statement).filterMap Symbol.value? := by
  induction statement with
  | nil => rfl
  | cons piece rest ih =>
      cases piece with
      | text text =>
          rw [symbols, List.filterMap_append, letters_values, List.nil_append]
          exact ih
      | identifier name => exact ih
      | value value => exact congrArg (value :: ·) ih

theorem symbols_of_lexemes (flavor : Flavor) (first : Nat) (statement : Statement) :
    (lexemes flavor first statement).map Lexeme.symbol = symbols (erased statement) := by
  induction statement generalizing first with
  | nil => rfl
  | cons piece rest ih =>
      cases piece with
      | text text =>
          rw [lexemes, List.map_append, List.map_map]
          exact congrArg (letters text ++ ·) (ih first)
      | identifier name => exact congrArg (Symbol.name name :: ·) (ih first)
      | value value => exact congrArg (Symbol.value .null :: ·) (ih (first + 1))

end Statement

/-- What is written behind the name that a test begins with. -/
def phrases : List String :=
  Comparison.all.map (fun op => " " ++ op.symbol ++ " ") ++
    [" IS NULL", " IS NOT NULL"]

theorem mem_phrases (op : Comparison) : " " ++ op.symbol ++ " " ∈ phrases :=
  List.mem_append_left _ (List.mem_map_of_mem op.mem_all)

theorem null_ne_notNull : " IS NULL" ≠ " IS NOT NULL" := by decide

theorem operator_ne_null (op : Comparison) :
    " " ++ op.symbol ++ " " ≠ " IS NULL" ∧ " " ++ op.symbol ++ " " ≠ " IS NOT NULL" := by
  cases op <;> decide

variable {phrase other : String} {rest more : List Symbol}

theorem phrases_prefixFree : PrefixFree phrases := by
  decide

theorem phrase_ends (ofPhrase : phrase ∈ phrases) (ofOther : other ∈ phrases)
    (same : letters phrase ++ rest = letters other ++ more) : phrase = other ∧ rest = more :=
  letters_append_inj phrases_prefixFree ofPhrase ofOther same

/-- The name that a test begins with, the phrase behind it, and what follows. -/
def testParts : Filter → String × String × List Symbol
  | .compare field op value => (field, " " ++ op.symbol ++ " ", [.value value])
  | .compareFields left op right => (left, " " ++ op.symbol ++ " ", [.name right])
  | .isNull field => (field, " IS NULL", [])
  | .isNotNull field => (field, " IS NOT NULL", [])
  | .allOf _ => ("", "", [])
  | .anyOf _ => ("", "", [])

variable {left right test : Filter} {statement ours theirs : Statement}

theorem symbols_test (isTest : test.IsTest) (compiled : condition test = .ok statement) :
    symbols statement =
      .name (testParts test).1 :: (letters (testParts test).2.1 ++ (testParts test).2.2) := by
  cases test with
  | compare | compareFields | isNull | isNotNull => cases compiled; simp [symbols, testParts]
  | allOf | anyOf => cases isTest

theorem testPhrase_mem (isTest : test.IsTest) : (testParts test).2.1 ∈ phrases := by
  cases test with
  | compare field op value => exact mem_phrases op
  | compareFields left op right => exact mem_phrases op
  | isNull field => exact (by decide : " IS NULL" ∈ phrases)
  | isNotNull field => exact (by decide : " IS NOT NULL" ∈ phrases)
  | allOf | anyOf => cases isTest

theorem test_of_parts (ofLeft : left.IsTest) (ofRight : right.IsTest)
    (names : (testParts left).1 = (testParts right).1)
    (same : (testParts left).2.1 = (testParts right).2.1)
    (behind : (testParts left).2.2 ++ rest = (testParts right).2.2 ++ more) :
    left = right ∧ rest = more := by
  cases left with
  | compare field op value =>
      cases right with
      | compare other opposite literal =>
          simp_all [testParts, operator_injective same]
      | compareFields => cases behind
      | isNull => exact absurd same (operator_ne_null op).1
      | isNotNull => exact absurd same (operator_ne_null op).2
      | allOf | anyOf => cases ofRight
  | compareFields field op second =>
      cases right with
      | compareFields other opposite third =>
          simp_all [testParts, operator_injective same]
      | compare => cases behind
      | isNull => exact absurd same (operator_ne_null op).1
      | isNotNull => exact absurd same (operator_ne_null op).2
      | allOf | anyOf => cases ofRight
  | isNull field =>
      cases right with
      | compare _ op => exact absurd same.symm (operator_ne_null op).1
      | compareFields _ op => exact absurd same.symm (operator_ne_null op).1
      | isNull other => exact ⟨congrArg Filter.isNull names, behind⟩
      | isNotNull => exact absurd same null_ne_notNull
      | allOf | anyOf => cases ofRight
  | isNotNull field =>
      cases right with
      | compare _ op => exact absurd same.symm (operator_ne_null op).2
      | compareFields _ op => exact absurd same.symm (operator_ne_null op).2
      | isNull => exact absurd same.symm null_ne_notNull
      | isNotNull other => exact ⟨congrArg Filter.isNotNull names, behind⟩
      | allOf | anyOf => cases ofRight
  | allOf | anyOf => cases ofLeft

/-- The symbols of the condition of a filter. -/
def Spells (filter : Filter) (written : List Symbol) : Prop :=
  ∃ statement, condition filter = .ok statement ∧ symbols statement = written

/-- Whatever is written behind the condition of this filter, it is told from other filters. -/
def Readable : Filter → Prop := Symbol.Readable Spells Filter.unified fun _ => True

theorem symbols_separated (separator : String) (members : List Statement) :
    symbols (separated separator members) ++ letters ")" =
      inGroup separator (members.map symbols) := by
  induction members with
  | nil => rfl
  | cons member rest ih =>
      cases rest with
      | nil => rfl
      | cons next members =>
          have split : separated separator (member :: next :: members) =
              member ++ .text separator :: separated separator (next :: members) := rfl
          rw [split, symbols_append, symbols, List.append_assoc, List.append_assoc, ih]
          rfl

theorem symbols_group (separator : String) (members : List Statement) :
    symbols (.text "(" :: (separated separator members ++ [.text ")"])) =
      letters "(" ++ inGroup separator (members.map symbols) := by
  rw [symbols, symbols_append, ← symbols_separated]
  simp [symbols]

/-- A group of these members, between which this separator is written. -/
def IsGroup (separator : String) (members : List Filter) (filter : Filter) : Prop :=
  separator = " AND " ∧ filter = .allOf members ∨ separator = " OR " ∧ filter = .anyOf members

variable {separator between : String} {members others : List Filter} {filter : Filter}

theorem exists_isGroup (notTest : ¬ filter.IsTest) :
    ∃ separator members, IsGroup separator members filter := by
  cases filter with
  | compare | compareFields | isNull | isNotNull => exact absurd trivial notTest
  | allOf members => exact ⟨_, members, .inl ⟨rfl, rfl⟩⟩
  | anyOf members => exact ⟨_, members, .inr ⟨rfl, rfl⟩⟩

theorem IsGroup.separator_mem (group : IsGroup separator members filter) :
    separator ∈ separators := by
  rcases group with ⟨rfl, _⟩ | ⟨rfl, _⟩ <;> decide

theorem IsGroup.parts (group : IsGroup separator members filter)
    (compiled : condition filter = .ok statement) :
    ∃ written, written ≠ [] ∧ List.Forall₂ Spells members written ∧
      symbols statement = letters "(" ++ inGroup separator written := by
  rcases group with ⟨rfl, rfl⟩ | ⟨rfl, rfl⟩ <;> rw [condition] at compiled
  all_goals
    obtain ⟨_, nonempty, compiled⟩ := bind_eq_ok.mp compiled
    obtain ⟨statements, ofMembers, same⟩ := bind_eq_ok.mp compiled
    have each := conditions_forall₂ (fun _ _ _ found => found) ofMembers
    refine ⟨statements.map symbols, ?_, ?_, by rw [← pure_eq_ok.mp same, symbols_group]⟩
    · intro empty
      cases List.map_eq_nil_iff.mp empty
      cases each
      exact Filter.nonempty_eq_ok.mp nonempty rfl
    · exact List.forall₂_map_right_iff.mpr (each.imp fun _ _ compiled => ⟨_, compiled, rfl⟩)

theorem unified_of_members (group : IsGroup separator members left)
    (other : IsGroup between others right)
    (same : members.map Filter.unified = others.map Filter.unified)
    (kinds : members.length = 1 ∨ separator = between) : left.unified = right.unified := by
  have single (kinds : members.length = 1) :
      Filter.disjunction (others.map Filter.unified) = .allOf (others.map Filter.unified) :=
    Filter.disjunction_of_length (by rw [← same, List.length_map, kinds])
  rcases group with ⟨rfl, rfl⟩ | ⟨rfl, rfl⟩ <;> rcases other with ⟨rfl, rfl⟩ | ⟨rfl, rfl⟩ <;>
    simp only [Filter.unified, Filter.unifiedAll_eq, same]
  · exact (single (kinds.resolve_right (by decide))).symm
  · exact single (kinds.resolve_right (by decide))

/-- A group begins with a parenthesis, a test with a name. -/
theorem test_ne_group (isTest : test.IsTest) (ofTest : condition test = .ok ours)
    (group : IsGroup separator members filter) (ofGroup : condition filter = .ok theirs) :
    symbols ours ++ rest ≠ symbols theirs ++ more := by
  obtain ⟨statements, _, _, written⟩ := group.parts ofGroup
  rw [symbols_test isTest ofTest, written]
  intro same
  cases same

theorem readable_test (isTest : test.IsTest) : Readable test := by
  intro right _ _ rest more ⟨ours, compiled, written⟩ ⟨theirs, compiledRight, otherWritten⟩ _ _ same
  rw [← written, ← otherWritten] at same
  by_cases ofRight : right.IsTest
  · rw [symbols_test isTest compiled, symbols_test ofRight compiledRight] at same
    simp only [List.cons_append, List.append_assoc] at same
    obtain ⟨names, behind⟩ := List.cons.inj same
    obtain ⟨phrase, behind⟩ := phrase_ends (testPhrase_mem isTest) (testPhrase_mem ofRight) behind
    obtain ⟨equal, ends⟩ := test_of_parts isTest ofRight (Symbol.name.inj names) phrase behind
    exact ⟨congrArg Filter.unified equal, ends⟩
  · obtain ⟨separator, members, group⟩ := exists_isGroup ofRight
    exact absurd same (test_ne_group isTest compiled group compiledRight)

theorem readable_group (group : IsGroup separator members left)
    (each : ∀ member ∈ members, Readable member) : Readable left := by
  intro right _ _ rest more ⟨ours, compiled, spelled⟩ ⟨theirs, compiledRight, otherSpelled⟩ _ _ same
  rw [← spelled, ← otherSpelled] at same
  by_cases ofRight : right.IsTest
  · exact absurd same.symm (test_ne_group ofRight compiledRight group compiled)
  · obtain ⟨between, others, other⟩ := exists_isGroup ofRight
    obtain ⟨ofMembers, nonempty, first, written⟩ := group.parts compiled
    obtain ⟨ofOthers, othersNonempty, second, otherWritten⟩ := other.parts compiledRight
    rw [written, otherWritten, List.append_assoc, List.append_assoc] at same
    obtain ⟨alike, ends, kinds⟩ := readable_members group.separator_mem other.separator_mem
      (fun _ _ _ => trivial) each first second nonempty othersNonempty
      (List.append_cancel_left same)
    exact ⟨unified_of_members group other alike kinds, ends⟩

theorem readable (filter : Filter) : Readable filter := by
  induction filter using Filter.nested_induction with
  | compare | compareFields | isNull | isNotNull => exact readable_test trivial
  | allOf members ih => exact readable_group (.inl ⟨rfl, rfl⟩) ih
  | anyOf members ih => exact readable_group (.inr ⟨rfl, rfl⟩) ih

theorem conditions_unified {members : List Filter}
    (each : ∀ member ∈ members, condition member.unified = condition member) :
    conditions (members.map Filter.unified) = conditions members := by
  induction members with
  | nil => rfl
  | cons member rest ih =>
      rw [List.map_cons, conditions, conditions, each member (by simp),
        ih fun other inRest => each other (by simp [inRest])]

/-- Between the members of a group of one, no separator is written. -/
theorem condition_unified (filter : Filter) : condition filter.unified = condition filter := by
  induction filter using Filter.nested_induction with
  | compare | compareFields | isNull | isNotNull => rfl
  | allOf members ih =>
      rw [Filter.unified, Filter.unifiedAll_eq, condition, condition, conditions_unified ih]
      cases members <;> rfl
  | anyOf members ih =>
      have same := conditions_unified ih
      rw [Filter.unified, Filter.unifiedAll_eq]
      cases members with
      | nil => rfl
      | cons member rest =>
          cases rest with
          | nil =>
              rw [List.map_cons, List.map_nil] at same ⊢
              rw [Filter.disjunction, condition, condition, same, conditions, conditions]
              cases condition member <;> rfl
          | cons next more =>
              rw [List.map_cons, List.map_cons] at same ⊢
              rw [Filter.disjunction_cons, condition, condition, same]
              rfl

theorem unified_of_symbols (ofLeft : condition left = .ok ours)
    (ofRight : condition right = .ok theirs) (same : symbols ours = symbols theirs) :
    left.unified = right.unified :=
  (readable left ⟨_, ofLeft, rfl⟩ ⟨_, ofRight, rfl⟩ trivial trivial (congrArg (· ++ []) same)).1

variable (flavor : Flavor) (first : Nat)

theorem symbols_of_render (ofLeft : condition left = .ok ours)
    (ofRight : condition right = .ok theirs)
    (same : render flavor first ours = render flavor first theirs) :
    symbols (erased ours) = symbols (erased theirs) := by
  rw [← symbols_of_lexemes flavor first ours, ← symbols_of_lexemes flavor first theirs,
    ← lexemes_render flavor first (binds_condition ofLeft).spaced,
    ← lexemes_render flavor first (binds_condition ofRight).spaced, same]

theorem condition_of_erased (compiled : condition filter = .ok statement) :
    condition filter.erased = .ok (erased statement) := by
  rw [condition_erased, compiled]
  rfl

theorem render_eq_iff (ofLeft : condition left = .ok ours) (ofRight : condition right = .ok theirs) :
    render flavor first ours = render flavor first theirs ↔
      left.erased.unified = right.erased.unified := by
  have leftErased := condition_of_erased ofLeft
  have rightErased := condition_of_erased ofRight
  constructor
  · intro same
    exact unified_of_symbols leftErased rightErased
      (symbols_of_render flavor first ofLeft ofRight same)
  · intro same
    rw [← condition_unified, same, condition_unified, rightErased] at leftErased
    rw [← render_erased, ← Except.ok.inj leftErased, render_erased]

theorem fragment_eq_iff (ofLeft : condition left = .ok ours)
    (ofRight : condition right = .ok theirs) :
    ours.fragment flavor first = theirs.fragment flavor first ↔ left.unified = right.unified := by
  constructor
  · intro same
    obtain ⟨clauses, parameters⟩ := Fragment.mk.inj same
    have texts := symbols_of_render flavor first ofLeft ofRight (String.ofList_injective clauses)
    rw [symbols_erased, symbols_erased] at texts
    rw [parameters_eq_values, parameters_eq_values] at parameters
    exact unified_of_symbols ofLeft ofRight (Symbol.eq_of_erased texts parameters)
  · intro same
    rw [← condition_unified, same, condition_unified, ofRight] at ofLeft
    rw [Except.ok.inj ofLeft]

/-- Valid filters have the same clause exactly if they are the same filter over the same columns, but
for their literals and for the kind of groups with one member; and the same clause with the same
parameters exactly if their literals are the same too. -/
theorem clause_determines_filter (columnOf : String → String) {left right : Filter}
    (ofLeft : left.validate = .ok ()) (ofRight : right.validate = .ok ()) :
    ∃ ours theirs,
      (condition? (some (left.rename columnOf))).map (fragment flavor first) = .ok ours ∧
      (condition? (some (right.rename columnOf))).map (fragment flavor first) = .ok theirs ∧
      (ours.clause = theirs.clause ↔
        (left.rename columnOf).erased.unified = (right.rename columnOf).erased.unified) ∧
      (ours = theirs ↔ (left.rename columnOf).unified = (right.rename columnOf).unified) := by
  obtain ⟨ours, leftCompiled⟩ := compiles.exists_result columnOf ofLeft
  obtain ⟨theirs, rightCompiled⟩ := compiles.exists_result columnOf ofRight
  refine ⟨ours.fragment flavor first, theirs.fragment flavor first, ?_, ?_, ?_, ?_⟩
  · rw [condition?, leftCompiled]
    rfl
  · rw [condition?, rightCompiled]
    rfl
  · rw [← render_eq_iff flavor first leftCompiled rightCompiled]
    exact ⟨String.ofList_injective, congrArg String.ofList⟩
  · exact fragment_eq_iff flavor first leftCompiled rightCompiled

/-- A group of tests of columns whose names read like conditions. -/
def hostile (value : Value) : Filter :=
  .allOf [.compare "a\" = ? AND \"b" .equal value, .isNull ") OR ("]

/-- The kind of a group with one member, and a literal, are not seen in a clause; the literal is in
its parameters. -/
theorem hostile_names_are_read :
    (Filter.anyOf [hostile .null]).validate = .ok () ∧
    (Filter.allOf [hostile (.string "?")]).validate = .ok () ∧
    ∃ ours theirs,
      (condition? (some (Filter.anyOf [hostile .null]))).map (fragment .sqlite 1) = .ok ours ∧
      (condition? (some (Filter.allOf [hostile (.string "?")]))).map (fragment .sqlite 1) =
        .ok theirs ∧
      ours.clause = "((\"a\"\" = ? AND \"\"b\" = ? AND \") OR (\" IS NULL))" ∧
      ours.clause = theirs.clause ∧ ours ≠ theirs := by
  refine ⟨rfl, rfl, ?_⟩
  obtain ⟨ours, theirs, left, right, clauses, fragments⟩ :=
    @clause_determines_filter .sqlite 1 id (.anyOf [hostile .null])
      (.allOf [hostile (.string "?")]) rfl rfl
  refine ⟨ours, theirs, left, right, ?_, clauses.mpr rfl, fun same => ?_⟩
  · rw [← Except.ok.inj left]
    decide
  · have literals := fragments.mp same
    simp [hostile, Filter.rename, Filter.renameAll, Filter.unified, Filter.unifiedAll,
      Filter.disjunction] at literals

end Sql

end DataAccess
