import DataAccess.Proofs.Path
import DataAccess.Proofs.Path.Keys
import DataAccess.Proofs.Path.Lens

/-!
# The grammar of paths

A path is a list of segments with points between them. A segment is a name with markers behind it,
and the first one may be markers alone. Parsing accepts what is spelled like this, and nothing else,
with the steps that it spells; and every list of steps that some path has is read back from its own
spelling.
-/

namespace DataAccess.Path

variable {first : Bool} {text rest segment inner : List Char} {pieces : List (List Char)}
variable {step : Step} {steps others : List Step} {path : String}

/-- What may stand between brackets: the digits of a position, or nothing. -/
inductive Content : List Char → Step → Prop
  | position {digits : List Char} (nonempty : digits ≠ [])
      (decimal : ∀ c ∈ digits, c.isDigit = true)
      (bounded : Nat.ofDigitChars 10 digits 0 < Decimal.positionLimit) :
      Content digits (.index (Nat.ofDigitChars 10 digits 0))
  | nothing : Content [] .append

/-- Markers, one behind the other. -/
inductive Markers : List Char → List Step → Prop
  | none : Markers [] []
  | cons {inner rest : List Char} {step : Step} {steps : List Step} (content : Content inner step)
      (behind : Markers rest steps) : Markers ('[' :: (inner ++ ']' :: rest)) (step :: steps)

/-- What stands between two points. The first segment of a path may lack a name. -/
inductive Segment : Bool → List Char → List Step → Prop
  | named {first : Bool} {name : String} {text : List Char} {steps : List Step}
      (plain : Plain name) (markers : Markers text steps) :
      Segment first (name.toList ++ text) (.key name :: steps)
  | unnamed {text : List Char} {steps : List Step} (nonempty : text ≠ [])
      (markers : Markers text steps) : Segment true text steps

/-- Segments with points between them. -/
inductive Segments : Bool → List Char → List Step → Prop
  | last {first : Bool} {text : List Char} {steps : List Step} (segment : Segment first text steps) :
      Segments first text steps
  | more {first : Bool} {text rest : List Char} {steps others : List Step}
      (segment : Segment first text steps) (behind : Segments false rest others) :
      Segments first (text ++ '.' :: rest) (steps ++ others)

/-- The path is spelled well and has these steps, of which only the last one may append. -/
structure Spells (path : String) (steps : List Step) : Prop where
  segments : Segments true path.toList steps
  final : .append ∉ steps.dropLast

theorem parseMarker_of_content (content : Content inner step) : parseMarker inner = .ok step := by
  cases content with
  | position nonempty decimal bounded =>
      have notEmpty : inner.isEmpty = false := by simpa using nonempty
      have digits : inner.all Decimal.isDigit = true := List.all_eq_true.mpr decimal
      simp [parseMarker, Decimal.toNat?, notEmpty, digits, bounded]
  | nothing => rfl

theorem content_of_parseMarker (parsed : parseMarker inner = .ok step) : Content inner step := by
  rw [parseMarker] at parsed
  split at parsed
  · rename_i empty
    cases parsed
    exact List.isEmpty_iff.mp empty ▸ .nothing
  · rename_i notEmpty
    split at parsed
    · rename_i position number
      rw [Decimal.toNat?] at number
      split at number
      · cases number
      · rename_i digits
        cases number
        split at parsed
        · rename_i bounded
          cases parsed
          refine .position (by simpa using notEmpty) ?_ bounded
          simpa [notEmpty, Decimal.isDigit] using digits
        · cases parsed
    · cases parsed

theorem not_mem_of_content {c : Char} (content : Content inner step) (other : c.isDigit = false) :
    c ∉ inner := by
  cases content with
  | position nonempty decimal bounded =>
      intro member
      rw [decimal c member] at other
      cases other
  | nothing => exact List.not_mem_nil

theorem markers_of_parseMarkers (parsed : parseMarkers pieces = .ok steps) :
    Markers ([']'].intercalate pieces) steps := by
  fun_induction parseMarkers pieces generalizing steps with
  | case1 | case2 =>
      cases parsed
      exact .none
  | case3 | case5 => cases parsed
  | case4 inner rest more ih =>
      obtain ⟨step, content, continued⟩ := bind_eq_ok.mp parsed
      obtain ⟨behind, ofRest, result⟩ := bind_eq_ok.mp continued
      cases pure_eq_ok.mp result
      cases rest with
      | nil => exact absurd rfl more
      | cons next rest =>
          rw [List.intercalate_cons_cons]
          simpa using Markers.cons (content_of_parseMarker content) (ih ofRest)

theorem parseMarkers_of_markers (markers : Markers text steps) :
    parseMarkers (text.splitOn ']') = .ok steps := by
  induction markers with
  | none => rfl
  | @cons inner rest step steps content behind ih =>
      have unclosed : ']' ∉ '[' :: inner := by
        simpa using not_mem_of_content content (c := ']') (by decide)
      have pieces : ('[' :: (inner ++ ']' :: rest)).splitOn ']' =
          ('[' :: inner) :: rest.splitOn ']' := by
        rw [← List.cons_append, List.splitOn_append_cons_self, List.splitOn_eq_singleton unclosed]
        rfl
      have more : (rest.splitOn ']').isEmpty = false := by simp
      rw [pieces, parseMarkers, more, parseMarker_of_content content, ok_bind, ih]
      rfl

theorem parseMarkers_splitOn : parseMarkers (text.splitOn ']') = .ok steps ↔ Markers text steps := by
  refine ⟨fun parsed => ?_, parseMarkers_of_markers⟩
  have markers := markers_of_parseMarkers parsed
  rwa [List.intercalate_splitOn] at markers

theorem Markers.opened (markers : Markers text steps) : text = [] ∨ ∃ rest, text = '[' :: rest := by
  cases markers with
  | none => exact .inl rfl
  | cons content behind => exact .inr ⟨_, rfl⟩

theorem Markers.undotted (markers : Markers text steps) : '.' ∉ text := by
  induction markers with
  | none => exact List.not_mem_nil
  | cons content behind ih =>
      have inside := not_mem_of_content content (c := '.') (by decide)
      simp [inside, ih]

theorem Segment.undotted (ofSegment : Segment first segment steps) : '.' ∉ segment := by
  cases ofSegment with
  | named plain markers => simp [plain.undotted, markers.undotted]
  | unnamed nonempty markers => exact markers.undotted

theorem segment_of_parseSegment (undotted : '.' ∉ segment)
    (parsed : parseSegment first segment = .ok steps) : Segment first segment steps := by
  have whole : segment.takeWhile (· ≠ '[') ++ segment.dropWhile (· ≠ '[') = segment :=
    List.takeWhile_append_dropWhile
  have unopened : '[' ∉ segment.takeWhile (· ≠ '[') := by
    intro member
    simpa using List.mem_takeWhile_imp member
  simp only [parseSegment] at parsed
  generalize segment.takeWhile (· ≠ '[') = name at parsed whole unopened
  generalize segment.dropWhile (· ≠ '[') = marks at parsed whole
  subst whole
  split at parsed
  · cases parsed
  · rename_i unclosed
    split at parsed
    · rename_i unnamed
      cases List.isEmpty_iff.mp unnamed
      split at parsed
      · rename_i marked
        simp only [Bool.and_eq_true, Bool.not_eq_true', List.isEmpty_eq_false_iff] at marked
        obtain ⟨rfl, nonempty⟩ := marked
        exact .unnamed nonempty (parseMarkers_splitOn.mp parsed)
      · cases parsed
    · rename_i named
      obtain ⟨behind, ofMarkers, result⟩ := bind_eq_ok.mp parsed
      cases pure_eq_ok.mp result
      have plain : Plain (String.ofList name) :=
        { nonempty := by simpa using named
          undotted := by simpa using fun member => undotted (List.mem_append_left _ member)
          unopened := by simpa using unopened
          unclosed := by simpa using unclosed }
      simpa using Segment.named plain (parseMarkers_splitOn.mp ofMarkers)

theorem parseSegment_of_segment (ofSegment : Segment first segment steps) :
    parseSegment first segment = .ok steps := by
  cases ofSegment with
  | @named _ name text steps plain markers =>
      have unmarked : ∀ c ∈ name.toList, decide (c ≠ '[') = true := by
        intro c member
        exact decide_eq_true fun same => plain.unopened (same ▸ member)
      have before : text.takeWhile (· ≠ '[') = [] := by
        rcases markers.opened with rfl | ⟨rest, rfl⟩ <;> simp
      have behind : text.dropWhile (· ≠ '[') = text := by
        rcases markers.opened with rfl | ⟨rest, rfl⟩ <;> simp
      have named : name.toList.isEmpty = false := by simpa using plain.nonempty
      simp only [parseSegment, List.takeWhile_append_of_pos unmarked, before, List.append_nil,
        List.dropWhile_append_of_pos unmarked, behind, plain.unclosed, named,
        parseMarkers_of_markers markers, String.ofList_toList]
      rfl
  | unnamed nonempty markers =>
      obtain rfl | ⟨rest, rfl⟩ := markers.opened
      · exact absurd rfl nonempty
      · simp [parseSegment, parseMarkers_of_markers markers]

theorem segments_of_parseSegments (nonempty : pieces ≠ [])
    (undotted : ∀ piece ∈ pieces, '.' ∉ piece) (parsed : parseSegments first pieces = .ok steps) :
    Segments first (['.'].intercalate pieces) steps := by
  induction pieces generalizing first steps with
  | nil => exact absurd rfl nonempty
  | cons piece pieces ih =>
      obtain ⟨here, ofPiece, continued⟩ := bind_eq_ok.mp parsed
      obtain ⟨others, ofRest, result⟩ := bind_eq_ok.mp continued
      cases pure_eq_ok.mp result
      have ofSegment := segment_of_parseSegment (undotted piece List.mem_cons_self) ofPiece
      cases pieces with
      | nil =>
          cases ofRest
          simpa using Segments.last ofSegment
      | cons next pieces =>
          have behind := ih (by simp) (fun other later => undotted other (List.mem_cons_of_mem _ later))
            ofRest
          rw [List.intercalate_cons_cons]
          simpa using Segments.more ofSegment behind

theorem parseSegments_of_segments (segments : Segments first text steps) :
    parseSegments first (text.splitOn '.') = .ok steps := by
  induction segments with
  | last ofSegment =>
      rw [List.splitOn_eq_singleton ofSegment.undotted, parseSegments,
        parseSegment_of_segment ofSegment, ok_bind, parseSegments, ok_bind, List.append_nil]
      rfl
  | more ofSegment behind ih =>
      rw [List.splitOn_append_cons_self, List.splitOn_eq_singleton ofSegment.undotted,
        List.singleton_append, parseSegments, parseSegment_of_segment ofSegment, ok_bind, ih]
      rfl

theorem parseSegments_splitOn :
    parseSegments first (text.splitOn '.') = .ok steps ↔ Segments first text steps := by
  refine ⟨fun parsed => ?_, parseSegments_of_segments⟩
  have segments := segments_of_parseSegments (List.splitOn_ne_nil '.' text)
    (fun _ piece => separator_not_mem_of_mem_splitOn piece) parsed
  rwa [List.intercalate_splitOn] at segments

theorem Segments.nonempty (segments : Segments first text steps) : text ≠ [] := by
  cases segments with
  | last ofSegment =>
      cases ofSegment with
      | named plain markers => simp [plain.nonempty]
      | unnamed nonempty markers => exact nonempty
  | more ofSegment behind => simp

theorem parse_eq_ok_iff_spells : parse path = .ok steps ↔ Spells path steps := by
  rw [parse_eq_ok_iff, parseSegments_splitOn]
  constructor
  · rintro ⟨-, segments, final⟩
    exact { segments, final }
  · intro spells
    exact ⟨spells.segments.nonempty, spells.segments, spells.final⟩

theorem exists_malformed_iff :
    (∃ fault, parse path = .error (.malformedPath path fault)) ↔ ¬ ∃ steps, Spells path steps := by
  constructor
  · rintro ⟨fault, malformed⟩ ⟨steps, spells⟩
    rw [parse_eq_ok_iff_spells.mpr spells] at malformed
    cases malformed
  · intro unspelled
    cases parsed : parse path with
    | ok steps => exact absurd ⟨steps, parse_eq_ok_iff_spells.mp parsed⟩ unspelled
    | error error =>
        obtain ⟨fault, rfl⟩ := error_of_parse parsed
        exact ⟨fault, rfl⟩

/-- The text of a step behind others. -/
def Step.spelling : Step → List Char
  | .key name => '.' :: name.toList
  | .index position => marker (Decimal.ofNat position)
  | .append => marker []

/-- The path of steps. No point stands in front of a name at its beginning. -/
def spell : List Step → String
  | .key name :: rest => name ++ String.ofList (rest.flatMap Step.spelling)
  | steps => String.ofList (steps.flatMap Step.spelling)

/-- A plain name, a position that there is, or an append. -/
def Step.Spellable : Step → Prop
  | .key name => Plain name
  | .index position => position < Decimal.positionLimit
  | .append => True

/-- Steps that a path can have. -/
structure Spellable (steps : List Step) : Prop where
  nonempty : steps ≠ []
  each : ∀ step ∈ steps, step.Spellable
  final : .append ∉ steps.dropLast

/-- What may stand behind a name: markers, and then, if anything, a point and segments. -/
inductive Tail : List Char → List Step → Prop
  | last {text : List Char} {steps : List Step} (markers : Markers text steps) : Tail text steps
  | more {text rest : List Char} {steps others : List Step} (markers : Markers text steps)
      (behind : Segments false rest others) : Tail (text ++ '.' :: rest) (steps ++ others)

namespace Tail

variable (tail : Tail text steps)

include tail

theorem cons (content : Content inner step) : Tail (marker inner ++ text) (step :: steps) := by
  cases tail with
  | last markers => simpa [marker] using Tail.last (.cons content markers)
  | more markers behind => simpa [marker] using Tail.more (.cons content markers) behind

theorem named {name : String} (plain : Plain name) :
    Segments first (name.toList ++ text) (.key name :: steps) := by
  cases tail with
  | last markers => exact .last (.named plain markers)
  | more markers behind => simpa using Segments.more (.named plain markers) behind

theorem unnamed (content : Content inner step) :
    Segments true (marker inner ++ text) (step :: steps) := by
  cases tail with
  | last markers => simpa [marker] using Segments.last (.unnamed (by simp) (.cons content markers))
  | more markers behind =>
      simpa [marker] using Segments.more (.unnamed (by simp) (.cons content markers)) behind

end Tail

theorem content_ofNat {position : Nat} (bounded : position < Decimal.positionLimit) :
    Content (Decimal.ofNat position) (.index position) :=
  content_of_parseMarker (parseMarker_ofNat bounded)

theorem tail_spelling (each : ∀ step ∈ steps, step.Spellable) :
    Tail (steps.flatMap Step.spelling) steps := by
  induction steps with
  | nil => exact .last .none
  | cons step rest ih =>
      obtain ⟨here, later⟩ := List.forall_mem_cons.mp each
      rw [List.flatMap_cons]
      cases step with
      | key name => exact .more .none ((ih later).named here)
      | index position => exact (ih later).cons (content_ofNat here)
      | append => exact (ih later).cons .nothing

theorem spells_spell (spellable : Spellable steps) : Spells (spell steps) steps where
  segments := by
    cases steps with
    | nil => exact absurd rfl spellable.nonempty
    | cons step rest =>
        obtain ⟨here, later⟩ := List.forall_mem_cons.mp spellable.each
        have tail := tail_spelling later
        cases step with
        | key name => simpa [spell] using tail.named here
        | index position => simpa [spell, Step.spelling] using tail.unnamed (content_ofNat here)
        | append => simpa [spell, Step.spelling] using tail.unnamed .nothing
  final := spellable.final

theorem spellable_of_content (content : Content inner step) : step.Spellable := by
  cases content with
  | position nonempty decimal bounded => exact bounded
  | nothing => trivial

theorem Markers.spellable (markers : Markers text steps) : ∀ step ∈ steps, step.Spellable := by
  induction markers with
  | none => simp
  | cons content behind ih => exact List.forall_mem_cons.mpr ⟨spellable_of_content content, ih⟩

theorem Segment.spellable (ofSegment : Segment first text steps) :
    steps ≠ [] ∧ ∀ step ∈ steps, step.Spellable := by
  cases ofSegment with
  | named plain markers =>
      exact ⟨List.cons_ne_nil _ _, List.forall_mem_cons.mpr ⟨plain, markers.spellable⟩⟩
  | unnamed nonempty markers =>
      refine ⟨?_, markers.spellable⟩
      cases markers with
      | none => exact absurd rfl nonempty
      | cons content behind => exact List.cons_ne_nil _ _

theorem Segments.spellable (segments : Segments first text steps) :
    steps ≠ [] ∧ ∀ step ∈ steps, step.Spellable := by
  induction segments with
  | last ofSegment => exact ofSegment.spellable
  | more ofSegment behind ih =>
      obtain ⟨nonempty, each⟩ := ofSegment.spellable
      exact ⟨List.append_ne_nil_of_left_ne_nil nonempty _,
        List.forall_mem_append.mpr ⟨each, ih.2⟩⟩

theorem Spells.spellable (spells : Spells path steps) : Spellable steps where
  nonempty := spells.segments.spellable.1
  each := spells.segments.spellable.2
  final := spells.final

/-- Parsing accepts exactly the texts that the grammar spells, with the steps that they spell, and
calls all others malformed. Exactly the steps that can be spelled are read back from their own
spelling. -/
theorem parse_accepts_grammar (path : String) :
    (∀ steps, parse path = .ok steps ↔ Spells path steps) ∧
      ((¬ ∃ steps, Spells path steps) ↔ ∃ fault, parse path = .error (.malformedPath path fault)) ∧
      ∀ steps, parse (spell steps) = .ok steps ↔ Spellable steps := by
  refine ⟨fun _ => parse_eq_ok_iff_spells, exists_malformed_iff.symm, fun steps => ?_⟩
  constructor
  · intro parsed
    exact (parse_eq_ok_iff_spells.mp parsed).spellable
  · intro spellable
    exact parse_eq_ok_iff_spells.mpr (spells_spell spellable)

example : parse "[3].rows[007].size[]" =
    .ok [.index 3, .key "rows", .index 7, .key "size", .append] := by rfl

end DataAccess.Path
