import DataAccess.Proofs.Decimal
import DataAccess.Proofs.Dict
import DataAccess.Proofs.Except
import DataAccess.Proofs.Path

namespace DataAccess

namespace Path

variable {first : Bool} {name : String} {steps : List Step} {text segment : List Char}

/-- How stores spell a step: a key as it is, a position in decimal. -/
def Step.part : Step → String
  | .key name => name
  | .index position => String.ofList (Decimal.ofNat position)
  | .append => ""

theorem mem_of_mem_splitOn {separator c : Char} (piece : segment ∈ text.splitOn separator)
    (member : c ∈ segment) : c ∈ text := by
  induction text generalizing segment with
  | nil =>
      rw [List.splitOn_nil, List.mem_singleton] at piece
      exact piece ▸ member
  | cons d text ih =>
      rw [List.splitOn_cons_eq_if_modifyHead] at piece
      split at piece
      · rcases List.mem_cons.mp piece with rfl | later
        · cases member
        · exact List.mem_cons_of_mem _ (ih later member)
      · cases pieces : text.splitOn separator with
        | nil =>
            rw [pieces] at piece
            cases piece
        | cons head rest =>
            rw [pieces] at piece ih
            rcases List.mem_cons.mp piece with rfl | later
            · rcases List.mem_cons.mp member with rfl | inside
              · exact List.mem_cons_self
              · exact List.mem_cons_of_mem _ (ih List.mem_cons_self inside)
            · exact List.mem_cons_of_mem _ (ih (List.mem_cons_of_mem _ later) member)

theorem separator_not_mem_of_mem_splitOn {separator : Char} (piece : segment ∈ text.splitOn separator) :
    separator ∉ segment := by
  induction text generalizing segment with
  | nil => simp_all
  | cons c text ih =>
      rw [List.splitOn_cons_eq_if_modifyHead] at piece
      split at piece
      · rcases List.mem_cons.mp piece with rfl | later
        · exact List.not_mem_nil
        · exact ih later
      · rename_i other
        obtain ⟨head, pieces, split⟩ := List.exists_cons_of_ne_nil (List.splitOn_ne_nil separator text)
        rw [split] at piece ih
        rcases List.mem_cons.mp piece with rfl | later
        · have apart : separator ≠ c := fun same => other (by simp [same])
          simpa [apart] using ih List.mem_cons_self
        · exact ih (List.mem_cons_of_mem _ later)

theorem parseSegment_unopened (unopened : '[' ∉ segment)
    (parsed : parseSegment first segment = .ok steps) :
    steps = [.key (String.ofList segment)] := by
  by_cases empty : segment = []
  · subst empty
    cases first <;> cases parsed
  · by_cases unclosed : ']' ∈ segment
    · have name : segment.takeWhile (· ≠ '[') = segment :=
        List.takeWhile_eq_self_iff.mpr fun c member =>
          decide_eq_true fun same => unopened (same ▸ member)
      simp only [parseSegment, name, unclosed, ↓reduceIte] at parsed
      cases parsed
    · rw [parseSegment_unmarked empty unopened unclosed] at parsed
      exact (Except.ok.inj parsed).symm

theorem parseSegments_unopened {segments : List (List Char)}
    (unopened : ∀ segment ∈ segments, '[' ∉ segment)
    (parsed : parseSegments first segments = .ok steps) :
    steps = segments.map fun segment => .key (String.ofList segment) := by
  induction segments generalizing first steps with
  | nil => exact (Except.ok.inj parsed).symm
  | cons segment rest ih =>
      obtain ⟨here, ofSegment, continued⟩ := bind_eq_ok.mp parsed
      obtain ⟨more, ofRest, result⟩ := bind_eq_ok.mp continued
      rw [← pure_eq_ok.mp result, parseSegment_unopened (unopened segment List.mem_cons_self) ofSegment,
        ih (fun other later => unopened other (List.mem_cons_of_mem _ later)) ofRest]
      rfl

/-- A path without markers leads from key to key. -/
theorem parse_unopened (unopened : '[' ∉ name.toList) (parsed : parse name = .ok steps) :
    steps = (Record.nameParts name).map .key := by
  obtain ⟨-, segments, -⟩ := parse_eq_ok_iff.mp parsed
  rw [parseSegments_unopened (fun segment piece opened => unopened (mem_of_mem_splitOn piece opened))
    segments, Record.nameParts, List.map_map]
  rfl

/-- A name whose parts are keys of maps and no positions of sequences. -/
structure OfKeys (name : String) : Prop where
  nonempty : ∀ part ∈ Record.nameParts name, part ≠ ""
  unnumbered : ∀ part ∈ Record.nameParts name, Decimal.position? part.toList = none
  unopened : '[' ∉ name.toList
  unclosed : ']' ∉ name.toList

instance (name : String) : Decidable (OfKeys name) :=
  decidable_of_iff
    ((∀ part ∈ Record.nameParts name, part ≠ "") ∧
      (∀ part ∈ Record.nameParts name, Decimal.position? part.toList = none) ∧
      '[' ∉ name.toList ∧ ']' ∉ name.toList)
    ⟨fun ⟨nonempty, unnumbered, unopened, unclosed⟩ =>
      { nonempty, unnumbered, unopened, unclosed },
      fun keys => ⟨keys.nonempty, keys.unnumbered, keys.unopened, keys.unclosed⟩⟩

theorem parseSegments_unmarked {segments : List (List Char)} (nonempty : [] ∉ segments)
    (unopened : ∀ segment ∈ segments, '[' ∉ segment)
    (unclosed : ∀ segment ∈ segments, ']' ∉ segment) :
    parseSegments first segments =
      .ok (segments.map fun segment => .key (String.ofList segment)) := by
  induction segments generalizing first with
  | nil => rfl
  | cons segment rest ih =>
      have here : segment ≠ [] := fun empty => nonempty (empty ▸ List.mem_cons_self)
      have more := @ih false (fun listed => nonempty (List.mem_cons_of_mem _ listed))
        (fun other later => unopened other (List.mem_cons_of_mem _ later))
        (fun other later => unclosed other (List.mem_cons_of_mem _ later))
      rw [parseSegments, parseSegment_unmarked here (unopened segment List.mem_cons_self)
        (unclosed segment List.mem_cons_self), ok_bind, more]
      rfl

theorem parse_ofKeys (keys : OfKeys name) :
    parse name = .ok ((Record.nameParts name).map .key) := by
  have pieces : [] ∉ name.toList.splitOn '.' := fun listed =>
    keys.nonempty "" (List.mem_map.mpr ⟨[], listed, rfl⟩) rfl
  have segments : parseSegments true (name.toList.splitOn '.') =
      .ok ((Record.nameParts name).map .key) := by
    rw [parseSegments_unmarked pieces
      (fun segment piece opened => keys.unopened (mem_of_mem_splitOn piece opened))
      (fun segment piece closed => keys.unclosed (mem_of_mem_splitOn piece closed)),
      Record.nameParts, List.map_map]
    rfl
  have nonempty : name.toList ≠ [] := by
    intro empty
    rw [empty, List.splitOn_nil] at pieces
    exact pieces (List.mem_singleton.mpr rfl)
  have final : .append ∉ ((Record.nameParts name).map Step.key).dropLast := by
    intro listed
    obtain ⟨part, -, same⟩ := List.mem_map.mp ((List.dropLast_sublist _).mem listed)
    cases same
  exact parse_eq_ok_iff.mpr ⟨nonempty, segments, final⟩

end Path

namespace Record

variable {name : String} {root value : Value} {record : Record}

theorem nameParts_of_undotted (undotted : '.' ∉ name.toList) : nameParts name = [name] := by
  rw [nameParts, List.splitOn_eq_singleton undotted, List.map_singleton, String.ofList_toList]

theorem nameParts_of_dotted (dotted : '.' ∈ name.toList) :
    ∃ first second rest, nameParts name = first :: second :: rest := by
  rcases pieces : name.toList.splitOn '.' with _ | ⟨first, _ | ⟨second, rest⟩⟩
  · exact absurd pieces (List.splitOn_ne_nil _ _)
  · have joined : ['.'].intercalate (name.toList.splitOn '.') = name.toList :=
      List.intercalate_splitOn '.'
    have whole : first = name.toList := by simpa [pieces] using joined
    have piece : first ∈ name.toList.splitOn '.' := pieces ▸ List.mem_singleton.mpr rfl
    exact absurd (whole ▸ dotted) (Path.separator_not_mem_of_mem_splitOn piece)
  · exact ⟨_, _, _, by rw [nameParts, pieces, List.map_cons, List.map_cons]⟩

/-- What a record says of a field, one with more fields says too, unless one of these is spelled
like a path. -/
theorem field?_of_get? {small large : Record}
    (kept : ∀ key value, Dict.get? small key = some value → Dict.get? large key = some value)
    (sameDotted : ∀ key : String, '.' ∈ key.toList → Dict.get? large key = Dict.get? small key)
    (found : field? small name = some value) : field? large name = some value := by
  by_cases dotted : '.' ∈ name.toList
  · rw [field?, sameDotted name dotted]
    rw [field?] at found
    cases held : Dict.get? small name with
    | some own =>
        rw [held] at found
        exact found
    | none =>
        obtain ⟨first, second, rest, parts⟩ := nameParts_of_dotted dotted
        rw [held, parts] at found
        rw [parts]
        obtain ⟨child, atFirst, below⟩ := Option.bind_eq_some_iff.mp found
        exact Option.bind_eq_some_iff.mpr ⟨child, kept first child atFirst, below⟩
  · rw [field?_undotted dotted] at found ⊢
    exact kept name value found

theorem part?_of_child? {step : Path.Step} {child : Value}
    (bounded : ∀ position, step = .index position → position < Decimal.positionLimit)
    (found : Path.child? root step = some child) : part? root step.part = some child := by
  cases step with
  | key name =>
      cases root with
      | map fields => exact found
      | _ => cases found
  | index position =>
      cases root with
      | sequence items =>
          simp only [Path.Step.part, part?, String.toList_ofList,
            Decimal.position?_ofNat (bounded position rfl)]
          exact found
      | _ => cases found
  | append => cases root <;> cases found

theorem descend_parts_of_lookup {steps : List Path.Step}
    (bounded : ∀ position, .index position ∈ steps → position < Decimal.positionLimit)
    (found : Path.lookup root steps = some value) :
    descend root (steps.map Path.Step.part) = some value := by
  induction steps generalizing root with
  | nil => exact found
  | cons step rest ih =>
      obtain ⟨child, atStep, below⟩ := Option.bind_eq_some_iff.mp found
      have here := part?_of_child? (fun position same => bounded position (by simp [same])) atStep
      have later := ih (fun position member => bounded position (by simp [member])) below
      exact Option.bind_eq_some_iff.mpr ⟨child, here, later⟩

theorem descend_of_lookup {parts : List String}
    (found : Path.lookup root (parts.map .key) = some value) : descend root parts = some value := by
  have spelled : (parts.map Path.Step.key).map Path.Step.part = parts := by
    simp [Function.comp_def, Path.Step.part]
  have descended := descend_parts_of_lookup (by simp) found
  rwa [spelled] at descended

theorem lookup_eq_descend {parts : List String}
    (unnumbered : ∀ part ∈ parts, Decimal.position? part.toList = none) (root : Value) :
    Path.lookup root (parts.map .key) = descend root parts := by
  induction parts generalizing root with
  | nil => rfl
  | cons part rest ih =>
      have below := ih fun other later => unnumbered other (List.mem_cons_of_mem _ later)
      have noPosition := unnumbered part List.mem_cons_self
      rw [List.map_cons, Path.lookup, descend]
      cases root with
      | map fields => simp only [Path.child?, part?, below]
      | sequence items => simp only [Path.child?, part?, noPosition, Option.bind_none]
      | _ => rfl

/-- Where no key has points, a name is read part by part. -/
theorem field?_eq_descend (undotted : ∀ key ∈ Dict.keys record, '.' ∉ key.toList) (name : String) :
    field? record name = descend (.map record) (nameParts name) := by
  by_cases dotted : '.' ∈ name.toList
  · have absent : Dict.get? record name = none :=
      Dict.get?_eq_none_iff.mpr fun listed => undotted name listed dotted
    simp only [field?, absent]
  · rw [field?_undotted dotted, nameParts_of_undotted dotted]
    simp [descend, part?]

end Record

end DataAccess
