import DataAccess.Filter.Evaluate
import DataAccess.Proofs.Except
import DataAccess.Value.Field
import Mathlib.Data.List.TakeWhile

namespace DataAccess

namespace Path

/-- A name that is no path of several steps and has no markers. -/
structure Plain (name : String) : Prop where
  nonempty : name ≠ ""
  undotted : '.' ∉ name.toList
  unopened : '[' ∉ name.toList
  unclosed : ']' ∉ name.toList

instance (name : String) : Decidable (Plain name) :=
  decidable_of_iff
    (name ≠ "" ∧ '.' ∉ name.toList ∧ '[' ∉ name.toList ∧ ']' ∉ name.toList)
    ⟨fun ⟨nonempty, undotted, unopened, unclosed⟩ => { nonempty, undotted, unopened, unclosed },
      fun plain => ⟨plain.nonempty, plain.undotted, plain.unopened, plain.unclosed⟩⟩

theorem parseSegment_unmarked {first : Bool} {segment : List Char} (nonempty : segment ≠ [])
    (unopened : '[' ∉ segment) (unclosed : ']' ∉ segment) :
    parseSegment first segment = .ok [.key (String.ofList segment)] := by
  have unmarked : ∀ c ∈ segment, decide (c ≠ '[') = true := by
    intro c member
    exact decide_eq_true fun same => unopened (same ▸ member)
  have name : segment.takeWhile (· ≠ '[') = segment := List.takeWhile_eq_self_iff.mpr unmarked
  have markers : segment.dropWhile (· ≠ '[') = [] := List.dropWhile_eq_nil_iff.mpr unmarked
  have notEmpty : segment.isEmpty = false := by simpa using nonempty
  simp only [parseSegment, name, markers, unclosed, notEmpty]
  rfl

theorem parseSteps_eq_ok_iff {text : List Char} {steps : List Step} :
    parseSteps text = .ok steps ↔ text ≠ [] ∧
      parseSegments true (text.splitOn '.') = .ok steps ∧ .append ∉ steps.dropLast := by
  rw [parseSteps]
  split
  · rename_i empty
    simp [List.isEmpty_iff.mp empty]
  · rename_i nonempty
    rw [bind_eq_ok, and_iff_right fun empty => nonempty (List.isEmpty_iff.mpr empty)]
    constructor
    · rintro ⟨found, ofSegments, kept⟩
      split at kept
      · cases kept
      · rename_i final
        cases kept
        exact ⟨ofSegments, final⟩
    · rintro ⟨ofSegments, final⟩
      exact ⟨steps, ofSegments, if_neg final⟩

theorem parse_eq_ok_iff {path : String} {steps : List Step} :
    parse path = .ok steps ↔ path.toList ≠ [] ∧
      parseSegments true (path.toList.splitOn '.') = .ok steps ∧ .append ∉ steps.dropLast := by
  rw [← parseSteps_eq_ok_iff, parse]
  cases parseSteps path.toList <;> simp

theorem parse_plain {name : String} (plain : Plain name) : parse name = .ok [.key name] := by
  have nonempty : name.toList ≠ [] := fun empty =>
    plain.nonempty (String.toList_eq_nil_iff.mp empty)
  have segment : parseSegments true (name.toList.splitOn '.') = .ok [.key name] := by
    rw [List.splitOn_eq_singleton plain.undotted, parseSegments,
      parseSegment_unmarked nonempty plain.unopened plain.unclosed, String.ofList_toList]
    rfl
  exact parse_eq_ok_iff.mpr ⟨nonempty, segment, List.not_mem_nil⟩

end Path

namespace BusinessObject

variable {object : BusinessObject} {fields : Record} {name : String}

theorem get_of_parse {steps : List Path.Step} (parsed : Path.parse name = .ok steps)
    (reads : .append ∉ steps) :
    object.get name = .ok ((Path.lookup object.root steps).filter (!·.isNull)) := by
  simp only [get, parsed]
  rcases found : Path.lookup object.root steps with _ | value
  · simp [bind, Except.bind, found, reads, pure, Except.pure]
  · cases value <;>
      simp [bind, Except.bind, found, reads, pure, Except.pure, Option.filter_some, Value.isNull]

theorem get_plain (root : object.root = .map fields) (plain : Path.Plain name) :
    object.get name = .ok ((Dict.get? fields name).filter (!·.isNull)) := by
  rw [get_of_parse (Path.parse_plain plain) (by simp), root]
  simp [Path.lookup, Path.child?]

theorem attribute?_plain (root : object.root = .map fields) (plain : Path.Plain name) :
    object.attribute? name = (Dict.get? fields name).filter (!·.isNull) := by
  simp only [attribute?, get_plain root plain]

end BusinessObject

namespace Record

theorem field?_undotted {record : Record} {name : String} (undotted : '.' ∉ name.toList) :
    field? record name = Dict.get? record name := by
  simp only [field?, nameParts, List.splitOn_eq_singleton undotted]
  cases found : Dict.get? record name with
  | some value => rfl
  | none => simp [descend, part?, found]

end Record

end DataAccess
