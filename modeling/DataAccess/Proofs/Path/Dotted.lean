import DataAccess.Proofs.Path.Grammar

/-!
# Paths and dotted names

Stores name what a path leads to by its keys and positions with points between them. Under this name
they find what the path finds, unless the name as a whole is a key; and where no key may be taken for
a position, they find nothing else.
-/

namespace DataAccess

namespace Path

variable {steps : List Step} {step : Step}

/-- The name that stores have for what steps lead to. -/
def dotted (steps : List Step) : String :=
  String.ofList (['.'].intercalate (steps.map fun step => step.part.toList))

theorem undotted_part (spellable : step.Spellable) : '.' ∉ step.part.toList := by
  cases step with
  | key name => exact Plain.undotted spellable
  | index position =>
      rw [Step.part, String.toList_ofList]
      exact Decimal.not_mem_ofNat_of_not_digit rfl position
  | append => exact List.not_mem_nil

theorem nameParts_dotted (spellable : Spellable steps) :
    Record.nameParts (dotted steps) = steps.map Step.part := by
  have pieces : (['.'].intercalate (steps.map fun step => step.part.toList)).splitOn '.' =
      steps.map fun step => step.part.toList := by
    apply List.splitOn_intercalate
    · intro part member
      obtain ⟨step, listed, rfl⟩ := List.mem_map.mp member
      exact undotted_part (spellable.each step listed)
    · simpa using spellable.nonempty
  simp [Record.nameParts, dotted, pieces]

theorem dotted_key (name : String) : dotted [.key name] = name := by
  simp [dotted, Step.part]

/-- Steps that are keys only are told by their parts. -/
theorem map_key_part (reads : .append ∉ steps) (keyed : ∀ position, .index position ∉ steps) :
    (steps.map Step.part).map .key = steps := by
  induction steps with
  | nil => rfl
  | cons step rest ih =>
      have later := ih (by simp_all) (by simp_all)
      cases step with
      | key name => simp only [List.map_cons, Step.part, later]
      | index position => exact absurd List.mem_cons_self (keyed position)
      | append => exact absurd List.mem_cons_self reads

end Path

namespace Record

open DataAccess.Path (Step dotted)

variable {steps : List Step} {record : Record} {value : Value} {first : String}

theorem field?_dotted (spellable : Path.Spellable steps) (leads : steps.head? = some (.key first))
    (clear : 1 < steps.length → Dict.get? record (dotted steps) = none) :
    field? record (dotted steps) = descend (.map record) (steps.map Step.part) := by
  match steps with
  | [] => cases leads
  | [step] =>
      cases leads
      have plain : Path.Plain first := spellable.each _ List.mem_cons_self
      rw [Path.dotted_key, field?_undotted plain.undotted]
      simp [descend, part?, Step.part]
  | step :: next :: rest =>
      have absent := clear (by simp)
      rw [field?, absent, Path.nameParts_dotted spellable]

theorem field?_eq_lookup (spellable : Path.Spellable steps)
    (leads : steps.head? = some (.key first)) (reads : .append ∉ steps)
    (keyed : ∀ position, .index position ∉ steps)
    (unnumbered : ∀ name, .key name ∈ steps → Decimal.position? name.toList = none)
    (clear : 1 < steps.length → Dict.get? record (dotted steps) = none) :
    field? record (dotted steps) = Path.lookup (.map record) steps := by
  have spelled := Path.map_key_part reads keyed
  have parts : ∀ part ∈ steps.map Step.part, Decimal.position? part.toList = none := by
    intro part member
    apply unnumbered
    rw [← spelled]
    exact List.mem_map_of_mem member
  rw [field?_dotted spellable leads clear, ← lookup_eq_descend parts, spelled]

/-- A store finds under a dotted name what the path finds, unless the name has points and is itself a
key of the record. If no step is a position or could be read as one, a store finds nothing but that
and the value of such a key. -/
theorem stores_find_what_paths_find {path : String} (parsed : Path.parse path = .ok steps)
    (leads : steps.head? = some (.key first)) (reads : .append ∉ steps) (record : Record) :
    (∀ value, (1 < steps.length → Dict.get? record (dotted steps) = none) →
      Path.lookup (.map record) steps = some value →
        field? record (dotted steps) = some value) ∧
    ((∀ position, .index position ∉ steps) →
      (∀ name, .key name ∈ steps → Decimal.position? name.toList = none) →
        ∀ value, field? record (dotted steps) = some value →
          Path.lookup (.map record) steps = some value ∨
            1 < steps.length ∧ Dict.get? record (dotted steps) = some value) := by
  have spellable := (Path.parse_eq_ok_iff_spells.mp parsed).spellable
  constructor
  · intro value clear found
    rw [field?_dotted spellable leads clear]
    apply descend_parts_of_lookup _ found
    intro position member
    exact spellable.each _ member
  · intro keyed unnumbered value found
    by_cases clear : 1 < steps.length → Dict.get? record (dotted steps) = none
    · rw [field?_eq_lookup spellable leads reads keyed unnumbered clear] at found
      exact .inl found
    · obtain ⟨several, taken⟩ := Classical.not_imp.mp clear
      obtain ⟨own, held⟩ := Option.ne_none_iff_exists'.mp taken
      rw [field?, held] at found
      exact .inr ⟨several, held.trans found⟩

def warehouse : Record :=
  [("shelf", .map [("owner", .string "Ada"),
    ("boxes", .sequence [.null, .map [("label", .string "nails")]])])]

theorem nails_are_found_by_both :
    (∃ steps, Path.parse "shelf.boxes[01].label" = .ok steps ∧
      dotted steps = "shelf.boxes.1.label" ∧
      Path.lookup (.map warehouse) steps = some (.string "nails") ∧
      field? warehouse (dotted steps) = some (.string "nails")) ∧
    ∃ steps, Path.parse "shelf.owner" = .ok steps ∧ dotted steps = "shelf.owner" ∧
      field? warehouse (dotted steps) = some (.string "Ada") ∧
      Path.lookup (.map warehouse) steps = some (.string "Ada") := by
  constructor
  · have parsed : Path.parse "shelf.boxes[01].label" =
        .ok [.key "shelf", .key "boxes", .index 1, .key "label"] := rfl
    obtain ⟨finds, -⟩ := stores_find_what_paths_find parsed rfl (by decide) warehouse
    exact ⟨_, rfl, rfl, rfl, finds _ (fun _ => rfl) rfl⟩
  · have parsed : Path.parse "shelf.owner" = .ok [.key "shelf", .key "owner"] := rfl
    obtain ⟨-, onlyThat⟩ := stores_find_what_paths_find parsed rfl (by decide) warehouse
    have unnumbered : ∀ name, Step.key name ∈ [Step.key "shelf", .key "owner"] →
        Decimal.position? name.toList = none := by
      intro name member
      simp only [List.mem_cons, Step.key.injEq, List.not_mem_nil, or_false] at member
      obtain rfl | rfl := member <;> rfl
    obtain found | ⟨-, shadowed⟩ := onlyThat (by simp) unnumbered (.string "Ada") rfl
    · exact ⟨_, rfl, rfl, rfl, found⟩
    · cases shadowed

def quoted : Record := [("net.price", .string "7")]

/-- A key with a point in it is found by its name, to which no path leads. -/
theorem dotted_key_is_on_no_path :
    Path.parse "net.price" = .ok [.key "net", .key "price"] ∧
      dotted [.key "net", .key "price"] = "net.price" ∧
      Decimal.position? "net".toList = none ∧ Decimal.position? "price".toList = none ∧
      field? quoted "net.price" = some (.string "7") ∧
      Path.lookup (.map quoted) [.key "net", .key "price"] = none :=
  ⟨rfl, rfl, rfl, rfl, rfl, rfl⟩

end Record

end DataAccess
