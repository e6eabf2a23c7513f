import DataAccess.Path.Assign
import DataAccess.Proofs.Dict
import Mathlib.Data.List.Basic

namespace DataAccess

namespace Path

variable {root new after child other value : Value} {met : Option Value} {step : Step}
variable {steps rest before : List Step} {fault : AssignFault} {found : Value.Kind}

/-- The container that a step leads into. -/
def Step.container : Step → Value.Kind
  | .key _ => .map
  | .index _ => .sequence
  | .append => .sequence

/-- The length of a sequence; where there is none yet, an empty one will be created. -/
def lengthOf : Option Value → Nat
  | some (.sequence items) => items.length
  | _ => 0

/-- Why a step does not fit what it meets, which is null where nothing is there. -/
def fault? (met : Option Value) (step : Step) : Option AssignFault :=
  let kind := (met.getD .null).kind
  if kind ≠ .null ∧ kind ≠ step.container then some (.conflict kind)
  else match step with
    | .index position =>
        if inReach (lengthOf met) position then none
        else some (.beyondEnd position (lengthOf met))
    | _ => none

/-- A step fits a null or a container of its kind, in which its position is in reach. -/
structure Fits (met : Option Value) (step : Step) : Prop where
  kind : ∀ value, met = some value → value.kind = .null ∨ value.kind = step.container
  reach : ∀ position, step = .index position →
    position < 18446744073709551615 ∧ position ≤ lengthOf met + 65536

theorem inReach_iff {length index : Nat} :
    inReach length index = true ↔ index < 18446744073709551615 ∧ index ≤ length + 65536 := by
  simp only [inReach, Bool.and_eq_true, decide_eq_true_eq]
  simp only [growthLimit, Decimal.positionLimit]
  omega

theorem fault?_eq_none_iff : fault? met step = none ↔ Fits met step := by
  have kinds : (∀ value, met = some value → value.kind = .null ∨ value.kind = step.container) ↔
      ¬ ((met.getD .null).kind ≠ .null ∧ (met.getD .null).kind ≠ step.container) := by
    cases met with
    | none => simp [Value.kind]
    | some value => simp [or_iff_not_imp_left]
  constructor
  · intro fits
    simp only [fault?] at fits
    split at fits
    · cases fits
    · rename_i agree
      refine ⟨kinds.mpr agree, ?_⟩
      rintro position rfl
      rw [← inReach_iff]
      by_contra far
      simp [far] at fits
  · rintro ⟨kind, reach⟩
    simp only [fault?, if_neg (kinds.mp kind)]
    cases step with
    | index position => simp [inReach_iff.mpr (reach position rfl)]
    | _ => rfl

theorem fault?_none (step : Step) : fault? none step = fault? (some .null) step := rfl

theorem child?_null (step : Step) : child? .null step = none := by cases step <;> rfl

/-- What is missing is no reason for a conflict. -/
theorem fault?_none_ne_conflict (step : Step) (found : Value.Kind) :
    fault? none step ≠ some (.conflict found) := by
  cases step <;> simp [fault?, Value.kind]

/-- The value with another child at a step; a container or items that are missing are created. -/
def putChild (root : Value) : Step → Value → Value
  | .key name, child => .map (Dict.insert ((asMap? root).getD []) name child)
  | .index position, child =>
      .sequence ((padTo (position + 1) ((asSequence? root).getD [])).set position child)
  | .append, child => .sequence ((asSequence? root).getD [] ++ [child])

theorem getElem?_padTo (length index : Nat) (items : List Value) :
    (padTo length items)[index]? =
      if index < items.length then items[index]?
      else if index < length then some .null else none := by
  simp only [padTo, List.getElem?_append, List.getElem?_replicate]
  split
  · rfl
  · congr 1
    simp only [eq_iff_iff]
    omega

theorem length_padTo (length : Nat) (items : List Value) :
    (padTo length items).length = max length items.length := by
  simp only [padTo, List.length_append, List.length_replicate]
  omega

theorem padTo_eq_self {length : Nat} {items : List Value} (enough : length ≤ items.length) :
    padTo length items = items := by
  simp [padTo, Nat.sub_eq_zero_of_le enough]

theorem getD_padTo (position : Nat) (items : List Value) :
    (padTo (position + 1) items)[position]?.getD .null = items[position]?.getD .null := by
  rw [getElem?_padTo]
  split
  · rfl
  · simp_all

/-- What a key fits into reads like a map. -/
theorem fields_of_fits {name : String} (fits : fault? (some root) (.key name) = none) :
    ∃ fields, asMap? root = some fields ∧ child? root = child? (.map fields) := by
  have kinds := (fault?_eq_none_iff.mp fits).kind root rfl
  cases root <;> simp [Value.kind, Step.container] at kinds
  · refine ⟨[], rfl, ?_⟩
    funext step
    cases step <;> rfl
  · exact ⟨_, rfl, rfl⟩

/-- What a position fits into reads like a sequence, in which it is in reach. -/
theorem items_of_fits {position : Nat} (fits : fault? (some root) (.index position) = none) :
    ∃ items, asSequence? root = some items ∧ inReach items.length position = true ∧
      child? root = child? (.sequence items) := by
  obtain ⟨kinds, reach⟩ := fault?_eq_none_iff.mp fits
  have reached := inReach_iff.mpr (reach position rfl)
  replace kinds := kinds root rfl
  cases root <;> simp [Value.kind, Step.container] at kinds
  · refine ⟨[], rfl, reached, ?_⟩
    funext step
    cases step <;> rfl
  · exact ⟨_, rfl, reached, rfl⟩

/-- A fitting step takes the write on to its child, or to a null in its place. -/
theorem assign_cons (fits : fault? (some root) step = none) :
    assign new (step :: rest) root =
      ((assign new rest ((child? root step).getD .null)).1,
        putChild root step (assign new rest ((child? root step).getD .null)).2) := by
  cases step with
  | key name =>
      obtain ⟨fields, asMap, children⟩ := fields_of_fits fits
      rw [children]
      simp only [assign, putChild, asMap, child?, Option.getD_some]
  | index position =>
      obtain ⟨items, asSequence, reached, children⟩ := items_of_fits fits
      rw [children]
      simp only [assign, putChild, asSequence, reached, child?, getD_padTo, Option.getD_some,
        Bool.or_true, ↓reduceIte]
  | append =>
      cases root <;> simp [fault?, Value.kind, Step.container] at fits <;>
        simp [assign, asSequence?, child?, putChild]

theorem assign_of_conflict (conflict : fault? (some root) step = some (.conflict found)) :
    assign new (step :: rest) root = (.error (.conflict found), root) := by
  cases step <;> cases root <;>
    simp_all [fault?, Value.kind, Step.container, assign, asMap?, asSequence?]

theorem putChild_of_child? (atStep : child? root step = some child) :
    putChild root step child = root := by
  cases step with
  | key name =>
      cases root with
      | map fields =>
          simp only [child?] at atStep
          simp [putChild, asMap?, Dict.insert_of_get? atStep]
      | _ => cases atStep
  | index position =>
      cases root with
      | sequence items =>
          obtain ⟨inside, rfl⟩ := List.getElem?_eq_some_iff.mp atStep
          simp [putChild, asSequence?, padTo_eq_self (Nat.succ_le_of_lt inside)]
      | _ => cases atStep
  | append => cases root <;> cases atStep

/-- The fault of the first step that does not fit. -/
def firstFault? : Option Value → List Step → Option AssignFault
  | _, [] => none
  | met, step :: rest => (fault? met step).or (firstFault? (met.bind (child? · step)) rest)

theorem firstFault?_none (steps : List Step) :
    firstFault? none steps = firstFault? (some .null) steps := by
  cases steps with
  | nil => rfl
  | cons step rest => simp [firstFault?, fault?_none, child?_null]

theorem firstFault?_getD (met : Option Value) (steps : List Step) :
    firstFault? (some (met.getD .null)) steps = firstFault? met steps := by
  cases met with
  | none => exact (firstFault?_none steps).symm
  | some value => rfl

theorem firstFault?_none_ne_conflict (steps : List Step) (found : Value.Kind) :
    firstFault? none steps ≠ some (.conflict found) := by
  induction steps with
  | nil => simp [firstFault?]
  | cons step rest ih =>
      simp only [firstFault?, Option.bind_none, ne_eq, Option.or_eq_some_iff, not_or, not_and]
      exact ⟨fault?_none_ne_conflict step found, fun _ => ih⟩

/-- The search for positions out of reach finds the first fault, and leaves conflicts alone. -/
theorem checkReach_eq (met : Option Value) (steps : List Step) :
    checkReach met steps =
      match firstFault? met steps with
      | some (.beyondEnd index length) => .error (.beyondEnd index length)
      | _ => .ok () := by
  induction steps generalizing met with
  | nil => cases met <;> simp [checkReach, firstFault?]
  | cons step rest ih =>
      cases step with
      | key name =>
          rcases met with _ | _ | _ | _ | _ | _ | fields <;>
            simp [checkReach, firstFault?, fault?, Value.kind, Step.container, child?, ih]
      | index position =>
          rcases met with _ | _ | _ | _ | _ | items | _ <;>
            simp [checkReach, firstFault?, fault?, Value.kind, Step.container, lengthOf, child?, ih]
          all_goals split <;> simp_all
      | append =>
          rcases met with _ | _ | _ | _ | _ | items | _ <;>
            simp [checkReach, firstFault?, fault?, Value.kind, Step.container, child?, ih]

/-- A write goes through when all its steps fit. -/
theorem assign_of_fits (fits : firstFault? (some root) steps = none) :
    (assign new steps root).1 = .ok () := by
  induction steps generalizing root with
  | nil => rfl
  | cons step rest ih =>
      obtain ⟨fitsHere, fitsBelow⟩ := Option.or_eq_none_iff.mp fits
      rw [assign_cons fitsHere]
      exact ih (by rwa [firstFault?_getD])

/-- A write that meets a conflict first leaves everything as it was. -/
theorem assign_of_firstFault (conflict : firstFault? (some root) steps = some (.conflict found)) :
    assign new steps root = (.error (.conflict found), root) := by
  induction steps generalizing root with
  | nil => cases conflict
  | cons step rest ih =>
      rcases Option.or_eq_some_iff.mp conflict with here | ⟨fits, below⟩
      · exact assign_of_conflict here
      · -- Nothing conflicts with what is missing, so there is a child, which stays as it is.
        cases atStep : child? root step with
        | none =>
            rw [Option.bind_some, atStep] at below
            exact (firstFault?_none_ne_conflict rest found below).elim
        | some child =>
            rw [Option.bind_some, atStep] at below
            rw [assign_cons fits, atStep, Option.getD_some, ih below, putChild_of_child? atStep]

theorem assignInReach_eq (steps : List Step) (new root : Value) :
    assignInReach steps new root =
      match firstFault? (some root) steps with
      | none => (.ok (), (assign new steps root).2)
      | some fault => (.error fault, root) := by
  rw [assignInReach, checkReach_eq]
  cases first : firstFault? (some root) steps with
  | none => exact Prod.ext (assign_of_fits first) rfl
  | some fault =>
      cases fault with
      | beyondEnd index length => rfl
      | conflict found => exact assign_of_firstFault first

theorem firstFault?_append (met : Option Value) (before rest : List Step) :
    firstFault? met (before ++ rest) =
      (firstFault? met before).or (firstFault? (met.bind (lookup · before)) rest) := by
  induction before generalizing met with
  | nil => simp [firstFault?, lookup]
  | cons step before ih =>
      simp only [List.cons_append, firstFault?, lookup, ih, Option.or_assoc, Option.bind_assoc]

theorem firstFault?_eq_none_iff : firstFault? met steps = none ↔
    ∀ before step rest, steps = before ++ step :: rest →
      fault? (met.bind (lookup · before)) step = none := by
  induction steps generalizing met with
  | nil => simp [firstFault?]
  | cons first others ih =>
      rw [firstFault?, Option.or_eq_none_iff, ih]
      constructor
      · rintro ⟨here, below⟩ before step rest split
        cases before with
        | nil =>
            cases split
            simpa [lookup] using here
        | cons step before =>
            cases split
            simpa [lookup, Option.bind_assoc] using below before _ _ rfl
      · intro fits
        refine ⟨by simpa [lookup] using fits [] first others rfl, ?_⟩
        intro before step rest split
        simpa [lookup, Option.bind_assoc] using fits (first :: before) step rest (by simp [split])

theorem forall_fits_iff : firstFault? (some root) steps = none ↔
    ∀ before step rest, steps = before ++ step :: rest → Fits (lookup root before) step := by
  simp only [firstFault?_eq_none_iff, Option.bind_some, fault?_eq_none_iff]

theorem firstFault?_of_split
    (fit : ∀ earlier other later, before = earlier ++ other :: later → Fits (lookup root earlier) other)
    (here : fault? (lookup root before) step = some fault) :
    firstFault? (some root) (before ++ step :: rest) = some fault := by
  rw [firstFault?_append, forall_fits_iff.mpr fit, Option.none_or, Option.bind_some, firstFault?,
    here, Option.some_or]

variable {path : String}

theorem set_of_parse (new : Value) (parsed : parse path = .ok steps) : set root path new =
    match firstFault? (some root) steps with
    | none => (.ok (), (assign new steps root).2)
    | some fault => (.error (fault.toError path), root) := by
  simp only [set, parsed, assignInReach_eq]
  cases firstFault? (some root) steps <;> rfl

theorem error_of_parse {error : ObjectError} (malformed : parse path = .error error) :
    ∃ fault, error = .malformedPath path fault := by
  simp only [parse] at malformed
  split at malformed
  · cases malformed
  · rename_i fault _
    exact ⟨fault, (Except.error.inj malformed).symm⟩

theorem set_ok_iff : (set root path new).1 = .ok () ↔
    ∃ steps, parse path = .ok steps ∧ firstFault? (some root) steps = none := by
  cases parsed : parse path with
  | error error => simp [set, parsed]
  | ok steps =>
      rw [set_of_parse new parsed]
      cases first : firstFault? (some root) steps <;> simp [first]

/-- A refused write leaves the object as it was, whether its path is malformed, an index is out of
reach or something stands in its way. Where the search for indices has found none, only a value in
the way can stop the writing itself, and then before it has created or padded anything. A write goes
through exactly when its path is well-formed and all steps fit what they meet; else the first step
that does not gives the error. -/
theorem refused_write_changes_nothing (root new : Value) (path : String) :
    (∀ error, (set root path new).1 = .error error →
      (set root path new).2 = root ∧
        ((∃ fault, error = .malformedPath path fault) ∨
          ∃ found, error = .pathConflict path found)) ∧
    (∀ steps, checkReach (some root) steps = .ok () →
      (assign new steps root).1 = .ok () ∨
        ∃ found, assign new steps root = (.error (.conflict found), root)) ∧
    ((set root path new).1 = .ok () ↔
      ∃ steps, parse path = .ok steps ∧
        ∀ before step rest, steps = before ++ step :: rest → Fits (lookup root before) step) ∧
    (∀ before step rest fault, parse path = .ok (before ++ step :: rest) →
      (∀ earlier other later, before = earlier ++ other :: later →
        Fits (lookup root earlier) other) →
      fault? (lookup root before) step = some fault →
      (set root path new).1 = .error (fault.toError path)) := by
  refine ⟨?unchanged, ?onlyConflicts, ?succeeds, ?reported⟩
  case unchanged =>
    intro error refused
    cases parsed : parse path with
    | error reason =>
        simp only [set, parsed, Except.error.injEq] at refused ⊢
        subst refused
        exact ⟨trivial, .inl (error_of_parse parsed)⟩
    | ok steps =>
        rw [set_of_parse new parsed] at refused ⊢
        cases first : firstFault? (some root) steps with
        | none => simp [first] at refused
        | some fault =>
            simp only [first, Except.error.injEq] at refused ⊢
            subst refused
            cases fault with
            | beyondEnd index length => exact ⟨trivial, .inl ⟨_, rfl⟩⟩
            | conflict found => exact ⟨trivial, .inr ⟨found, rfl⟩⟩
  case onlyConflicts =>
    intro steps accepted
    rw [checkReach_eq] at accepted
    cases first : firstFault? (some root) steps with
    | none => exact .inl (assign_of_fits first)
    | some fault =>
        cases fault with
        | beyondEnd index length => simp [first] at accepted
        | conflict found => exact .inr ⟨found, assign_of_firstFault first⟩
  case succeeds =>
    simp only [set_ok_iff, forall_fits_iff]
  case reported =>
    intro before step rest fault parsed fit here
    rw [set_of_parse new parsed, firstFault?_of_split fit here]

/-- The second index of a path is one too far, and the key and the index before it create nothing. -/
theorem far_index_creates_nothing :
    (set (.map [("a", .sequence [])]) "a[2][65537]" (.bool true)).1 =
        .error (.malformedPath "a[2][65537]" (.beyondEnd 65537 0)) ∧
      (set (.map [("a", .sequence [])]) "a[2][65537]" (.bool true)).2 =
        .map [("a", .sequence [])] := by
  obtain ⟨unchanged, _, _, reported⟩ := refused_write_changes_nothing
    (.map [("a", .sequence [])]) (.bool true) "a[2][65537]"
  have refused := reported [.key "a", .index 2] (.index 65537) [] (.beyondEnd 65537 0) (by rfl)
    ?_ (by decide)
  · exact ⟨refused, (unchanged _ refused).1⟩
  · rw [← forall_fits_iff]
    decide

end Path

end DataAccess
