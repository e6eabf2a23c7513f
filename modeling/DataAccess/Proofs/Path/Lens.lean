import DataAccess.Object
import DataAccess.Proofs.Path.Assign
import DataAccess.Proofs.Path.Marker

namespace DataAccess.Path

variable {root new after child value : Value} {met : Option Value} {step other : Step}
variable {steps others : List Step} {path : String}

theorem child?_putChild (root child : Value) (final : step ≠ .append) :
    child? (putChild root step child) step = some child := by
  cases step with
  | key name => simp [putChild, child?, Dict.get?_insert_self]
  | index position =>
      simp only [putChild, child?]
      rw [List.getElem?_set_self]
      rw [length_padTo]
      omega
  | append => exact (final rfl).elim

/-- What a reader sees one step below a value; a null is not seen. -/
def visible? (root : Value) (step : Step) : Option Value :=
  (child? root step).filter (!·.isNull)

theorem visible?_putChild (child : Value) (fits : fault? (some root) step = none)
    (lasting : step ≠ .append) (apart : step ≠ other) :
    visible? (putChild root step child) other = visible? root other := by
  cases step with
  | key name =>
      obtain ⟨fields, asMap, children⟩ := fields_of_fits fits
      rw [visible?, visible?, children, putChild, asMap, Option.getD_some]
      cases other with
      | key otherName =>
          have different : name ≠ otherName := fun same => apart (congrArg _ same)
          simp only [child?, Dict.get?_insert_of_ne _ _ different]
      | _ => rfl
  | index position =>
      obtain ⟨items, asSequence, _, children⟩ := items_of_fits fits
      rw [visible?, visible?, children, putChild, asSequence, Option.getD_some]
      cases other with
      | index otherPosition =>
          have different : position ≠ otherPosition := fun same => apart (congrArg _ same)
          simp only [child?, List.getElem?_set_ne different, getElem?_padTo]
          -- Beyond the items there are only nulls that the write has added.
          split
          · rfl
          · rename_i beyond
            rw [List.getElem?_eq_none (Nat.le_of_not_lt beyond)]
            split <;> rfl
      | _ => rfl
  | append => exact (lasting rfl).elim

theorem putChild_putChild (root child other : Value) (lasting : step ≠ .append) :
    putChild (putChild root step child) step other = putChild root step other := by
  cases step with
  | key name => simp only [putChild, asMap?, Option.getD_some, Dict.insert_insert]
  | index position =>
      rw [putChild, putChild, asSequence?, Option.getD_some, padTo_eq_self, List.set_set, putChild]
      rw [List.length_set, length_padTo]
      omega
  | append => exact (lasting rfl).elim

theorem fault?_putChild (child : Value) (fits : fault? (some root) step = none)
    (lasting : step ≠ .append) : fault? (some (putChild root step child)) step = none := by
  rw [fault?_eq_none_iff] at fits ⊢
  cases step with
  | key name => exact ⟨by simp [putChild, Value.kind, Step.container], by simp⟩
  | index position =>
      obtain ⟨bounded, _⟩ := fits.reach position rfl
      refine ⟨by simp [putChild, Value.kind, Step.container], ?_⟩
      intro index same
      obtain rfl := Step.index.inj same
      simp only [putChild, lengthOf, List.length_set, length_padTo]
      omega
  | append => exact (lasting rfl).elim

/-- What a read finds; a null is not found. -/
def read (root : Value) (steps : List Step) : Option Value :=
  (lookup root steps).filter (!·.isNull)

theorem lookup_null (step : Step) (steps : List Step) : lookup .null (step :: steps) = none := by
  rw [lookup, child?_null, Option.bind_none]

theorem read_null (steps : List Step) : read .null steps = none := by
  cases steps with
  | nil => rfl
  | cons step steps => rw [read, lookup_null, Option.filter_none]

theorem read_cons (root : Value) (step : Step) (steps : List Step) :
    read root (step :: steps) = (visible? root step).bind (read · steps) := by
  rw [read, lookup, visible?]
  cases child? root step with
  | none => rfl
  | some child =>
      cases child with
      | null => exact read_null steps
      | _ => rfl

theorem read_getD (met : Option Value) (steps : List Step) :
    read (met.getD .null) steps = (met.bind (lookup · steps)).filter (!·.isNull) := by
  cases met with
  | none => exact read_null steps
  | some value => rfl

theorem lookup_assign (new : Value) (fits : firstFault? (some root) steps = none)
    (lasting : .append ∉ steps) (rest : List Step) :
    lookup (assign new steps root).2 (steps ++ rest) = lookup new rest := by
  induction steps generalizing root with
  | nil => rfl
  | cons step steps ih =>
      obtain ⟨here, below⟩ := Option.or_eq_none_iff.mp fits
      obtain ⟨lastingHere, lastingBelow⟩ := not_or.mp (List.mem_cons.not.mp lasting)
      rw [assign_cons here, List.cons_append, lookup, child?_putChild _ _ (Ne.symm lastingHere)]
      exact ih (by rwa [firstFault?_getD]) lastingBelow

/-- Where two paths part, a write along the one is not seen along the other. -/
theorem read_assign (new : Value) (fits : firstFault? (some root) steps = none)
    (lasting : .append ∉ steps) (apart : ¬ steps <+: others) (otherApart : ¬ others <+: steps) :
    read (assign new steps root).2 others = read root others := by
  induction steps generalizing root others with
  | nil => exact (apart List.nil_prefix).elim
  | cons step steps ih =>
      cases others with
      | nil => exact (otherApart List.nil_prefix).elim
      | cons other others =>
          obtain ⟨here, below⟩ := Option.or_eq_none_iff.mp fits
          obtain ⟨lastingHere, lastingBelow⟩ := not_or.mp (List.mem_cons.not.mp lasting)
          rw [assign_cons here]
          by_cases same : step = other
          · subst same
            rw [read, lookup, child?_putChild _ _ (Ne.symm lastingHere), Option.bind_some]
            have fitsBelow : firstFault? (some ((child? root step).getD .null)) steps = none := by
              rwa [firstFault?_getD]
            have ofChild := ih fitsBelow lastingBelow (by simpa using apart) (by simpa using otherApart)
            exact ofChild.trans (read_getD _ others)
          · simp only [read_cons, visible?_putChild _ here (Ne.symm lastingHere) same]

/-- A second write along the same steps finds them all fitting. -/
theorem firstFault?_assign (new : Value) (fits : firstFault? (some root) steps = none)
    (lasting : .append ∉ steps) : firstFault? (some (assign new steps root).2) steps = none := by
  induction steps generalizing root with
  | nil => rfl
  | cons step steps ih =>
      obtain ⟨here, below⟩ := Option.or_eq_none_iff.mp fits
      obtain ⟨lastingHere, lastingBelow⟩ := not_or.mp (List.mem_cons.not.mp lasting)
      rw [assign_cons here, firstFault?, fault?_putChild _ here (Ne.symm lastingHere),
        Option.none_or, Option.bind_some, child?_putChild _ _ (Ne.symm lastingHere)]
      exact ih (by rwa [firstFault?_getD]) lastingBelow

theorem assign_assign (new other : Value) (fits : firstFault? (some root) steps = none)
    (lasting : .append ∉ steps) :
    (assign other steps (assign new steps root).2).2 = (assign other steps root).2 := by
  induction steps generalizing root with
  | nil => rfl
  | cons step steps ih =>
      obtain ⟨here, below⟩ := Option.or_eq_none_iff.mp fits
      obtain ⟨lastingHere, lastingBelow⟩ := not_or.mp (List.mem_cons.not.mp lasting)
      rw [assign_cons here, assign_cons (fault?_putChild _ here (Ne.symm lastingHere)),
        assign_cons here, child?_putChild _ _ (Ne.symm lastingHere), Option.getD_some,
        ih (by rwa [firstFault?_getD]) lastingBelow,
        putChild_putChild _ _ _ (Ne.symm lastingHere)]

theorem fault?_append (bounded : lengthOf met + 1 < Decimal.positionLimit) :
    fault? met (.index (lengthOf met)) = fault? met .append := by
  have reached : inReach (lengthOf met) (lengthOf met) = true := by
    rw [inReach_iff]
    simp only [Decimal.positionLimit] at bounded
    omega
  simp only [fault?, reached, Step.container]
  rfl

theorem putChild_append (root child : Value) :
    putChild root (.index (lengthOf (some root))) child = putChild root .append child := by
  cases root <;> simp [putChild, asSequence?, lengthOf, padTo]

theorem lengthOf_lookup_getD (met : Option Value) (steps : List Step) :
    lengthOf (lookup (met.getD .null) steps) = lengthOf (met.bind (lookup · steps)) := by
  cases met with
  | none =>
      cases steps with
      | nil => rfl
      | cons step steps => rw [Option.getD_none, lookup_null, Option.bind_none]
  | some value => rfl

/-- Appending to a sequence writes at the position behind its last item. -/
theorem assign_append (new : Value) (fits : firstFault? (some root) (steps ++ [.append]) = none)
    (bounded : lengthOf (lookup root steps) + 1 < Decimal.positionLimit) :
    (assign new (steps ++ [.index (lengthOf (lookup root steps))]) root).2 =
      (assign new (steps ++ [.append]) root).2 := by
  induction steps generalizing root with
  | nil =>
      obtain ⟨here, _⟩ := Option.or_eq_none_iff.mp fits
      have indexed := (fault?_append bounded).trans here
      rw [List.nil_append, List.nil_append, assign_cons here, assign_cons indexed]
      exact putChild_append root new
  | cons step steps ih =>
      obtain ⟨here, below⟩ := Option.or_eq_none_iff.mp fits
      have length := lengthOf_lookup_getD (child? root step) steps
      rw [List.cons_append, List.cons_append, assign_cons here, assign_cons here]
      rw [lookup, ← length] at bounded ⊢
      rw [ih (by rwa [firstFault?_getD]) bounded]

theorem firstFault?_append_index (bounded : lengthOf (lookup root steps) + 1 < Decimal.positionLimit) :
    firstFault? (some root) (steps ++ [.index (lengthOf (lookup root steps))]) =
      firstFault? (some root) (steps ++ [.append]) := by
  simp only [firstFault?_append, firstFault?, Option.bind_some, fault?_append bounded]

theorem parseMarker_ofNat {position : Nat} (bounded : position < Decimal.positionLimit) :
    parseMarker (Decimal.ofNat position) = .ok (.index position) := by
  have nonempty : (Decimal.ofNat position).isEmpty = false := by
    simpa using Decimal.ofNat_ne_nil position
  simp only [parseMarker, nonempty, Decimal.toNat?_ofNat, bounded, Bool.false_eq_true, ↓reduceIte]

theorem not_mem_ofNat {c : Char} (position : Nat) (other : Decimal.isDigit c = false) :
    c ∉ Decimal.ofNat position := by
  intro member
  rw [Decimal.isDigit_of_mem_ofNat member] at other
  cases other

theorem marked_nil (path : String) : marked path [] = path ++ "[]" := rfl

theorem marked_ofNat (path : String) (position : Nat) :
    marked path (Decimal.ofNat position) = path ++ "[" ++ toString position ++ "]" := by
  apply String.toList_inj.mp
  simp [marked, marker, Decimal.ofNat]

theorem parse_eq_ok (parsed : (parse path).toOption = some steps) : parse path = .ok steps := by
  cases whole : parse path with
  | error error => simp [whole, Except.toOption] at parsed
  | ok _ => simp_all [Except.toOption]

theorem exists_malformed (malformed : (parse path).toOption = none) :
    ∃ fault, parse path = .error (.malformedPath path fault) := by
  cases whole : parse path with
  | error error =>
      obtain ⟨fault, rfl⟩ := error_of_parse whole
      exact ⟨fault, rfl⟩
  | ok steps => simp [whole, Except.toOption] at malformed

/-- Success on both sides, or errors of one kind on both. -/
def SameKind : Except ObjectError Unit → Except ObjectError Unit → Prop
  | .ok (), .ok () => True
  | .error (.malformedPath _ _), .error (.malformedPath _ _) => True
  | .error (.pathConflict _ found), .error (.pathConflict _ other) => found = other
  | _, _ => False

theorem sameKind_of_fault (fault : AssignFault) (path other : String) :
    SameKind (.error (fault.toError path)) (.error (fault.toError other)) := by
  cases fault with
  | beyondEnd index length => exact trivial
  | conflict found => exact rfl

theorem get_eq_read (root : Value) (target : Option Target) (parsed : parse path = .ok steps)
    (lasting : .append ∉ steps) :
    ({ root } : BusinessObject).get path target =
      match read root steps, target with
      | none, _ => .ok none
      | some value, none => .ok (some value)
      | some value, some target => some <$> Coercion.coerce value target := by
  simp only [BusinessObject.get, parsed, read, ok_bind, if_neg lasting]
  cases lookup root steps with
  | none => rfl
  | some value => cases value <;> cases target <;> rfl

/-- What is written at a path is found there and below, nothing else becomes visible at any path that
parts from it, and a later write at the path leaves what it would have left without the first, the
order of entries included. Appending to a sequence is writing at the position of its length; where
there is none, that is the first position. No list in memory is so long that it has no such
position. -/
theorem writes_obey_lens_laws (root new : Value) (path : String) :
    (∀ steps after, parse path = .ok steps → .append ∉ steps →
      set root path new = (.ok (), after) →
        (∀ rest, lookup after (steps ++ rest) = lookup new rest) ∧
        (∀ other others, parse other = .ok others → .append ∉ others →
          ¬ steps <+: others → ¬ others <+: steps → ∀ target,
            ({ root := after } : BusinessObject).get other target =
              ({ root } : BusinessObject).get other target) ∧
        (∀ value, (set after path value).1 = .ok () ∧
          set after path value = set root path value)) ∧
    (∀ length, lengthOf ((stepsBefore? path).bind (lookup root)) = length →
      length + 1 < Decimal.positionLimit →
        SameKind (set root (path ++ "[]") new).1
            (set root (path ++ "[" ++ toString length ++ "]") new).1 ∧
          (set root (path ++ "[]") new).2 =
            (set root (path ++ "[" ++ toString length ++ "]") new).2) := by
  constructor
  · intro steps after parsed lasting written
    have fits : firstFault? (some root) steps = none := by
      obtain ⟨_, sameSteps, fits⟩ := set_ok_iff.mp (congrArg Prod.fst written)
      rw [parsed] at sameSteps
      cases sameSteps
      exact fits
    rw [set_of_parse new parsed, fits] at written
    obtain rfl : (assign new steps root).2 = after := congrArg Prod.snd written
    refine ⟨lookup_assign new fits lasting, ?_, ?_⟩
    · intro other others otherParsed otherLasting apart otherApart target
      rw [get_eq_read _ target otherParsed otherLasting,
        get_eq_read _ target otherParsed otherLasting, read_assign new fits lasting apart otherApart]
    · intro value
      have again := firstFault?_assign new fits lasting
      rw [set_of_parse value parsed, set_of_parse value parsed, again, fits]
      exact ⟨rfl, congrArg _ (assign_assign new value fits lasting)⟩
  · intro length found bounded
    have content : parseMarker [] = .ok .append := rfl
    have ofAppend := parse_marked path (by simp) (by simp) content
    have ofIndex := parse_marked path
      (not_mem_ofNat length (by decide)) (not_mem_ofNat length (by decide))
      (parseMarker_ofNat (Nat.lt_of_succ_lt bounded))
    rw [marked_nil] at ofAppend
    rw [marked_ofNat] at ofIndex
    cases before : stepsBefore? path with
    | none =>
        rw [before] at ofAppend ofIndex
        obtain ⟨fault, malformed⟩ := exists_malformed ofAppend
        obtain ⟨otherFault, otherMalformed⟩ := exists_malformed ofIndex
        simp only [set, malformed, otherMalformed]
        exact ⟨trivial, trivial⟩
    | some steps =>
        rw [before] at found ofAppend ofIndex
        subst found
        rw [set_of_parse new (parse_eq_ok ofAppend), set_of_parse new (parse_eq_ok ofIndex),
          Option.bind_some, firstFault?_append_index bounded]
        cases first : firstFault? (some root) (steps ++ [.append]) with
        | none => exact ⟨trivial, (assign_append new first bounded).symm⟩
        | some fault => exact ⟨sameKind_of_fault fault _ _, rfl⟩

/-- A write below an item that is not there yet, which pads the sequence before it. -/
theorem padded_write_is_found :
    set (.map [("a", .null)]) "a[1].b" (.string "x") =
        (.ok (), .map [("a", .sequence [.null, .map [("b", .string "x")]])]) ∧
      ∀ rest, lookup (.map [("a", .sequence [.null, .map [("b", .string "x")]])])
        ([.key "a", .index 1, .key "b"] ++ rest) = lookup (.string "x") rest := by
  have written : set (.map [("a", .null)]) "a[1].b" (.string "x") =
      (.ok (), .map [("a", .sequence [.null, .map [("b", .string "x")]])]) := rfl
  have laws := writes_obey_lens_laws (.map [("a", .null)]) (.string "x") "a[1].b"
  exact ⟨written, (laws.1 [.key "a", .index 1, .key "b"] _ rfl (by decide) written).1⟩

end DataAccess.Path
