import DataAccess.Path
import DataAccess.Proofs.Except
import Mathlib.Data.List.Basic

namespace DataAccess.Path

variable {first : Bool} {init rest : List (List Char)} {last segment text inner : List Char}

/-- What is added to a text is added to its last piece, unless it has separators of its own. -/
theorem exists_splitOn_append (separator : Char) (text : List Char) :
    ∃ init last, text.splitOn separator = init ++ [last] ∧
      ∀ more, separator ∉ more → (text ++ more).splitOn separator = init ++ [last ++ more] := by
  induction text with
  | nil => exact ⟨[], [], rfl, fun more absent => List.splitOn_eq_singleton absent⟩
  | cons c text ih =>
      obtain ⟨init, last, whole, extended⟩ := ih
      by_cases same : c = separator
      · refine ⟨[] :: init, last, ?_, fun more absent => ?_⟩
        · simp [List.splitOn_cons_eq_if_modifyHead, same, whole]
        · simp [List.splitOn_cons_eq_if_modifyHead, same, extended more absent]
      · cases init with
        | nil =>
            refine ⟨[], c :: last, ?_, fun more absent => ?_⟩
            · simp [List.splitOn_cons_eq_if_modifyHead, same, whole]
            · simp [List.splitOn_cons_eq_if_modifyHead, same, extended more absent]
        | cons piece init =>
            refine ⟨(c :: piece) :: init, last, ?_, fun more absent => ?_⟩
            · simp [List.splitOn_cons_eq_if_modifyHead, same, whole]
            · simp [List.splitOn_cons_eq_if_modifyHead, same, extended more absent]

theorem toOption_bind {α β : Type} (result : Except PathFault α) (next : α → Except PathFault β) :
    (result >>= next).toOption = result.toOption.bind fun value => (next value).toOption := by
  cases result <;> rfl

theorem toOption_bind_pure {α β : Type} (result : Except PathFault α) (f : α → β) :
    (result >>= fun value => pure (f value)).toOption = result.toOption.map f := by
  cases result <;> rfl

/-- Steps, where there are any, and one more behind them. -/
def andThen (steps : Option (List Step)) (last : Except PathFault Step) : Option (List Step) :=
  steps.bind fun steps => last.toOption.map fun step => steps ++ [step]

theorem andThen_map (steps : Option (List Step)) (before : List Step)
    (last : Except PathFault Step) :
    andThen (steps.map (before ++ ·)) last = (andThen steps last).map (before ++ ·) := by
  cases steps <;> cases last <;> simp [andThen, Except.toOption]

theorem parseMarker_opened (before inner : List Char) :
    (parseMarker (before ++ '[' :: inner)).toOption = none := by
  have notDigits : Decimal.toNat? (before ++ '[' :: inner) = none := by
    simp [Decimal.toNat?, Decimal.isDigit]
  simp only [parseMarker, notDigits]
  cases before <;> rfl

theorem parseMarkers_opened (inner : List Char) (more : rest ≠ []) :
    (parseMarkers (('[' :: inner) :: rest)).toOption =
      (parseMarker inner).toOption.bind fun step =>
        (parseMarkers rest).toOption.map ([step] ++ ·) := by
  have continues : rest.isEmpty = false := by simpa using more
  simp only [parseMarkers, continues, Bool.false_eq_true, ↓reduceIte, toOption_bind]
  cases parseMarker inner <;> cases parseMarkers rest <;> rfl

theorem parseMarkers_concat (init : List (List Char)) (last inner : List Char) :
    (parseMarkers (init ++ [last ++ '[' :: inner, []])).toOption =
      andThen (parseMarkers (init ++ [last])).toOption (parseMarker inner) := by
  induction init with
  | nil =>
      cases last with
      | nil =>
          rw [List.nil_append, List.nil_append, parseMarkers_opened _ (by simp)]
          cases parseMarker inner <;> rfl
      | cons c text =>
          -- Two opening brackets in one piece: neither text closes the first of them well.
          by_cases opens : c = '['
          · subst opens
            rw [List.nil_append, List.cons_append, parseMarkers_opened _ (by simp),
              parseMarker_opened]
            rfl
          · simp [parseMarkers, opens, andThen, Except.toOption]
  | cons piece init ih =>
      cases piece with
      | nil => cases init <;> simp [parseMarkers, andThen, Except.toOption]
      | cons c text =>
          by_cases opens : c = '['
          · subst opens
            rw [List.cons_append, List.cons_append, parseMarkers_opened _ (by simp),
              parseMarkers_opened _ (by simp), ih]
            cases parseMarker text with
            | error fault => rfl
            | ok step => exact (andThen_map _ [step] _).symm
          · simp [parseMarkers, opens, andThen, Except.toOption]

/-- The text of a marker with the given content. -/
def marker (inner : List Char) : List Char := '[' :: (inner ++ [']'])

theorem parseMarkers_marker (text : List Char) (unclosed : ']' ∉ inner) :
    (parseMarkers ((text ++ marker inner).splitOn ']')).toOption =
      andThen (parseMarkers (text.splitOn ']')).toOption (parseMarker inner) := by
  obtain ⟨init, last, whole, extended⟩ := exists_splitOn_append ']' text
  have pieces : (text ++ marker inner).splitOn ']' = init ++ [last ++ '[' :: inner, []] := by
    have apart : text ++ marker inner = (text ++ '[' :: inner) ++ ']' :: [] := by simp [marker]
    rw [apart, List.splitOn_append_cons_self, extended _ (by simpa using unclosed)]
    simp
  rw [pieces, whole, parseMarkers_concat]

theorem takeWhile_marker (segment inner : List Char) :
    (segment ++ marker inner).takeWhile (· ≠ '[') = segment.takeWhile (· ≠ '[') := by
  induction segment with
  | nil => simp [marker]
  | cons c segment ih => simp only [List.cons_append, List.takeWhile_cons, ih]

theorem dropWhile_marker (segment inner : List Char) :
    (segment ++ marker inner).dropWhile (· ≠ '[') =
      segment.dropWhile (· ≠ '[') ++ marker inner := by
  induction segment with
  | nil => simp [marker]
  | cons c segment ih =>
      simp only [List.cons_append, List.dropWhile_cons, ih]
      split <;> rfl

/-- Only at the beginning of a path may a marker stand alone. -/
theorem parseSegment_marker (named : first = true → segment ≠ []) (unclosed : ']' ∉ inner) :
    (parseSegment first (segment ++ marker inner)).toOption =
      andThen (parseSegment first segment).toOption (parseMarker inner) := by
  have ofMarkers := parseMarkers_marker (segment.dropWhile (· ≠ '[')) unclosed
  simp only [parseSegment, takeWhile_marker, dropWhile_marker]
  by_cases stray : ']' ∈ segment.takeWhile (· ≠ '[')
  · simp only [stray, ↓reduceIte]
    rfl
  · simp only [stray, ↓reduceIte]
    by_cases unnamed : (segment.takeWhile (· ≠ '[')).isEmpty = true
    · simp only [unnamed, ↓reduceIte]
      cases first with
      | false => rfl
      | true =>
          have markers : (segment.dropWhile (· ≠ '[')).isEmpty = false := by
            have parts : segment.takeWhile (· ≠ '[') ++ segment.dropWhile (· ≠ '[') = segment :=
              List.takeWhile_append_dropWhile
            rw [List.isEmpty_iff.mp unnamed, List.nil_append] at parts
            rw [parts]
            simpa using named rfl
          have more : (segment.dropWhile (· ≠ '[') ++ marker inner).isEmpty = false := by
            simp [marker]
          simp only [markers, more, Bool.not_false, Bool.and_self, ↓reduceIte]
          exact ofMarkers
    · simp only [unnamed, Bool.false_eq_true, ↓reduceIte]
      rw [toOption_bind_pure _ (_ :: ·), toOption_bind_pure _ (_ :: ·), ofMarkers]
      exact (andThen_map _ [_] _).symm

theorem parseSegments_single (first : Bool) (segment : List Char) :
    (parseSegments first [segment]).toOption = (parseSegment first segment).toOption := by
  simp only [parseSegments]
  cases parseSegment first segment <;> simp [bind, Except.bind, pure, Except.pure]

/-- A marker that stands alone addresses the root. -/
theorem parseSegment_alone (unclosed : ']' ∉ inner) :
    (parseSegment true (marker inner)).toOption = andThen (some []) (parseMarker inner) := by
  have ofMarkers := parseMarkers_marker [] unclosed
  rw [List.splitOn_nil, List.nil_append] at ofMarkers
  have unnamed : (marker inner).takeWhile (· ≠ '[') = [] := by simp [marker]
  have whole : (marker inner).dropWhile (· ≠ '[') = marker inner := by simp [marker]
  simp only [parseSegment, unnamed, whole]
  exact ofMarkers

theorem parseSegments_marker (named : first = true → init ++ [last] ≠ [[]])
    (unclosed : ']' ∉ inner) :
    (parseSegments first (init ++ [last ++ marker inner])).toOption =
      andThen (parseSegments first (init ++ [last])).toOption (parseMarker inner) := by
  induction init generalizing first with
  | nil =>
      have namedLast : first = true → last ≠ [] := fun isFirst empty =>
        named isFirst (by simp [empty])
      have ofSegment := parseSegment_marker namedLast unclosed
      rw [List.nil_append, List.nil_append, parseSegments_single, parseSegments_single, ofSegment]
  | cons piece init ih =>
      have namedRest : false = true → init ++ [last] ≠ [[]] := by simp
      have ofRest := ih namedRest
      simp only [List.cons_append, parseSegments]
      cases parseSegment first piece with
      | error fault => rfl
      | ok steps =>
          rw [ok_bind, ok_bind, toOption_bind_pure, toOption_bind_pure, ofRest, andThen_map]

/-- The steps in front of a marker: those of the path that it follows, of which none appends. The
empty text is no path, but a marker behind it addresses the root. -/
def stepsBefore? (path : String) : Option (List Step) :=
  if path.isEmpty then some [] else (parse path).toOption.filter (.append ∉ ·)

/-- A path with a marker behind it. -/
def marked (path : String) (inner : List Char) : String := path ++ String.ofList (marker inner)

theorem toOption_parse (path : String) :
    (parse path).toOption = (parseSteps path.toList).toOption := by
  simp only [parse]
  cases parseSteps path.toList <;> rfl

theorem parseSteps_eq (nonempty : text ≠ []) :
    (parseSteps text).toOption =
      (parseSegments true (text.splitOn '.')).toOption.filter (.append ∉ ·.dropLast) := by
  have notEmpty : text.isEmpty = false := by simpa using nonempty
  simp only [parseSteps, notEmpty, Bool.false_eq_true, ↓reduceIte, toOption_bind]
  cases parseSegments true (text.splitOn '.') with
  | error fault => rfl
  | ok steps =>
      by_cases appends : .append ∈ steps.dropLast <;>
        simp [Except.toOption, appends, Option.filter_some]

theorem splitOn_ne_single_nil (separator : Char) (nonempty : text ≠ []) :
    text.splitOn separator ≠ [[]] := by
  intro single
  apply nonempty
  have joined : [separator].intercalate (text.splitOn separator) = text :=
    List.intercalate_splitOn separator
  rw [single] at joined
  exact joined.symm

/-- An appending step is in the way of a marker also where it is the last one. -/
theorem filter_andThen (steps : Option (List Step)) (step : Step) :
    (andThen steps (.ok step)).filter (.append ∉ ·.dropLast) =
      ((steps.filter (.append ∉ ·.dropLast)).filter (.append ∉ ·)).map (· ++ [step]) := by
  cases steps with
  | none => rfl
  | some steps =>
      have sublist := (List.dropLast_sublist steps).subset
      by_cases before : .append ∈ steps.dropLast
      · simp [andThen, Except.toOption, Option.filter_some, before, sublist before]
      · by_cases appends : .append ∈ steps <;>
          simp [andThen, Except.toOption, Option.filter_some, before, appends]

/-- A marker adds its step to those of the path before it. -/
theorem parse_marked {step : Step} (path : String) (undotted : '.' ∉ inner)
    (unclosed : ']' ∉ inner) (content : parseMarker inner = .ok step) :
    (parse (marked path inner)).toOption = (stepsBefore? path).map (· ++ [step]) := by
  have undottedMarker : '.' ∉ marker inner := by simpa [marker] using undotted
  rw [toOption_parse, marked, String.toList_append, String.toList_ofList,
    parseSteps_eq (by simp [marker])]
  by_cases empty : path = ""
  · subst empty
    have alone : ("".toList ++ marker inner).splitOn '.' = [marker inner] :=
      List.splitOn_eq_singleton (by simpa using undottedMarker)
    rw [alone, parseSegments_single, parseSegment_alone unclosed, content]
    simp [andThen, stepsBefore?, Except.toOption, Option.filter_some]
  · have nonempty : path.toList ≠ [] := by simpa using empty
    obtain ⟨init, last, whole, extended⟩ := exists_splitOn_append '.' path.toList
    have named := splitOn_ne_single_nil '.' nonempty
    rw [whole] at named
    have notEmpty : path.isEmpty = false := by simpa using empty
    rw [extended _ undottedMarker, parseSegments_marker (fun _ => named) unclosed, content,
      stepsBefore?, notEmpty, toOption_parse, parseSteps_eq nonempty, whole]
    exact filter_andThen _ step

end DataAccess.Path
