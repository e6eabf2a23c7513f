import DataAccess.Object
import DataAccess.Proofs.Json.Reading

namespace DataAccess

theorem Value.ofJsonBytes?_toUTF8 (text : String) : ofJsonBytes? text.toUTF8 = ofJson? text := by
  have decoded : String.fromUTF8? text.toUTF8 = some text := by
    rw [String.fromUTF8?, String.toUTF8_eq_toByteArray, dif_pos text.isValidUTF8]
    rfl
  rw [ofJsonBytes?, decoded, Option.bind_some]

namespace BusinessObject

variable {object receiver after read : BusinessObject} {error : ObjectError} {bytes : ByteArray}

theorem parse_toJson (well : object.root.WellFormed) (integral : object.root.Integral) :
    parse object.toJson.toUTF8 =
      if object.root.depth ≤ Json.nestingLimit then .ok object else .error .json := by
  rw [parse, Value.ofJsonBytes?_toUTF8, toJson, Value.ofJson?_toJson,
    Value.reread_eq_self well integral]
  by_cases within : object.root.depth ≤ Json.nestingLimit
  · rw [if_pos within, if_pos within]
  · rw [if_neg within, if_neg within]

theorem parse_toJson_eq_ok (well : object.root.WellFormed) (integral : object.root.Integral) :
    parse object.toJson.toUTF8 = .ok read ↔ object.root.depth ≤ 127 ∧ read = object := by
  rw [parse_toJson well integral]
  by_cases within : object.root.depth ≤ Json.nestingLimit
  · rw [if_pos within, Except.ok.injEq, eq_comm]
    exact (and_iff_right within).symm
  · rw [if_neg within]
    exact iff_of_false nofun fun ⟨nested, _⟩ => within nested

theorem error_of_parse (refused : parse bytes = .error error) : error = .json := by
  unfold parse at refused
  split at refused <;> cases refused
  rfl

theorem fromJson_eq_ok :
    receiver.fromJson bytes = (.ok (), after) ↔ parse bytes = .ok after := by
  unfold fromJson
  cases parse bytes <;> simp

theorem fromJson_eq_error :
    receiver.fromJson bytes = (.error error, after) ↔
      parse bytes = .error error ∧ after = receiver := by
  unfold fromJson
  cases parse bytes <;> simp [eq_comm]

theorem fromJson_succeeds_iff :
    (receiver.fromJson bytes).1 = .ok () ↔ ∃ read, parse bytes = .ok read := by
  unfold fromJson
  cases parse bytes <;> simp

/-- The text of an object is read as the same object, unless more than 127 containers are nested in
it; then there is an error, and an object that was to take the content over keeps its own. -/
theorem exported_object_is_imported (well : object.root.WellFormed)
    (integral : object.root.Integral) :
    ((∃ read, parse object.toJson.toUTF8 = .ok read) ↔ object.root.depth ≤ 127) ∧
    (∀ read, parse object.toJson.toUTF8 = .ok read →
      read.root = object.root ∧ read.toJson.toUTF8 = object.toJson.toUTF8) ∧
    (∀ error, parse object.toJson.toUTF8 = .error error → error = .json) ∧
    ∀ receiver : BusinessObject,
      ((receiver.fromJson object.toJson.toUTF8).1 = .ok () ↔ object.root.depth ≤ 127) ∧
      (∀ after, receiver.fromJson object.toJson.toUTF8 = (.ok (), after) →
        after.root = object.root ∧ after.toJson.toUTF8 = object.toJson.toUTF8) ∧
      ∀ error after, receiver.fromJson object.toJson.toUTF8 = (.error error, after) →
        error = .json ∧ after = receiver := by
  have parses : (∃ read, parse object.toJson.toUTF8 = .ok read) ↔ object.root.depth ≤ 127 := by
    simp only [parse_toJson_eq_ok well integral, exists_and_left, exists_eq, and_true]
  have same (read : BusinessObject) (parsed : parse object.toJson.toUTF8 = .ok read) :
      read.root = object.root ∧ read.toJson.toUTF8 = object.toJson.toUTF8 := by
    obtain ⟨_, rfl⟩ := (parse_toJson_eq_ok well integral).mp parsed
    exact ⟨rfl, rfl⟩
  refine ⟨parses, same, fun _ => error_of_parse, fun receiver => ⟨?_, ?_, ?_⟩⟩
  · exact fromJson_succeeds_iff.trans parses
  · intro after imported
    exact same after (fromJson_eq_ok.mp imported)
  · intro error after refused
    obtain ⟨parsed, kept⟩ := fromJson_eq_error.mp refused
    exact ⟨error_of_parse parsed, kept⟩

/-- The greatest integer, under a name with a quote and a line feed, in nested lists. -/
def nested : Nat → Value
  | 0 => .map [("\"\n", .number (.int ⟨18446744073709551615, by decide, by decide⟩))]
  | count + 1 => .sequence [nested count]

theorem nested_sound (count : Nat) :
    (nested count).WellFormed ∧ (nested count).Integral ∧ (nested count).depth = count + 1 := by
  induction count with
  | zero => exact ⟨⟨by decide, trivial, trivial⟩, ⟨trivial, trivial⟩, rfl⟩
  | succ count ih =>
      obtain ⟨well, integral, depth⟩ := ih
      refine ⟨⟨well, trivial⟩, ⟨integral, trivial⟩, ?_⟩
      simp only [nested, Value.depth, Value.depthItems, depth]
      omega

theorem nesting_ends_at_127 :
    (∃ read, parse (toJson { root := nested 126 }).toUTF8 = .ok read ∧ read.root = nested 126) ∧
    ∀ receiver : BusinessObject, ∃ error,
      receiver.fromJson (toJson { root := nested 127 }).toUTF8 = (.error error, receiver) := by
  obtain ⟨well, integral, depth⟩ := nested_sound 126
  obtain ⟨deeperWell, deeperIntegral, deeper⟩ := nested_sound 127
  obtain ⟨parses, same, _⟩ := @exported_object_is_imported { root := nested 126 } well integral
  obtain ⟨_, _, _, imports⟩ :=
    @exported_object_is_imported { root := nested 127 } deeperWell deeperIntegral
  obtain ⟨read, parsed⟩ := parses.mpr (Nat.le_of_eq depth)
  refine ⟨⟨read, parsed, (same read parsed).1⟩, fun receiver => ?_⟩
  obtain ⟨succeeds, _, keeps⟩ := imports receiver
  cases imported : receiver.fromJson (toJson { root := nested 127 }).toUTF8 with
  | mk result after =>
      cases result with
      | ok _ =>
          have within : (nested 127).depth ≤ 127 := succeeds.mp (congrArg Prod.fst imported)
          omega
      | error error =>
          obtain ⟨_, rfl⟩ := keeps error after imported
          exact ⟨error, rfl⟩

end BusinessObject

end DataAccess
