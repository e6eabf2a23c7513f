import DataAccess.Proofs.Document.Matching
import DataAccess.Proofs.Document.Writing
import DataAccess.Proofs.Path.Keys

/-!
# Documents that are upserted

A filter of equality conditions seeds the document that it does not find. The seeded document
satisfies the filter, and the same replacement then finds it, unless a condition is the empty
document: the filter takes it for a value, and the seeding for a document of operators without an
`$eq`.
-/

namespace DataAccess.Document

variable {filter document added : Record} {name : String} {condition : Value}

/-- A condition that a field is equal to a value. -/
structure IsLiteral (entry : String × Value) : Prop where
  undotted : '.' ∉ entry.1.toList
  ordinary : isOperator entry.1 = false
  literal : ∀ fields, entry.2 = .map fields → isOperatorDocument fields = false

theorem fieldHolds_literal (literal : ∀ fields, condition = .map fields →
    isOperatorDocument fields = false) (actual : Option Value) :
    fieldHolds actual condition = .ok (equals actual condition) := by
  cases condition with
  | map fields => simp only [fieldHolds, literal fields rfl, Bool.false_eq_true, ↓reduceIte]
  | _ => rfl

theorem entriesHold_literals (literals : ∀ entry ∈ filter, IsLiteral entry) :
    entriesHold document filter =
      .ok (filter.all fun entry => equals (Dict.get? document entry.1) entry.2) := by
  induction filter with
  | nil => rfl
  | cons entry rest ih =>
      obtain ⟨first, others⟩ := List.forall_mem_cons.mp literals
      obtain ⟨key, condition⟩ := entry
      rw [entriesHold_cons first.ordinary, fieldHolds_literal first.literal,
        Record.field?_undotted first.undotted, ih others, ok_bind, List.all_cons]
      cases equals (Dict.get? document key) condition <;> rfl

/-- The seeding takes a condition for a value just when the filter does and it is not empty. -/
theorem literal?_eq (literal : ∀ fields, condition = .map fields →
    isOperatorDocument fields = false) :
    literal? condition = if condition = .map [] then none else some condition := by
  cases condition with
  | map fields =>
      cases fields with
      | nil => rfl
      | cons entry rest =>
          have notOperators : ((entry :: rest).all fun entry => isOperator entry.1) = false := by
            simpa [isOperatorDocument] using literal _ rfl
          simp [literal?, notOperators]
  | _ => rfl

theorem get?_seedField (document : Record) (field key : String) (condition : Value) :
    Dict.get? (seedField document field condition) key =
      (Dict.get? document key).or (if field = key then literal? condition else none) := by
  rw [seedField]
  cases literal? condition with
  | none => simp
  | some value => simp [Dict.get?_insertNew, Dict.get?]

theorem get?_seed (distinct : Dict.Distinct filter)
    (literals : ∀ entry ∈ filter, IsLiteral entry) (key : String) :
    Dict.get? (seed document filter) key =
      (Dict.get? document key).or ((Dict.get? filter key).bind literal?) := by
  induction filter generalizing document with
  | nil => simp [seed, Dict.get?]
  | cons entry rest ih =>
      obtain ⟨first, others⟩ := List.forall_mem_cons.mp literals
      obtain ⟨fresh, distinctRest⟩ := List.nodup_cons.mp distinct
      obtain ⟨field, condition⟩ := entry
      rw [seed_cons first.ordinary first.undotted, ih distinctRest others, get?_seedField, Option.or_assoc]
      by_cases same : field = key
      · subst same
        rw [Dict.get?_eq_none_iff.mpr fresh]
        simp [Dict.get?]
      · simp [Dict.get?, same]

/-- A document to which the values of a filter have been added, and an `_id` if it was missing. -/
structure Grown (document filter added : Record) : Prop where
  kept : ∀ key value, Dict.get? document key = some value → Dict.get? added key = some value
  seeded : ∀ entry ∈ filter, entry.2 ≠ .map [] → Dict.get? added entry.1 = some entry.2
  unseeded : ∀ entry ∈ filter, entry.2 = .map [] →
    Dict.get? added entry.1 = none ∨ ∃ text, Dict.get? added entry.1 = some (.string text)
  dotted : ∀ key : String, '.' ∈ key.toList → Dict.get? added key = Dict.get? document key

theorem StoredAs.get?_of_dotted {given stored : Record} {id : Value} {key : String}
    (storedAs : StoredAs given id stored) (dotted : '.' ∈ key.toList) :
    Dict.get? stored key = Dict.get? given key := by
  have apart : idField ≠ key := by
    rintro rfl
    exact absurd dotted (by decide)
  rw [storedAs.get?_eq, if_neg apart, Option.or_none]

section

variable (wellFormed : (Value.map filter).WellFormed)
variable (literals : ∀ entry ∈ filter, IsLiteral entry)

include wellFormed literals

theorem grown_of_identified {ids idsAfter : IdSupply}
    (absent : ∀ key ∈ Dict.keys filter, Dict.get? document key = none)
    (identified : Identified ids (seed document filter) added idsAfter) :
    Grown document filter added := by
  obtain ⟨distinct, -⟩ := Value.wellFormed_map.mp wellFormed
  have atKey : ∀ entry ∈ filter, Dict.get? (seed document filter) entry.1 =
      if entry.2 = .map [] then none else some entry.2 := by
    intro entry member
    rw [get?_seed distinct literals, absent _ (Dict.mem_keys_of_mem member),
      Dict.get?_of_mem distinct member, Option.none_or, Option.bind_some,
      literal?_eq (literals entry member).literal]
  have dottedSeeded : ∀ key : String, '.' ∈ key.toList →
      Dict.get? (seed document filter) key = Dict.get? document key := by
    intro key dotted
    have unlisted : Dict.get? filter key = none := by
      refine Dict.get?_eq_none_iff.mpr fun listed => ?_
      obtain ⟨entry, member, rfl⟩ := List.mem_map.mp listed
      exact (literals entry member).undotted dotted
    rw [get?_seed distinct literals, unlisted, Option.bind_none, Option.or_none]
  obtain ⟨id, storedAs⟩ := identified.storedAs
  refine ⟨?_, ?_, ?_, ?_⟩
  · intro key value held
    rw [storedAs.get?_eq, get?_seed distinct literals, held, Option.some_or, Option.some_or]
  · intro entry member nonempty
    rw [storedAs.get?_eq, atKey entry member, if_neg nonempty, Option.some_or]
  · intro entry member empty
    have unseeded := (atKey entry member).trans (if_pos empty)
    cases identified with
    | own _ => exact .inl unseeded
    | drawn _ =>
        -- The filter may ask for an empty `_id`; the one that is drawn is a text.
        rw [Dict.get?_append, unseeded, Option.none_or, Dict.get?]
        split
        · exact .inr ⟨_, rfl⟩
        · exact .inl rfl
  · intro key dotted
    rw [storedAs.get?_of_dotted dotted, dottedSeeded key dotted]

theorem Grown.matches? (grown : Grown document filter added) :
    matches? added filter = .ok (decide (Value.map [] ∉ Dict.values filter)) := by
  have agree : (filter.all fun entry => equals (Dict.get? added entry.1) entry.2) =
      decide (Value.map [] ∉ Dict.values filter) := by
    rw [Bool.eq_iff_iff, List.all_eq_true, decide_eq_true_iff]
    constructor
    · intro holds listed
      obtain ⟨entry, member, empty⟩ := List.mem_map.mp listed
      have equal := holds entry member
      rcases grown.unseeded entry member empty with absent | ⟨text, present⟩
      · rw [absent, empty] at equal
        cases equal
      · rw [present, empty] at equal
        cases equal
    · intro unlisted entry member
      have nonempty : entry.2 ≠ .map [] := fun empty =>
        unlisted (List.mem_map.mpr ⟨entry, member, empty⟩)
      rw [grown.seeded entry member nonempty]
      exact Value.equal_refl ((Value.wellFormed_map.mp wellFormed).2 entry member)
  simp only [Document.matches?, entriesHold_literals literals, agree]

end

/-- The document that a grown one came from may take its place, with fewer fields. -/
theorem Grown.takesOver {id : Value} (grown : Grown document filter added)
    (wellFormed : (Value.map document).WellFormed) (identified : Dict.get? added idField = some id) :
    ∃ new, TakesOver added document new ∧
      (∀ key value, Dict.get? new key = some value → Dict.get? added key = some value) ∧
      ∀ key : String, '.' ∈ key.toList → Dict.get? added key = Dict.get? new key := by
  cases own : Dict.get? document idField with
  | some held =>
      have same : held = id := Option.some.inj ((grown.kept _ _ own).symm.trans identified)
      have equal : id.equal held = true :=
        same ▸ Value.equal_refl ((Value.wellFormed_map.mp wellFormed).2 _ (Dict.mem_of_get? own))
      exact ⟨document, .own identified own equal, grown.kept, grown.dotted⟩
  | none =>
      have storedAs : StoredAs document id (document ++ [(idField, id)]) := .identified own
      refine ⟨_, .inherited identified own, fun key value held => ?_, fun key dotted => ?_⟩
      · rw [storedAs.get?_eq] at held
        rcases Option.or_eq_some_iff.mp held with old | ⟨_, new⟩
        · exact grown.kept key value old
        · split at new
          · rename_i same
            cases new
            exact same ▸ identified
          · cases new
      · rw [grown.dotted key dotted, storedAs.get?_of_dotted dotted]

theorem sameKey_of_field? {small large other : Record} {index : List String}
    (kept : ∀ field value, Record.field? small field = some value →
      Record.field? large field = some value)
    (shared : sameKey small other index = true) : sameKey large other index = true := by
  simp only [sameKey, List.all_eq_true] at shared ⊢
  intro field member
  have equal := shared field member
  cases held : Record.field? small field with
  | none =>
      rw [held] at equal
      cases equal
  | some value =>
      rw [held] at equal
      rw [kept field value held]
      exact equal

section

variable {before after : Store} {id : Value} {given : Record}
variable (appends : before.Appends name given added id after)
variable (noMatch : NoMatch filter (before.collection name).documents)

include appends noMatch

theorem firstMatch_appended (accepted : matches? added filter = .ok true) :
    FirstMatch filter (after.collection name).documents
      (before.collection name).documents.length added where
  located := by rw [appends.rewritten.documents_eq, List.getElem?_concat_length]
  accepted := accepted
  refused := by
    rw [appends.rewritten.documents_eq, List.take_left]
    exact noMatch

theorem noMatch_appended (refused : matches? added filter = .ok false) :
    NoMatch filter (after.collection name).documents := by
  rw [appends.rewritten.documents_eq]
  intro document member
  rcases List.mem_append.mp member with old | new
  · exact noMatch document old
  · exact List.mem_singleton.mp new ▸ refused

/-- The document that was appended gives way to the one that it came from. -/
theorem replace_appended (grown : Grown document filter added)
    (wellFormed : (Value.map document).WellFormed) (accepted : matches? added filter = .ok true) :
    ∃ new, TakesOver added document new ∧
      after.replace name filter document true =
        (.ok { matched := 1, modified := if Value.same (.map added) (.map new) then 0 else 1 },
          after.put name { after.collection name with
            documents := (before.collection name).documents ++ [new] }) := by
  obtain ⟨new, takesOver, kept, dotted⟩ := grown.takesOver wellFormed appends.id
  refine ⟨new, takesOver, ?_⟩
  have first := firstMatch_appended appends noMatch accepted
  have others : (after.collection name).documents.eraseIdx
      (before.collection name).documents.length = (before.collection name).documents := by
    rw [appends.rewritten.documents_eq, List.eraseIdx_eq_take_drop_succ]
    simp
  have written : (after.collection name).documents.set (before.collection name).documents.length
      new = (before.collection name).documents ++ [new] := by
    rw [appends.rewritten.documents_eq]
    simp
  rw [Store.replace_inPlace first takesOver, written]
  -- Another document that shared a key with the new one would have shared it with the grown one.
  intro index listed other member
  rw [others] at member
  rw [appends.rewritten.collection] at listed
  rw [Bool.eq_false_iff]
  intro shared
  have sharedBefore := sameKey_of_field?
    (fun _ _ found => Record.field?_of_get? kept dotted found) shared
  exact Bool.false_ne_true ((appends.unique index listed other member).symm.trans sharedBefore)

end

/-- A replacement that inserts its document, which has none of the fields of its literal filter,
inserts one that satisfies the filter exactly when no condition is the empty document. If so, the
same call finds it; otherwise the same call, where it succeeds, inserts another. -/
theorem upserted_document_is_found_iff {context : Context} {world after : World Store}
    {outcome : ReplaceOutcome} {id : Value}
    (wellFormed : (Value.map filter).WellFormed) (literals : ∀ entry ∈ filter, IsLiteral entry)
    (documentWellFormed : (Value.map document).WellFormed)
    (absent : ∀ key ∈ Dict.keys filter, Dict.get? document key = none)
    (replaced : connection.perform context (.replaceOne name filter document true) world =
      (.ok outcome, after))
    (inserted : outcome.upserted = some id) :
    let again := connection.perform context (.replaceOne name filter document true) after
    let documents := (world.store.collection name).documents
    ∃ added, (after.store.collection name).documents = documents ++ [added] ∧
      Dict.get? added idField = some id ∧
      matches? added filter = .ok (decide (Value.map [] ∉ Dict.values filter)) ∧
      (Value.map [] ∉ Dict.values filter → ∃ modified new later,
        again = (.ok { matched := 1, modified }, later) ∧
          (later.store.collection name).documents = documents ++ [new] ∧
          TakesOver added document new) ∧
      (Value.map [] ∈ Dict.values filter → ∀ next later, again = (.ok next, later) →
        ∃ another other, next = { upserted := some other } ∧
          (later.store.collection name).documents = documents ++ [added, another]) := by
  intro again documents
  obtain ⟨live, acted, surroundings⟩ := perform_eq_ok.mp replaced
  have stillLive : context.check after.surroundings = .ok () := surroundings ▸ live
  have replaces := Store.replace_eq_ok acted
  have noMatch := replaces.noMatch_of_upserted inserted
  obtain ⟨added, _, rfl, appends⟩ := replaces.appends_of_noMatch noMatch
  cases inserted
  have grown := grown_of_identified wellFormed literals absent appends.identified
  have decided := grown.matches? wellFormed literals
  refine ⟨added, appends.rewritten.documents_eq, appends.id, decided, ?_, ?_⟩
  · intro unlisted
    have accepted : matches? added filter = .ok true :=
      decided.trans (congrArg Except.ok (decide_eq_true unlisted))
    obtain ⟨new, takesOver, found⟩ :=
      replace_appended appends noMatch grown documentWellFormed accepted
    have stored := Store.collection_put after.store name
      { after.store.collection name with
        documents := (world.store.collection name).documents ++ [new] }
    exact ⟨_, new, { after with store := _ }, perform_eq_ok.mpr ⟨stillLive, found, rfl⟩,
      congrArg Collection.documents stored, takesOver⟩
  · intro listed next later repeated
    have refused : matches? added filter = .ok false :=
      decided.trans (congrArg Except.ok (decide_eq_false (not_not.mpr listed)))
    obtain ⟨_, actedAgain, _⟩ := perform_eq_ok.mp repeated
    obtain ⟨another, other, rfl, appendsAgain⟩ := (Store.replace_eq_ok actedAgain).appends_of_noMatch
      (noMatch_appended appends noMatch refused)
    refine ⟨another, other, rfl, ?_⟩
    rw [appendsAgain.rewritten.documents_eq, appends.rewritten.documents_eq, List.append_assoc]
    rfl

def nobody : World Store where
  store := { ids := { name := toString } }

def grace : Record := [("name", .string "Grace")]

def blueWithoutTags : Record := [("team", .string "blue"), ("tags", .sequence [])]

def withEmptyTags : Record := [("tags", .map [])]

theorem blue_user_is_found :
    let inserted :=
      connection.perform .background (.replaceOne "users" blueWithoutTags grace true) nobody
    inserted.1 = .ok { upserted := some (.string "0") } ∧ ∃ modified later,
      connection.perform .background (.replaceOne "users" blueWithoutTags grace true) inserted.2 =
        (.ok { matched := 1, modified }, later) := by
  intro inserted
  have literals : ∀ entry ∈ blueWithoutTags, IsLiteral entry := by
    intro entry member
    rcases List.mem_pair.mp member with rfl | rfl
    · exact ⟨by decide, by decide, nofun⟩
    · exact ⟨by decide, by decide, nofun⟩
  have answered : inserted.1 = .ok { upserted := some (.string "0") } := rfl
  obtain ⟨_, _, _, _, found, _⟩ := @upserted_document_is_found_iff blueWithoutTags grace "users"
    .background nobody inserted.2 _ (.string "0") ⟨by decide, trivial, trivial, trivial⟩ literals
    ⟨by decide, trivial, trivial⟩ (by decide) (Prod.ext answered rfl) rfl
  obtain ⟨modified, _, later, again, _⟩ := found (by decide)
  exact ⟨answered, modified, later, again⟩

/-- The empty document is no document of operators, and a user without tags is not found by it. -/
theorem empty_tags_are_not_found :
    let added := grace ++ [("_id", .string "0")]
    let inserted :=
      connection.perform .background (.replaceOne "users" withEmptyTags grace true) nobody
    (∀ entry ∈ withEmptyTags, IsLiteral entry) ∧ Dict.get? grace "tags" = none ∧
      inserted.1 = .ok { upserted := some (.string "0") } ∧
      (inserted.2.store.collection "users").documents = [added] ∧
      matches? added withEmptyTags = .ok false ∧
      (connection.perform .background (.replaceOne "users" withEmptyTags grace true) inserted.2).1 =
        .ok { upserted := some (.string "1") } := by
  refine ⟨?_, rfl, rfl, rfl, rfl, rfl⟩
  intro entry member
  obtain rfl := List.mem_singleton.mp member
  refine ⟨by decide, by decide, fun fields same => ?_⟩
  cases same
  rfl

end DataAccess.Document
