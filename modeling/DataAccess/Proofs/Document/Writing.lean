import DataAccess.Proofs.Document.Deletion

namespace DataAccess.Document

variable {filter given document old new : Record} {documents rest : List Record} {position : Nat}
variable {name : String} {upsert : Bool} {id : Value} {outcome : ReplaceOutcome}

/-- The filter accepts the document at a position and refuses those before it. -/
structure FirstMatch (filter : Record) (documents : List Record) (position : Nat) (old : Record) :
    Prop where
  located : documents[position]? = some old
  accepted : matches? old filter = .ok true
  refused : ∀ earlier ∈ documents.take position, matches? earlier filter = .ok false

/-- The filter refuses all documents. -/
def NoMatch (filter : Record) (documents : List Record) : Prop :=
  ∀ document ∈ documents, matches? document filter = .ok false

theorem firstMatch_zero : FirstMatch filter (document :: rest) 0 old ↔
    document = old ∧ matches? old filter = .ok true := by
  constructor
  · intro first
    exact ⟨Option.some.inj first.located, first.accepted⟩
  · rintro ⟨rfl, accepted⟩
    exact ⟨rfl, accepted, by simp⟩

theorem firstMatch_succ : FirstMatch filter (document :: rest) (position + 1) old ↔
    matches? document filter = .ok false ∧ FirstMatch filter rest position old := by
  constructor
  · intro first
    obtain ⟨refused, later⟩ := List.forall_mem_cons.mp (List.take_succ_cons ▸ first.refused)
    exact ⟨refused, first.located, first.accepted, later⟩
  · rintro ⟨refused, first⟩
    refine ⟨first.located, first.accepted, ?_⟩
    rw [List.take_succ_cons]
    exact List.forall_mem_cons.mpr ⟨refused, first.refused⟩

theorem FirstMatch.exists_accepted (first : FirstMatch filter documents position old) :
    ∃ document ∈ documents, matches? document filter = .ok true :=
  ⟨old, List.mem_of_getElem? first.located, first.accepted⟩

theorem NoMatch.not_accepted (none : NoMatch filter documents) :
    ¬ ∃ document ∈ documents, matches? document filter = .ok true := by
  rintro ⟨document, member, accepted⟩
  cases (none document member).symm.trans accepted

namespace Collection

theorem position?_cons_eq_ok {found : Option Nat} :
    position? filter (document :: rest) = .ok found ↔
      matches? document filter = .ok true ∧ found = some 0 ∨
        matches? document filter = .ok false ∧
          ∃ later, position? filter rest = .ok later ∧ found = later.map (· + 1) := by
  rw [position?, bind_eq_ok]
  constructor
  · rintro ⟨holds, decided, result⟩
    cases holds with
    | true => exact .inl ⟨decided, (pure_eq_ok.mp result).symm⟩
    | false =>
        obtain ⟨later, searched, result⟩ := bind_eq_ok.mp result
        exact .inr ⟨decided, later, searched, (pure_eq_ok.mp result).symm⟩
  · rintro (⟨decided, rfl⟩ | ⟨decided, later, searched, rfl⟩)
    · exact ⟨true, decided, rfl⟩
    · exact ⟨false, decided, bind_eq_ok.mpr ⟨later, searched, rfl⟩⟩

theorem position?_eq_some : position? filter documents = .ok (some position) ↔
    ∃ old, FirstMatch filter documents position old := by
  induction documents generalizing position with
  | nil => exact iff_of_false nofun fun ⟨_, first⟩ => nomatch first.located
  | cons document rest ih =>
      rw [position?_cons_eq_ok]
      cases position with
      | zero => simp [firstMatch_zero]
      | succ position => simp [firstMatch_succ, ih]

theorem position?_eq_none : position? filter documents = .ok none ↔ NoMatch filter documents := by
  induction documents with
  | nil => exact iff_of_true rfl nofun
  | cons document rest ih =>
      rw [position?_cons_eq_ok, NoMatch, List.forall_mem_cons, ← NoMatch, ← ih]
      simp

end Collection

namespace Store

variable {store : Store}

theorem locate_eq_some : store.locate name filter = .ok (some (position, old)) ↔
    FirstMatch filter (store.collection name).documents position old := by
  rw [locate, bind_eq_ok]
  constructor
  · rintro ⟨found, searched, result⟩
    cases found with
    | none => cases result
    | some index =>
        obtain ⟨document, first⟩ := Collection.position?_eq_some.mp searched
        rw [pure_eq_ok, Option.bind_some, first.located] at result
        cases result
        exact first
  · intro first
    refine ⟨some position, Collection.position?_eq_some.mpr ⟨old, first⟩, ?_⟩
    rw [pure_eq_ok, Option.bind_some, first.located]
    rfl

theorem locate_eq_none : store.locate name filter = .ok none ↔
    NoMatch filter (store.collection name).documents := by
  rw [locate, bind_eq_ok]
  constructor
  · rintro ⟨found, searched, result⟩
    cases found with
    | none => exact Collection.position?_eq_none.mp searched
    | some index =>
        obtain ⟨document, first⟩ := Collection.position?_eq_some.mp searched
        rw [pure_eq_ok, Option.bind_some, first.located] at result
        cases result
  · intro noMatch
    exact ⟨none, Collection.position?_eq_none.mpr noMatch, rfl⟩

end Store

/-- A document as it is inserted, and the supply of ids afterwards: with its own `_id`, or with the
next one of the supply. -/
inductive Identified (ids : IdSupply) (given : Record) : Record → IdSupply → Prop
  | own : Dict.contains given idField = true → Identified ids given given ids
  | drawn : Dict.contains given idField = false →
      Identified ids given (given ++ [(idField, .string ids.next.1)]) ids.next.2

/-- A document as it takes the place of another one: with an `_id` equal to the old one, or with the
old one where it has none. -/
inductive TakesOver (old given : Record) : Record → Prop
  | own {oldId newId : Value} : Dict.get? old idField = some oldId →
      Dict.get? given idField = some newId → oldId.equal newId = true → TakesOver old given given
  | inherited {oldId : Value} : Dict.get? old idField = some oldId →
      Dict.get? given idField = none → TakesOver old given (given ++ [(idField, oldId)])
  | unidentified : Dict.get? old idField = none → TakesOver old given given

theorem Store.identified_identify (store : Store) (given : Record) :
    Identified store.ids given (store.identify given).1 (store.identify given).2.ids := by
  rw [Store.identify]
  split
  · rename_i present
    exact .own present
  · rename_i absent
    rw [Bool.not_eq_true] at absent
    have fresh : idField ∉ Dict.keys given := by
      rw [← Dict.get?_eq_none_iff]
      simpa [Dict.contains] using absent
    change Identified store.ids given (Dict.insert given idField (.string store.ids.next.1))
      store.ids.next.2
    rw [Dict.insert_of_not_mem fresh]
    exact .drawn absent

theorem Collection.replacement_eq_ok :
    Collection.replacement old given = .ok new ↔ TakesOver old given new := by
  constructor
  · intro replaced
    rw [replacement] at replaced
    cases oldId : Dict.get? old idField with
    | none =>
        rw [oldId] at replaced
        cases replaced
        exact .unidentified oldId
    | some held =>
        rw [oldId] at replaced
        cases newId : Dict.get? given idField with
        | none =>
            rw [newId] at replaced
            cases replaced
            rw [Dict.insert_of_not_mem (Dict.get?_eq_none_iff.mp newId)]
            exact .inherited oldId newId
        | some own =>
            simp only [newId] at replaced
            split at replaced
            · rename_i equal
              cases replaced
              exact .own oldId newId equal
            · cases replaced
  · intro takesOver
    cases takesOver with
    | own oldId newId equal => simp [replacement, oldId, newId, equal]
    | inherited oldId newId =>
        simp [replacement, oldId, newId,
          Dict.insert_of_not_mem (Dict.get?_eq_none_iff.mp newId)]
    | unidentified oldId => simp [replacement, oldId]

/-- A document with its own `_id`, or with one behind its fields. -/
inductive StoredAs (given : Record) (id : Value) : Record → Prop
  | own : Dict.get? given idField = some id → StoredAs given id given
  | identified : Dict.get? given idField = none → StoredAs given id (given ++ [(idField, id)])

theorem StoredAs.get?_eq {stored : Record} (storedAs : StoredAs given id stored) (key : String) :
    Dict.get? stored key =
      (Dict.get? given key).or (if idField = key then some id else none) := by
  cases storedAs with
  | own held =>
      split
      · rename_i same
        rw [← same, held, Option.some_or]
      · rw [Option.or_none]
  | identified _ => rw [Dict.get?_append, Dict.get?, Dict.get?]

theorem StoredAs.get?_idField {stored : Record} (storedAs : StoredAs given id stored) :
    Dict.get? stored idField = some id := by
  rw [storedAs.get?_eq, if_pos rfl]
  cases storedAs with
  | own held => rw [held, Option.some_or]
  | identified absent => rw [absent, Option.none_or]

theorem TakesOver.storedAs {oldId : Value} (takesOver : TakesOver old given new)
    (identified : Dict.get? old idField = some oldId) : ∃ id, StoredAs given id new := by
  cases takesOver with
  | own _ held _ => exact ⟨_, .own held⟩
  | inherited _ absent => exact ⟨_, .identified absent⟩
  | unidentified absent => cases absent.symm.trans identified

theorem Identified.storedAs {ids idsAfter : IdSupply} {added : Record}
    (identified : Identified ids given added idsAfter) : ∃ id, StoredAs given id added := by
  cases identified with
  | own present =>
      obtain ⟨id, held⟩ := Option.isSome_iff_exists.mp present
      exact ⟨id, .own held⟩
  | drawn absent => exact ⟨_, .identified (by simpa [Dict.contains] using absent)⟩

mutual

/-- Seeding adds fields behind those of the document. -/
theorem seed_extends : (document : Record) → (filter : List (String × Value)) →
    ∃ added, seed document filter = document ++ added
  | document, [] => ⟨[], (List.append_nil document).symm⟩
  | document, (key, condition) :: rest => by
      rw [seed]
      split
      · obtain ⟨first, seeded⟩ := seedClauses_extends document condition
        obtain ⟨second, seededRest⟩ := seed_extends (document ++ first) rest
        exact ⟨first ++ second, by rw [seeded, seededRest, List.append_assoc]⟩
      split
      · exact seed_extends document rest
      · rw [seedField]
        cases literal? condition with
        | none => exact seed_extends document rest
        | some value =>
            simp only [Dict.insertNew]
            split
            · exact seed_extends document rest
            · obtain ⟨later, seededRest⟩ := seed_extends (document ++ [(key, value)]) rest
              exact ⟨(key, value) :: later, by rw [seededRest, List.append_assoc]; rfl⟩

theorem seedClauses_extends : (document : Record) → (clauses : Value) →
    ∃ added, seedClauses document clauses = document ++ added
  | document, .sequence clauses => seedEach_extends document clauses
  | document, .null | document, .bool _ | document, .number _ | document, .string _
  | document, .map _ => ⟨[], (List.append_nil document).symm⟩

theorem seedEach_extends : (document : Record) → (clauses : List Value) →
    ∃ added, seedEach document clauses = document ++ added
  | document, [] => ⟨[], (List.append_nil document).symm⟩
  | document, .map clause :: rest => by
      obtain ⟨first, seeded⟩ := seed_extends document clause
      obtain ⟨second, seededRest⟩ := seedEach_extends (document ++ first) rest
      exact ⟨first ++ second, by rw [seedEach, seeded, seededRest, List.append_assoc]⟩
  | document, .null :: rest | document, .bool _ :: rest | document, .number _ :: rest
  | document, .string _ :: rest | document, .sequence _ :: rest => seedEach_extends document rest

end

/-- The later store has these documents in one collection, and all else as it was before. -/
structure Store.Rewritten (before : Store) (name : String) (documents : List Record)
    (after : Store) : Prop where
  collection : after.collection name = { before.collection name with documents }
  others : ∀ other, other ≠ name → after.collection other = before.collection other
  config : after.config = before.config

theorem Store.Rewritten.documents_eq {before after : Store} {written : List Record}
    (rewritten : before.Rewritten name written after) :
    (after.collection name).documents = written := by
  rw [rewritten.collection]

/-- An insert has appended the document, with an `_id` that no other document of the collection
has, nor any other key of theirs. -/
structure Store.Appends (before : Store) (name : String) (given added : Record) (id : Value)
    (after : Store) : Prop where
  identified : Identified before.ids given added after.ids
  id : Dict.get? added idField = some id
  unique : ∀ index ∈ (before.collection name).indexes,
    ∀ other ∈ (before.collection name).documents, sameKey added other index = false
  rewritten : before.Rewritten name ((before.collection name).documents ++ [added]) after

/-- What a replacement does that succeeds. -/
inductive Store.Replaces (before : Store) (name : String) (filter given : Record) (upsert : Bool) :
    ReplaceOutcome → Store → Prop
  | inPlace {position : Nat} {old new : Record} {after : Store} :
      FirstMatch filter (before.collection name).documents position old →
      TakesOver old given new →
      before.Rewritten name ((before.collection name).documents.set position new) after →
      after.ids = before.ids →
      Replaces before name filter given upsert
        { matched := 1, modified := if Value.same (.map old) (.map new) then 0 else 1 } after
  | appended {added : Record} {id : Value} {after : Store} :
      NoMatch filter (before.collection name).documents → upsert = true →
      before.Appends name (seed given filter) added id after →
      Replaces before name filter given upsert { upserted := some id } after
  | nothing : NoMatch filter (before.collection name).documents → upsert = false →
      Replaces before name filter given upsert {} before

namespace Store

variable {store after : Store}

theorem rewritten_put {between : Store} (same : between.collections = store.collections)
    (config : between.config = store.config) (documents : List Record) :
    store.Rewritten name documents
      (between.put name { store.collection name with documents }) where
  collection := collection_put between name _
  others other different := by
    rw [collection_put_of_ne different.symm, Store.collection, same, Store.collection]
  config := config

theorem config_identify (store : Store) (given : Record) :
    (store.identify given).2.config = store.config := by
  rw [identify]
  split <;> rfl

theorem insert_eq_ok (inserted : store.insert name given = (.ok id, after)) :
    ∃ added, store.Appends name given added id after := by
  have contained := store.contains_identify given
  rw [Dict.contains, Option.isSome_iff_exists] at contained
  obtain ⟨held, isHeld⟩ := contained
  simp only [insert, Collection.insert, collection_identify] at inserted
  cases checked : Collection.checkUnique name (store.identify given).1
      (store.collection name).documents (store.collection name).indexes with
  | error error =>
      simp only [checked] at inserted
      cases inserted
  | ok _ =>
      simp only [checked, ok_bind, isHeld] at inserted
      cases inserted
      exact ⟨_, store.identified_identify given, isHeld, Collection.checkUnique_eq_ok.mp checked,
        rewritten_put (store.collections_identify given) (store.config_identify given) _⟩

theorem replace_eq_ok
    (replaced : store.replace name filter given upsert = (.ok outcome, after)) :
    store.Replaces name filter given upsert outcome after := by
  rw [replace] at replaced
  cases searched : store.locate name filter with
  | error error =>
      rw [searched] at replaced
      cases replaced
  | ok found =>
      cases found with
      | some found =>
          obtain ⟨position, old⟩ := found
          simp only [searched] at replaced
          cases written : (store.collection name).replaceAt name position old given with
          | error error =>
              simp only [written] at replaced
              cases replaced
          | ok result =>
              obtain ⟨new, takenOver, checked⟩ := bind_eq_ok.mp written
              obtain ⟨_, _, result⟩ := bind_eq_ok.mp checked
              cases result
              simp only [written] at replaced
              cases replaced
              exact .inPlace (locate_eq_some.mp searched)
                (Collection.replacement_eq_ok.mp takenOver) (rewritten_put rfl rfl _) rfl
      | none =>
          have noMatch := locate_eq_none.mp searched
          simp only [searched] at replaced
          cases upsert with
          | false =>
              cases replaced
              exact .nothing noMatch rfl
          | true =>
              rcases inserted : store.insert name (seed given filter) with ⟨_ | id, between⟩
              · simp only [inserted] at replaced
                cases replaced
              · simp only [inserted] at replaced
                cases replaced
                obtain ⟨added, appends⟩ := insert_eq_ok inserted
                exact .appended noMatch rfl appends

/-- A document takes the place of the first match where it may and shares no key with another. -/
theorem replace_inPlace
    (first : FirstMatch filter (store.collection name).documents position old)
    (takesOver : TakesOver old given new)
    (unique : ∀ index ∈ (store.collection name).indexes,
      ∀ other ∈ (store.collection name).documents.eraseIdx position,
        sameKey new other index = false) :
    store.replace name filter given upsert =
      (.ok { matched := 1, modified := if Value.same (.map old) (.map new) then 0 else 1 },
        store.put name { store.collection name with
          documents := (store.collection name).documents.set position new }) := by
  have written : (store.collection name).replaceAt name position old given =
      .ok ({ matched := 1, modified := if Value.same (.map old) (.map new) then 0 else 1 },
        { store.collection name with
          documents := (store.collection name).documents.set position new }) :=
    bind_eq_ok.mpr ⟨new, Collection.replacement_eq_ok.mpr takesOver,
      bind_eq_ok.mpr ⟨(), Collection.checkUnique_eq_ok.mpr unique, rfl⟩⟩
  simp only [replace, locate_eq_some.mpr first, written]

theorem replace_unmatched (noMatch : NoMatch filter (store.collection name).documents) :
    store.replace name filter given false = (.ok {}, store) := by
  simp only [replace, locate_eq_none.mpr noMatch]
  rfl

end Store

theorem Store.Replaces.noMatch_of_upserted {before after : Store}
    (replaces : before.Replaces name filter given upsert outcome after)
    (inserted : outcome.upserted = some id) : NoMatch filter (before.collection name).documents := by
  cases replaces with
  | inPlace _ _ _ _ => cases inserted
  | appended noMatch _ _ => exact noMatch
  | nothing noMatch _ => exact noMatch

theorem Store.Replaces.appends_of_noMatch {before after : Store}
    (replaces : before.Replaces name filter given true outcome after)
    (noMatch : NoMatch filter (before.collection name).documents) :
    ∃ added id, outcome = { upserted := some id } ∧
      before.Appends name (seed given filter) added id after := by
  cases replaces with
  | inPlace first _ _ _ => exact absurd first.exists_accepted noMatch.not_accepted
  | appended _ _ appends => exact ⟨_, _, rfl, appends⟩
  | nothing _ insists => cases insists

theorem Identified.extends {ids idsAfter : IdSupply} {added : Record}
    (identified : Identified ids given added idsAfter) : ∃ extra, added = given ++ extra := by
  cases identified with
  | own _ => exact ⟨[], (List.append_nil given).symm⟩
  | drawn _ => exact ⟨_, rfl⟩

theorem FirstMatch.bound (first : FirstMatch filter documents position old) :
    position < documents.length :=
  (List.getElem?_eq_some_iff.mp first.located).1

theorem FirstMatch.unique {other : Nat} {found : Record}
    (first : FirstMatch filter documents position old)
    (second : FirstMatch filter documents other found) : position = other := by
  by_contra different
  -- The earlier of the two would have been refused by the later one's search.
  rcases Nat.lt_or_gt_of_ne different with before | before
  · have earlier := List.mem_of_getElem? ((List.getElem?_take_of_lt before).trans first.located)
    cases first.accepted.symm.trans (second.refused old earlier)
  · have earlier := List.mem_of_getElem? ((List.getElem?_take_of_lt before).trans second.located)
    cases second.accepted.symm.trans (first.refused found earlier)

/-- The counts of a replacement and the id that it answers say what has happened to the
collection; a document that it appends has all fields of the given one in front. -/
structure Store.Reports (before : Store) (name : String) (filter given : Record)
    (outcome : ReplaceOutcome) (after : Store) : Prop where
  matched : outcome.matched = 1 ↔
    ∃ document ∈ (before.collection name).documents, matches? document filter = .ok true
  modified : outcome.modified = 1 ↔ ∃ position old new,
    FirstMatch filter (before.collection name).documents position old ∧
      (after.collection name).documents[position]? = some new ∧
      Value.same (.map old) (.map new) = false
  upserted : ∀ id, outcome.upserted = some id ↔ ∃ added,
    (after.collection name).documents = (before.collection name).documents ++ [added] ∧
      Dict.get? added idField = some id
  keeps : ∀ added,
    (after.collection name).documents = (before.collection name).documents ++ [added] →
      ∃ extra, added = given ++ extra

namespace Store

variable {store after : Store}

theorem reports_inPlace (first : FirstMatch filter (store.collection name).documents position old)
    (rewritten : store.Rewritten name ((store.collection name).documents.set position new) after) :
    store.Reports name filter given
      { matched := 1, modified := if Value.same (.map old) (.map new) then 0 else 1 } after := by
  have documents := rewritten.documents_eq
  -- The place that is taken over keeps the length, so nothing can look appended.
  have notAppended : ∀ added,
      (after.collection name).documents ≠ (store.collection name).documents ++ [added] := by
    intro added same
    simpa [documents] using congrArg List.length same
  have written : (after.collection name).documents[position]? = some new := by
    rw [documents, List.getElem?_set_self first.bound]
  refine ⟨iff_of_true rfl first.exists_accepted, ⟨?_, ?_⟩, ?_, ?_⟩
  · intro modified
    refine ⟨position, old, new, first, written, ?_⟩
    cases unchanged : Value.same (.map old) (.map new) with
    | false => rfl
    | true => simp [unchanged] at modified
  · rintro ⟨other, found, stored, second, atOther, differs⟩
    obtain rfl := first.unique second
    cases written.symm.trans atOther
    cases first.located.symm.trans second.located
    simp [differs]
  · exact fun id => iff_of_false nofun fun ⟨added, same, _⟩ => notAppended added same
  · exact fun added same => absurd same (notAppended added)

theorem reports_unmatched (noMatch : NoMatch filter (store.collection name).documents)
    {upserted : Option Value}
    (appended : ∀ id, upserted = some id ↔ ∃ added,
      (after.collection name).documents = (store.collection name).documents ++ [added] ∧
        Dict.get? added idField = some id)
    (keeps : ∀ added,
      (after.collection name).documents = (store.collection name).documents ++ [added] →
        ∃ extra, added = given ++ extra) :
    store.Reports name filter given { upserted } after where
  matched := iff_of_false nofun noMatch.not_accepted
  modified := iff_of_false nofun fun ⟨_, _, _, first, _⟩ =>
    noMatch.not_accepted first.exists_accepted
  upserted := appended
  keeps := keeps

theorem Replaces.reports (replaces : store.Replaces name filter given upsert outcome after) :
    store.Reports name filter given outcome after := by
  cases replaces with
  | inPlace first _ rewritten _ => exact reports_inPlace first rewritten
  | appended noMatch _ appends =>
      rename_i added id _
      have documents := appends.rewritten.documents_eq
      have isAdded : ∀ other, (after.collection name).documents =
          (store.collection name).documents ++ [other] → other = added := by
        intro other same
        exact List.singleton_inj.mp (List.append_cancel_left (same.symm.trans documents))
      refine reports_unmatched noMatch ?_ ?_
      · intro other
        constructor
        · intro same
          exact ⟨added, documents, appends.id.trans same⟩
        · rintro ⟨stored, same, isId⟩
          rw [isAdded stored same, appends.id] at isId
          exact isId
      · intro other same
        rw [isAdded other same]
        obtain ⟨seeded, ofSeed⟩ := seed_extends given filter
        obtain ⟨extra, ofId⟩ := appends.identified.extends
        exact ⟨seeded ++ extra, by rw [ofId, ofSeed, List.append_assoc]⟩
  | nothing noMatch _ =>
      have notAppended : ∀ added,
          (store.collection name).documents ≠ (store.collection name).documents ++ [added] := by
        intro added same
        simpa using congrArg List.length same
      exact reports_unmatched noMatch
        (fun _ => iff_of_false nofun fun ⟨added, same, _⟩ => notAppended added same)
        fun added same => absurd same (notAppended added)

end Store

theorem perform_eq_ok {context : Context} {world after : World Store} {request : interface.Call}
    {answer : interface.Answer request} :
    connection.perform context request world = (.ok answer, after) ↔
      context.check world.surroundings = .ok () ∧
        Store.act request world.store = (.ok answer, after.store) ∧
        after.surroundings = world.surroundings :=
  @Connection.checked_eq_ok interface Store context world Store.act request answer after

/-- A call that fails keeps every collection where what it does to the store keeps them. -/
theorem collection_of_failed {context : Context} {world : World Store} {request : interface.Call}
    {error : StoreError}
    (keeps : (Store.act request world.store).1 = .error error →
      (Store.act request world.store).2.collections = world.store.collections)
    (failed : (connection.perform context request world).1 = .error error) (other : String) :
    (connection.perform context request world).2.store.collection other =
      world.store.collection other := by
  rcases Connection.checked_eq_error failed with ⟨_, same⟩ | ⟨_, refused, kept⟩
  · exact congrArg (fun world : World Store => world.store.collection other) same
  · have unchanged : (connection.perform context request world).2.store.collections =
        world.store.collections := (congrArg Store.collections kept).trans (keeps refused)
    simp only [Store.collection, unchanged]

/-- What inserts and replacements do to a store, and what they answer. A stored document of a
reachable store has an `_id`, so the document that takes its place has one that is equal to it. -/
theorem writes_change_one_document (context : Context) (world : World Store) (name : String)
    (filter document : Record) (upsert : Bool) :
    let inserted := connection.perform context (.insertOne name document) world
    let replaced := connection.perform context (.replaceOne name filter document upsert) world
    (∀ error, inserted.1 = .error error → ∀ other,
        inserted.2.store.collection other = world.store.collection other) ∧
      (∀ id, inserted.1 = .ok id →
        ∃ added, world.store.Appends name document added id inserted.2.store) ∧
      (∀ error, replaced.1 = .error error → ∀ other,
        replaced.2.store.collection other = world.store.collection other) ∧
      (∀ outcome, replaced.1 = .ok outcome →
        world.store.Replaces name filter document upsert outcome replaced.2.store ∧
          world.store.Reports name filter document outcome replaced.2.store) ∧
      (Reachable world → ∀ old ∈ (world.store.collection name).documents,
        Dict.contains old idField = true) := by
  intro inserted replaced
  refine ⟨?_, ?_, ?_, ?_, ?_⟩
  · exact fun error failed => collection_of_failed Store.insert_eq_error failed
  · intro id succeeded
    obtain ⟨_, acted, _⟩ := perform_eq_ok.mp (Prod.ext succeeded rfl)
    exact Store.insert_eq_ok acted
  · exact fun error failed => collection_of_failed Store.replace_eq_error failed
  · intro outcome succeeded
    obtain ⟨_, acted, _⟩ := perform_eq_ok.mp (Prod.ext succeeded rfl)
    have replaces := Store.replace_eq_ok acted
    exact ⟨replaces, replaces.reports⟩
  · intro reachable old stored
    exact (Store.sound_collection reachable.sound name).identified old stored

theorem renamed_user_keeps_id :
    let renamed := connection.perform .background
      (.replaceOne "users" [("name", .string "Ada")] [("name", .string "Grace")] true) users
    renamed.1 = .ok { matched := 1, modified := 1 } ∧
      users.store.Replaces "users" [("name", .string "Ada")] [("name", .string "Grace")] true
        { matched := 1, modified := 1 } renamed.2.store ∧
      (renamed.2.store.collection "users").documents =
        [[("name", .string "Grace"), ("_id", .string "1")],
          [("_id", .string "2"), ("name", .string "Alan")]] := by
  intro renamed
  have succeeded : renamed.1 = .ok { matched := 1, modified := 1 } := rfl
  obtain ⟨_, _, _, replaces, _⟩ := writes_change_one_document .background users "users"
    [("name", .string "Ada")] [("name", .string "Grace")] true
  exact ⟨succeeded, (replaces _ succeeded).1, rfl⟩

end DataAccess.Document
