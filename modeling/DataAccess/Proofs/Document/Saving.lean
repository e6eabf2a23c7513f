import DataAccess.Proofs.Document.Refinement
import DataAccess.Proofs.Document.Search
import DataAccess.Proofs.Document.Upserting
import DataAccess.Proofs.OwnKey

/-!
# Objects that are stored and fetched

An update and a save write one document, in the place of the first that matches the key of their
object or, for a save without a match, at the end. The document that they wrote is the one that is
fetched under the key. It gives the object back, unless the `_id` is decoded to a field that is
stored elsewhere: that field then holds the `_id`.
-/

namespace DataAccess

namespace Document

variable {document stored : Record} {name : String}

theorem seed_operator {name : String} {condition : Value} (operator : isOperator name = true)
    (notAnd : name ≠ "$and") : seed document [(name, condition)] = document := by
  rw [seed, if_neg notAnd, operator, Bool.true_or, if_pos rfl, seed]

theorem seedEach_compileAll {members : List Filter} {clauses : List Value}
    (each : ∀ member ∈ members, ∀ clause, compile member = .ok clause →
      seed document clause = document)
    (compiled : compileAll members = .ok clauses) : seedEach document clauses = document := by
  induction members generalizing clauses with
  | nil =>
      cases compiled
      rw [seedEach]
  | cons member rest ih =>
      obtain ⟨clause, ofMember, continued⟩ := bind_eq_ok.mp compiled
      obtain ⟨others, ofRest, result⟩ := bind_eq_ok.mp continued
      cases result
      rw [seedEach, each member List.mem_cons_self clause ofMember]
      exact ih (fun other later => each other (List.mem_cons_of_mem _ later)) ofRest

/-- A query adds nothing to a document that has all columns of its filter. -/
theorem seed_compile {filter : Filter} {query : Record}
    (ordinary : ∀ column ∈ filter.fields, isOperator column = false)
    (present : ∀ column ∈ filter.fields, Dict.contains document column = true)
    (compiled : compile filter = .ok query) : seed document query = document := by
  induction filter using Filter.nested_induction generalizing query with
  | compare column op value =>
      cases compiled
      have listed : column ∈ Filter.fields (.compare column op value) := by
        simp [Filter.fields, Filter.tests, Filter.testFields]
      rw [seed_present (ordinary column listed) (present column listed), seed]
  | compareFields left op right =>
      cases compiled
      exact seed_operator (by decide) (by decide)
  | isNull column =>
      cases compiled
      have listed : column ∈ Filter.fields (.isNull column) := by
        simp [Filter.fields, Filter.tests, Filter.testFields]
      rw [seed_present (ordinary column listed) (present column listed), seed]
  | isNotNull column =>
      cases compiled
      have listed : column ∈ Filter.fields (.isNotNull column) := by
        simp [Filter.fields, Filter.tests, Filter.testFields]
      rw [seed_present (ordinary column listed) (present column listed), seed]
  | allOf members ih =>
      obtain ⟨_, _, continued⟩ := bind_eq_ok.mp compiled
      obtain ⟨clauses, compiledAll, result⟩ := bind_eq_ok.mp continued
      cases result
      have each : seedEach document clauses = document :=
        seedEach_compileAll (fun member atMember clause => ih member atMember
          (fun column atColumn => ordinary column (fields_of_member atMember atColumn))
          fun column atColumn => present column (fields_of_member atMember atColumn)) compiledAll
      rw [seed, if_pos rfl, seedClauses, each, seed]
  | anyOf members ih =>
      obtain ⟨_, _, continued⟩ := bind_eq_ok.mp compiled
      obtain ⟨clauses, _, result⟩ := bind_eq_ok.mp continued
      cases result
      -- Unlike an `$and`, an `$or` is passed over, whatever its members ask for.
      exact seed_operator (by decide) (by decide)

variable {documents : List Record} {query : Record} {test : Record → Bool} {position : Nat}

theorem Store.findOne_of_firstMatch {store : Store}
    (decides : ∀ document, matches? document query = .ok (test document))
    (first : FirstMatch query (store.collection name).documents position stored) :
    store.findOne name query = .ok (some stored) := by
  have searched := @Store.find_eq_cut query test none name store (fun document _ => decides document)
    (by decide) 0 (some 1)
  have refused : ((store.collection name).documents.take position).filter test = [] := by
    refine List.filter_eq_nil_iff.mpr fun document member accepted => ?_
    cases (first.refused document member).symm.trans ((decides document).trans (congrArg _ accepted))
  have accepted : test stored = true := Except.ok.inj ((decides stored).symm.trans first.accepted)
  have split : (store.collection name).documents = (store.collection name).documents.take position ++
      stored :: (store.collection name).documents.drop (position + 1) := by
    obtain ⟨inside, located⟩ := List.getElem?_eq_some_iff.mp first.located
    rw [← located, List.getElem_cons_drop, List.take_append_drop]
  rw [split, List.filter_append, refused, List.filter_cons_of_pos accepted] at searched
  rw [findOne, searched]
  simp [cut, keysOf, Sorting.sort_nil]

theorem FirstMatch.set {old : Record} (first : FirstMatch query documents position old)
    (accepted : matches? stored query = .ok true) :
    FirstMatch query (documents.set position stored) position stored where
  located := List.getElem?_set_self first.bound
  accepted := accepted
  refused := by
    rw [List.take_set_of_le (Nat.le_refl position)]
    exact first.refused

end Document

namespace RowMapper

variable {mapper : RowMapper} {storage name : String} {fields stored : Record} {id : Value}

/-- The object has fields with columns of their own, which are neither paths nor operators; the
`_id` of its document is decoded to one of its fields, or is left to the store. -/
structure Storable (mapper : RowMapper) (storage : String) (fields : Record) : Prop where
  wellFormed : (Value.map fields).WellFormed
  returns : ∀ name ∈ Dict.keys fields, mapper.Returns storage name
  undotted : ∀ name ∈ Dict.keys fields, '.' ∉ (mapper.columnOf storage name).toList
  ordinary : ∀ name ∈ Dict.keys fields,
    Document.isOperator (mapper.columnOf storage name) = false
  identified :
    mapper.fieldOf storage "_id" ≠ "_id" ∧ mapper.fieldOf storage "_id" ∈ Dict.keys fields ∨
      mapper.fieldOf storage "_id" = "_id" ∧
        ∀ name ∈ Dict.keys fields, mapper.columnOf storage name ≠ "_id"

/-- The `_id` is decoded to no field, or to the field that is stored as it. -/
def IdReturns (mapper : RowMapper) (storage : String) : Prop :=
  mapper.fieldOf storage "_id" = "_id" ∨
    mapper.columnOf storage (mapper.fieldOf storage "_id") = "_id"

instance (mapper : RowMapper) (storage : String) : Decidable (mapper.IdReturns storage) :=
  inferInstanceAs (Decidable (_ ∨ _))

/-- The fields that a document of an object gives back. -/
def returned (mapper : RowMapper) (storage : String) (fields : Record) (id : Value) : Record :=
  if mapper.IdReturns storage then fields
  else Dict.insert fields (mapper.fieldOf storage "_id") id

/-- The field that is stored as the `_id` is the one that the `_id` is decoded to. -/
theorem columnOf_fieldOf_of_id (returns : ∀ name ∈ Dict.keys fields, mapper.Returns storage name)
    (held : Dict.get? (mapper.renamed storage fields) "_id" = some id) :
    mapper.columnOf storage (mapper.fieldOf storage "_id") = "_id" ∧
      mapper.fieldOf storage "_id" ∈ Dict.keys fields := by
  have listed : "_id" ∈ (Dict.keys fields).map (mapper.columnOf storage) := by
    rw [← Dict.keys_map]
    exact Dict.mem_keys_of_mem (Dict.mem_of_get? held)
  obtain ⟨name, member, column⟩ := List.mem_map.mp listed
  have field : mapper.fieldOf storage "_id" = name := column ▸ returns name member
  exact ⟨field ▸ column, field ▸ member⟩

theorem toFields_concat (row : Record) :
    mapper.mapping.toFields storage (row ++ [("_id", id)]) =
      Dict.insert (mapper.mapping.toFields storage row) (mapper.fieldOf storage "_id") id := by
  rw [Mapping.toFields, Dict.mapKeys, List.map_append]
  exact Dict.ofList_concat _ _

theorem toObject_storedAs (document : mapper.kind = .document)
    (storable : mapper.Storable storage fields)
    (storedAs : Document.StoredAs (mapper.renamed storage fields) id stored) :
    mapper.toObject storage stored = .ok { root := .map (mapper.returned storage fields id) } := by
  have distinct := (Value.wellFormed_map.mp storable.wellFormed).1
  have back := toFields_renamed storable.returns distinct
  rcases storable.identified with ⟨kept, member⟩ | ⟨unmapped, unclaimed⟩
  · have keeps : mapper.keepsId storage = true := by simpa [keepsId] using kept
    simp only [toObject, document, keeps, ↓reduceIte]
    cases storedAs with
    | own held =>
        have returns : mapper.IdReturns storage :=
          .inr (columnOf_fieldOf_of_id storable.returns held).1
        rw [back, returned, if_pos returns]
    | identified absent =>
        -- A field that was stored as the `_id` would have been the document's own one.
        have lost : ¬ mapper.IdReturns storage := by
          rintro (same | column)
          · exact kept same
          · obtain ⟨value, held⟩ := Dict.exists_of_mem_keys member
            have stored := get?_renamed storable.returns (storable.returns _ member)
            rw [column, held] at stored
            cases absent.symm.trans stored
        rw [Document.idField, toFields_concat, back, returned, if_neg lost]
  · have drops : mapper.keepsId storage = false := by simpa [keepsId] using unmapped
    have returns : mapper.IdReturns storage := .inl unmapped
    simp only [toObject, document, drops, Bool.false_eq_true, ↓reduceIte]
    cases storedAs with
    | own held =>
        obtain ⟨column, member⟩ := columnOf_fieldOf_of_id storable.returns held
        exact absurd column (unclaimed _ member)
    | identified absent =>
        have unlisted : "_id" ∉ Dict.keys (mapper.renamed storage fields) :=
          Dict.get?_eq_none_iff.mp absent
        rw [Document.idField, Dict.eraseSwap_concat unlisted, back, returned, if_pos returns]

/-- What is given back is equal to the object where the `_id` returns, and where the field that it
is decoded to has an equal value. -/
theorem same_returned_iff (wellFormed : (Value.map fields).WellFormed)
    (identified : mapper.fieldOf storage "_id" ≠ "_id" →
      mapper.fieldOf storage "_id" ∈ Dict.keys fields) :
    Value.same (.map (mapper.returned storage fields id)) (.map fields) = true ↔
      mapper.IdReturns storage ∨
        ∃ value, Dict.get? fields (mapper.fieldOf storage "_id") = some value ∧
          id.same value = true := by
  rw [returned]
  split
  · rename_i returns
    exact iff_of_true (Value.same_refl wellFormed) (.inl returns)
  · rename_i lost
    have member := identified fun same => lost (.inl same)
    obtain ⟨distinct, inside⟩ := Value.wellFormed_map.mp wellFormed
    have keys : Dict.keys (Dict.insert fields (mapper.fieldOf storage "_id") id) = Dict.keys fields := by
      rw [Dict.keys_insert, if_pos member]
    have length : (Dict.insert fields (mapper.fieldOf storage "_id") id).length = fields.length := by
      simpa [Dict.keys] using congrArg List.length keys
    have written := Dict.distinct_insert distinct (mapper.fieldOf storage "_id") id
    rw [or_iff_right lost, Value.same, length, BEq.rfl, Bool.true_and, Value.sameFields_iff]
    constructor
    · intro each
      exact each _ (Dict.mem_of_get? (Dict.get?_insert_self fields (mapper.fieldOf storage "_id") id))
    · rintro ⟨value, held, equal⟩ ⟨key, item⟩ atEntry
      have found := Dict.get?_of_mem written atEntry
      rw [Dict.get?_insert] at found
      split at found
      · rename_i same
        cases found
        exact ⟨value, same ▸ held, equal⟩
      · exact ⟨item, found, Value.same_refl (inside _ (Dict.mem_of_get? found))⟩

end RowMapper

/-- The key consists of top-level fields that the object has. -/
structure PrimaryKey.Of (primary : PrimaryKey) (storage : String) (fields : Record) : Prop where
  nonempty : primary.fieldsOf storage ≠ []
  plain : ∀ name ∈ primary.fieldsOf storage, Path.Plain name
  present : ∀ name ∈ primary.fieldsOf storage,
    ∃ value, Dict.get? fields name = some value ∧ value.isNull = false

namespace DocumentDao

open Document

variable {dao : DocumentDao} {primary : PrimaryKey} {storage : String} {fields : Record}
variable {filter : Filter} {query : Record} {test : Record → Bool} {world after : World Store}

/-- What a data access makes of an object: a query, which accepts the row of the object wherever it
is stored and adds nothing to it. -/
structure Asks (dao : DocumentDao) (storage : String) (fields : Record) (filter : Filter)
    (query : Record) (test : Record → Bool) : Prop where
  keyFilter : dao.key.filter storage { root := .map fields } = .ok filter
  asked : dao.query storage (some filter) = .ok query
  prepared : dao.prepare storage { root := .map fields } =
    .ok (query, dao.mapper.renamed storage fields)
  decides : ∀ document, matches? document query = .ok (test document)
  accepts : ∀ {id : Value} {stored : Record},
    StoredAs (dao.mapper.renamed storage fields) id stored → matches? stored query = .ok true
  unseeded : seed (dao.mapper.renamed storage fields) query = dao.mapper.renamed storage fields

theorem compile_of_query (asked : dao.query storage (some filter) = .ok query) :
    compile (filter.rename (dao.mapper.columnOf storage)) = .ok query :=
  mapError_eq_ok.mp asked

theorem exists_asks (usesKey : dao.key = primary.filter) (keyed : primary.Of storage fields)
    (storable : dao.mapper.Storable storage fields) :
    ∃ filter query test, dao.Asks storage fields filter query test := by
  obtain ⟨distinct, inside⟩ := Value.wellFormed_map.mp storable.wellFormed
  have read : ∀ name ∈ primary.fieldsOf storage, ∃ value, Dict.get? fields name = some value ∧
      value.isNull = false ∧
      BusinessObject.get { root := .map fields } name = .ok (some value) := by
    intro name member
    obtain ⟨value, held, present⟩ := keyed.present name member
    refine ⟨value, held, present, ?_⟩
    rw [BusinessObject.get_plain rfl (keyed.plain name member), held,
      Option.filter_some_pos (by simp [present])]
  have listed : ∀ name ∈ primary.fieldsOf storage, name ∈ Dict.keys fields := by
    intro name member
    obtain ⟨value, held, _⟩ := read name member
    exact Dict.mem_keys_of_mem (Dict.mem_of_get? held)
  have atColumn : ∀ name ∈ primary.fieldsOf storage,
      Dict.get? (dao.mapper.renamed storage fields) (dao.mapper.columnOf storage name) =
        Dict.get? fields name := fun name member =>
    RowMapper.get?_renamed storable.returns (storable.returns name (listed name member))
  have readable : ∀ name ∈ primary.fieldsOf storage, ∃ value,
      BusinessObject.get { root := .map fields } name = .ok (some value) := by
    intro name member
    obtain ⟨value, _, _, found⟩ := read name member
    exact ⟨value, found⟩
  obtain ⟨filter, asked⟩ := PrimaryKey.exists_filter keyed.nonempty readable
  have valid := PrimaryKey.validate_filter asked
  have ordinary : ∀ name ∈ filter.fields, isOperator (dao.mapper.columnOf storage name) = false := by
    rw [PrimaryKey.fields_filter asked]
    exact fun name member => storable.ordinary name (listed name member)
  obtain ⟨query, compiled, decided⟩ := exists_query valid ordinary
  have keyFilter : dao.key.filter storage { root := .map fields } = .ok filter :=
    usesKey ▸ KeyFilter.filter_eq_ok.mpr ⟨asked, valid⟩
  have row : dao.mapper.toRow storage { root := .map fields } =
      .ok (dao.mapper.renamed storage fields) :=
    RowMapper.toRow_document storable.returns distinct rfl rfl
  refine ⟨filter, query, _, keyFilter, compiled, ?_, decided, ?_, ?_⟩
  · simp only [prepare, keyQuery, keyFilter, compiled, row, ok_bind]
    rfl
  -- Each part of the key tests a column that the stored row has with the object's own value.
  · intro id stored storedAs
    rw [decided, Except.ok.injEq, PrimaryKey.combine_filter asked]
    intro name member
    obtain ⟨value, held, present, found⟩ := read name member
    simp only [PrimaryKey.ownClause, Filter.rename, BusinessObject.attribute?_of_get found,
      Option.getD_some]
    refine (testHolds_equal present).mpr ⟨value, ?_, Value.equal_refl (inside _ (Dict.mem_of_get? held))⟩
    rw [Record.field?_undotted (storable.undotted name (listed name member))]
    rw [storedAs.get?_eq, atColumn name member, held, Option.some_or]
  · have columns : (filter.rename (dao.mapper.columnOf storage)).fields =
        (primary.fieldsOf storage).map (dao.mapper.columnOf storage) := by
      rw [Filter.fields_rename, PrimaryKey.fields_filter asked]
    refine seed_compile ?_ ?_ (compile_of_query compiled)
    · rw [columns, List.forall_mem_map]
      exact fun name member => storable.ordinary name (listed name member)
    · rw [columns, List.forall_mem_map]
      intro name member
      obtain ⟨value, held, _⟩ := read name member
      rw [Dict.contains, atColumn name member, held, Option.isSome_some]

section

variable (asks : dao.Asks storage fields filter query test)

include asks

theorem on_replace (upsert : Bool) (world : World Store) :
    (dao.replace .background storage upsert { root := .map fields }).on connection world =
      (Operation.ofStore
          (world.store.replace storage query (dao.mapper.renamed storage fields) upsert).1,
        { world with store :=
          (world.store.replace storage query (dao.mapper.renamed storage fields) upsert).2 }) := by
  have prepared : (Operation.ofExcept (I := interface)
      (dao.prepare storage { root := .map fields })).on connection world =
      (.ok (query, dao.mapper.renamed storage fields), world) := by
    rw [Operation.on_ofExcept, asks.prepared]
  exact (Operation.on_bind_ok _ prepared).trans (Operation.on_call_checked plainCalls
    (Call.replaceOne storage query (dao.mapper.renamed storage fields) upsert) world)

/-- A replacement through data access is one of the store, whatever is made of its outcome. -/
theorem on_replace_eq_ok {upsert : Bool} {count : Nat} (f : ReplaceOutcome → Nat) :
    (dao.replace .background storage upsert { root := .map fields } >>= fun outcome =>
        pure (f outcome)).on connection world = (.ok count, after) ↔
      ∃ outcome, f outcome = count ∧
        world.store.replace storage query (dao.mapper.renamed storage fields) upsert =
          (.ok outcome, after.store) ∧
        after.surroundings = world.surroundings := by
  constructor
  · intro ran
    obtain ⟨outcome, between, replaced, result⟩ := Operation.on_bind_eq_ok ran
    rw [on_replace asks] at replaced
    obtain ⟨answered, rfl⟩ := Prod.mk.inj replaced
    cases result
    exact ⟨outcome, rfl, Prod.ext (mapError_eq_ok.mp answered) rfl, rfl⟩
  · rintro ⟨outcome, rfl, replaced, surroundings⟩
    refine (Operation.on_bind_ok _ ?_).trans (Operation.on_pure _ after)
    rw [on_replace asks, replaced, ← surroundings]
    rfl

theorem on_fetchOne {stored : Record} {object : BusinessObject}
    (found : after.store.findOne storage query = .ok (some stored))
    (decoded : dao.mapper.toObject storage stored = .ok object) :
    (dao.fetchOne .background storage (some filter)).on connection after =
      (.ok (some object), after) := by
  have queried : (Operation.ofExcept (I := interface) (dao.query storage (some filter))).on
      connection after = (.ok query, after) := by
    rw [Operation.on_ofExcept, asks.asked]
  have answered := Operation.on_call_checked plainCalls (Call.findOne storage query) after
  simp only [Store.act, found] at answered
  refine (Operation.on_bind_ok _ queried).trans ((Operation.on_bind_ok _ answered).trans ?_)
  rw [Operation.on_ofExcept, RowMapper.toObject?, decoded]
  rfl

end

/-- The object is fetched under its key from the document that holds it. What is fetched is equal to
the object where the `_id` returns, and where the field that it is decoded to has an equal value. -/
def GivesBack (dao : DocumentDao) (storage : String) (filter : Filter) (fields stored : Record)
    (world : World Store) : Prop :=
  ∃ id found, Dict.get? stored "_id" = some id ∧
    (dao.fetchOne .background storage (some filter)).on connection world =
      (.ok (some { root := .map found }), world) ∧
    (dao.mapper.IdReturns storage → found = fields) ∧
    (Value.same (.map found) (.map fields) = true ↔ dao.mapper.IdReturns storage ∨
      ∃ value, Dict.get? fields (dao.mapper.fieldOf storage "_id") = some value ∧
        id.same value = true)

/-- The first document that matches has made room for one that gives the object back. -/
def Overwrites (dao : DocumentDao) (storage : String) (filter : Filter) (query fields : Record)
    (world after : World Store) : Prop :=
  ∃ position old stored,
    FirstMatch query (world.store.collection storage).documents position old ∧
      world.store.Rewritten storage
        ((world.store.collection storage).documents.set position stored) after.store ∧
      dao.GivesBack storage filter fields stored after

/-- No document matches, and one has been appended that gives the object back. -/
def Adds (dao : DocumentDao) (storage : String) (filter : Filter) (query fields : Record)
    (world after : World Store) : Prop :=
  NoMatch query (world.store.collection storage).documents ∧ ∃ stored,
    world.store.Rewritten storage
        ((world.store.collection storage).documents ++ [stored]) after.store ∧
      dao.GivesBack storage filter fields stored after

section

variable (asks : dao.Asks storage fields filter query test)
variable (storable : dao.mapper.Storable storage fields)

include asks storable

theorem givesBack_of_firstMatch {id : Value} {stored : Record} {position : Nat}
    (storedAs : StoredAs (dao.mapper.renamed storage fields) id stored)
    (first : FirstMatch query (world.store.collection storage).documents position stored) :
    dao.GivesBack storage filter fields stored world := by
  refine ⟨id, dao.mapper.returned storage fields id, storedAs.get?_idField, ?_, ?_, ?_⟩
  · exact on_fetchOne asks (Store.findOne_of_firstMatch asks.decides first)
      (RowMapper.toObject_storedAs rfl storable storedAs)
  · exact fun returns => if_pos returns
  · refine RowMapper.same_returned_iff storable.wellFormed fun kept => ?_
    rcases storable.identified with ⟨_, member⟩ | ⟨same, _⟩
    · exact member
    · exact absurd same kept

theorem overwrites_of_firstMatch {old stored : Record} {position : Nat}
    {oldId : Value} (identified : Dict.get? old idField = some oldId)
    (first : FirstMatch query (world.store.collection storage).documents position old)
    (takesOver : TakesOver old (dao.mapper.renamed storage fields) stored)
    (rewritten : world.store.Rewritten storage
      ((world.store.collection storage).documents.set position stored) after.store) :
    dao.Overwrites storage filter query fields world after := by
  obtain ⟨id, storedAs⟩ := takesOver.storedAs identified
  have placed : FirstMatch query (after.store.collection storage).documents position stored := by
    rw [rewritten.documents_eq]
    exact first.set (asks.accepts storedAs)
  exact ⟨position, old, stored, first, rewritten, givesBack_of_firstMatch asks storable storedAs placed⟩

theorem adds_of_noMatch {added : Record} {id : Value}
    (noMatch : NoMatch query (world.store.collection storage).documents)
    (appends : world.store.Appends storage (seed (dao.mapper.renamed storage fields) query) added id
      after.store) : dao.Adds storage filter query fields world after := by
  have identified := appends.identified
  rw [asks.unseeded] at identified
  obtain ⟨_, storedAs⟩ := identified.storedAs
  have placed := firstMatch_appended appends noMatch (asks.accepts storedAs)
  exact ⟨noMatch, added, appends.rewritten, givesBack_of_firstMatch asks storable storedAs placed⟩

end

theorem Overwrites.length_eq (overwrites : dao.Overwrites storage filter query fields world after) :
    (after.store.collection storage).documents.length =
        (world.store.collection storage).documents.length ∧
      ¬ NoMatch query (world.store.collection storage).documents := by
  obtain ⟨_, _, _, first, rewritten, _⟩ := overwrites
  refine ⟨?_, fun noMatch => noMatch.not_accepted first.exists_accepted⟩
  rw [rewritten.documents_eq, List.length_set]

theorem Adds.length_eq (adds : dao.Adds storage filter query fields world after) :
    (after.store.collection storage).documents.length =
      (world.store.collection storage).documents.length + 1 := by
  obtain ⟨_, _, rewritten, _⟩ := adds
  rw [rewritten.documents_eq, List.length_append, List.length_singleton]

/-- An update or a save that succeeds writes one document, which is fetched under the object's key:
the first that matches is overwritten or, by a save, one is added where none does. An update answers
0, and changes nothing, just when none does. -/
theorem written_object_is_fetched_back (usesKey : dao.key = primary.filter)
    (keyed : primary.Of storage fields) (storable : dao.mapper.Storable storage fields)
    (reachable : Reachable world) :
    let object : BusinessObject := { root := .map fields }
    let documents := (world.store.collection storage).documents
    ∃ filter query, dao.key.filter storage object = .ok filter ∧
      dao.query storage (some filter) = .ok query ∧
      (∀ after, (dao.update .background storage object).on connection world = (.ok 1, after) →
        dao.Overwrites storage filter query fields world after) ∧
      (∀ after, (dao.save .background storage object).on connection world = (.ok 1, after) →
        (dao.Overwrites storage filter query fields world after ∨
            dao.Adds storage filter query fields world after) ∧
          ((after.store.collection storage).documents.length = documents.length + 1 ↔
            NoMatch query documents)) ∧
      ∀ after, (dao.update .background storage object).on connection world = (.ok 0, after) ↔
        after = world ∧ NoMatch query documents := by
  intro object documents
  obtain ⟨filter, query, test, asks⟩ := exists_asks usesKey keyed storable
  have identified := (Store.sound_collection reachable.sound storage).identified
  have overwrites : ∀ {old stored : Record} {position : Nat} {after : World Store},
      FirstMatch query documents position old →
      TakesOver old (dao.mapper.renamed storage fields) stored →
      world.store.Rewritten storage (documents.set position stored) after.store →
      dao.Overwrites storage filter query fields world after := by
    intro old stored position after first takesOver rewritten
    have carried := identified old (List.mem_of_getElem? first.located)
    obtain ⟨oldId, held⟩ := Option.isSome_iff_exists.mp carried
    exact overwrites_of_firstMatch asks storable held first takesOver rewritten
  refine ⟨filter, query, asks.keyFilter, asks.asked, ?_, ?_, ?_⟩
  · intro after updated
    obtain ⟨outcome, matched, replaced, _⟩ := (on_replace_eq_ok asks ReplaceOutcome.matched).mp updated
    obtain ⟨store, _⟩ := after
    cases Store.replace_eq_ok replaced with
    | inPlace first takesOver rewritten _ => exact overwrites first takesOver rewritten
    | appended _ _ _ => cases matched
    | nothing _ _ => cases matched
  · intro after saved
    obtain ⟨outcome, _, replaced, _⟩ := (on_replace_eq_ok asks fun _ => 1).mp saved
    have written : dao.Overwrites storage filter query fields world after ∨
        dao.Adds storage filter query fields world after := by
      obtain ⟨store, _⟩ := after
      cases Store.replace_eq_ok replaced with
      | inPlace first takesOver rewritten _ => exact .inl (overwrites first takesOver rewritten)
      | appended noMatch _ appends => exact .inr (adds_of_noMatch asks storable noMatch appends)
      | nothing _ insists => cases insists
    refine ⟨written, ?_⟩
    rcases written with overwritten | added
    · obtain ⟨same, matched⟩ := overwritten.length_eq
      exact iff_of_false (fun grown => Nat.succ_ne_self _ (grown.symm.trans same)) matched
    · exact iff_of_true added.length_eq added.1
  · intro after
    constructor
    · intro updated
      obtain ⟨outcome, matched, replaced, surroundings⟩ :=
        (on_replace_eq_ok asks ReplaceOutcome.matched).mp updated
      obtain ⟨store, around⟩ := after
      cases Store.replace_eq_ok replaced with
      | inPlace _ _ _ _ => cases matched
      | appended _ insists _ => cases insists
      | nothing noMatch _ =>
          cases surroundings
          exact ⟨rfl, noMatch⟩
    · rintro ⟨rfl, noMatch⟩
      exact (on_replace_eq_ok asks ReplaceOutcome.matched).mpr
        ⟨{}, rfl, Store.replace_unmatched noMatch, rfl⟩

def noPeople : World Store where
  store := { ids := { name := toString } }

theorem ada_is_added :
    ∃ filter query after,
      (people.save .background "people" { root := .map ada }).on connection noPeople =
        (.ok 1, after) ∧
      people.Adds "people" filter query ada noPeople after := by
  have keyed : PrimaryKey.Of { fields := ["id"] } "people" ada := by
    refine ⟨by decide, by decide, fun name member => ?_⟩
    obtain rfl := List.mem_singleton.mp member
    exact ⟨.string "1", rfl, rfl⟩
  have storable : people.mapper.Storable "people" ada :=
    ⟨⟨by decide, trivial, trivial, trivial, trivial⟩, by decide, by decide, by decide,
      .inl (by decide)⟩
  obtain ⟨filter, query, _, _, _, saves, _⟩ :=
    @written_object_is_fetched_back people _ "people" ada noPeople rfl keyed storable (.fresh _ _ _)
  have saved : (people.save .background "people" { root := .map ada }).on connection noPeople =
      (.ok 1, _) := rfl
  refine ⟨filter, query, _, saved, ((saves _ saved).1).resolve_left ?_⟩
  rintro ⟨position, old, _, first, _⟩
  cases first.located

/-- The `_id` is still decoded to the field that was declared to be stored as it before. -/
def renumbered : DocumentDao where
  mapping := [("people", [{ use := .renamed, field := "id", column := "_id" },
    { use := .renamed, field := "id", column := "number" }])]
  key := PrimaryKey.filter { fields := ["id"] }

theorem renumbered_object_is_lost :
    let one : Record := [("id", .string "1")]
    let saved := (renumbered.save .background "people" { root := .map one }).on connection noPeople
    Reachable noPeople ∧ PrimaryKey.Of { fields := ["id"] } "people" one ∧
      renumbered.mapper.Storable "people" one ∧ saved.1 = .ok 1 ∧
      ((renumbered.fetchOne .background "people" (some (.compare "id" .equal (.string "1")))).on
        connection saved.2).1 = .ok (some { root := .map [("id", .string "0")] }) ∧
      Value.same (.map [("id", .string "0")]) (.map one) = false := by
  intro one saved
  refine ⟨.fresh _ _ _, ?_, ?_, rfl, rfl, by decide⟩
  · refine ⟨by decide, by decide, fun name member => ?_⟩
    obtain rfl := List.mem_singleton.mp member
    exact ⟨.string "1", rfl, rfl⟩
  · exact ⟨⟨by decide, trivial, trivial⟩, by decide, by decide, by decide, .inl (by decide)⟩

end DocumentDao

end DataAccess
