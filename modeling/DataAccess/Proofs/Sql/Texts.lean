import DataAccess.Dao.Relational
import DataAccess.Proofs.Shape
import DataAccess.Proofs.Sql.Alike
import DataAccess.Proofs.Sql.Erasure

namespace DataAccess

open Sql

theorem Sql.matched_mapM {α β γ : Type} {items : List α} {project : β → γ}
    {left right : α → Except DaoError β}
    (each : ∀ item ∈ items,
      Matched (fun ours theirs => project ours = project theirs) (left item) (right item)) :
    Matched (fun ours theirs => ours.map project = theirs.map project) (items.mapM left)
      (items.mapM right) := by
  induction items with
  | nil => exact .ok rfl
  | cons item rest ih =>
      rw [List.mapM_cons, List.mapM_cons]
      refine matched_bind (each item (by simp)) fun ours theirs same => ?_
      refine matched_bind (ih fun other inRest => each other (by simp [inRest]))
        fun others others' sameRest => .ok ?_
      rw [List.map_cons, List.map_cons, same, sameRest]

section

variable {left right : BusinessObject} {storage : String}

namespace PrimaryKey

theorem matched_clause {field : String} (same : left.SameShape right) (plain : Path.Plain field) :
    Matched (fun ours theirs => ours.erased = theirs.erased) (clause storage left field)
      (clause storage right field) := by
  obtain ⟨ours, theirs, leftRoot, rightRoot, shape⟩ := same
  have nulls := congrArg (Dict.get? · field) shape
  simp only [Dict.get?_mapValues] at nulls
  rw [clause, clause, BusinessObject.get_plain leftRoot plain,
    BusinessObject.get_plain rightRoot plain]
  cases found : Dict.get? ours field with
  | none =>
      rw [found, Option.map_none, eq_comm, Option.map_eq_none_iff] at nulls
      rw [nulls]
      exact .error _
  | some value =>
      rw [found, Option.map_some, eq_comm, Option.map_eq_some_iff] at nulls
      obtain ⟨other, otherFound, sameNull⟩ := nulls
      rw [otherFound, Option.filter_some, Option.filter_some, sameNull]
      cases value.isNull with
      | true => exact .error _
      | false => exact .ok rfl

theorem matched_filter {key : PrimaryKey} (same : left.SameShape right)
    (plain : ∀ field ∈ key.fieldsOf storage, Path.Plain field) :
    Matched (fun ours theirs => ours.erased = theirs.erased) (key.filter storage left)
      (key.filter storage right) := by
  refine matched_bind (matched_mapM fun field member => matched_clause same (plain field member))
    fun ours theirs clauses => ?_
  -- One clause stands alone, several are joined, so the lists are told apart up to two clauses.
  rcases ours with _ | ⟨first, _ | ⟨second, more⟩⟩ <;>
    rcases theirs with _ | ⟨other, _ | ⟨next, others⟩⟩ <;>
    simp only [List.map_nil, List.map_cons, reduceCtorEq, List.cons.injEq, and_false, and_true]
      at clauses
  · exact .error _
  · exact .ok clauses
  · refine .ok ?_
    simp only [Filter.erased, Filter.erasedAll_eq, List.map_cons, clauses]

end PrimaryKey

/-- Filters that differ in literals are both valid or both refused for the same reason. -/
theorem KeyFilter.matched_filter {key : KeyFilter}
    (matched : Matched (fun ours theirs => ours.erased = theirs.erased) (key storage left)
      (key storage right)) :
    Matched (fun ours theirs => ours.erased = theirs.erased) (key.filter storage left)
      (key.filter storage right) := by
  refine matched_bind matched fun ours theirs same => ?_
  rw [← ours.validate_erased, same, theirs.validate_erased]
  cases theirs.validate with
  | error fault => exact .error _
  | ok _ => exact .ok same

namespace RowMapper

variable {α : Type} {renamed other : Record}

theorem takeColumns_shape {project : Value → α} (columns : List String)
    (same : renamed.mapValues project = other.mapValues project) :
    Dict.keys (takeColumns columns renamed).1 = Dict.keys (takeColumns columns other).1 ∧
      (takeColumns columns renamed).2.mapValues project =
        (takeColumns columns other).2.mapValues project := by
  induction columns generalizing renamed other with
  | nil => exact ⟨rfl, same⟩
  | cons column rest ih =>
      have erased : (Dict.eraseSwap renamed column).mapValues project =
          (Dict.eraseSwap other column).mapValues project := by
        rw [Dict.eraseSwap_mapValues, same, Dict.eraseSwap_mapValues]
      obtain ⟨keys, left⟩ := ih erased
      exact ⟨congrArg (column :: ·) keys, left⟩

theorem matched_relationalRow {project : Value → α} (columns : Columns)
    (same : renamed.mapValues project = other.mapValues project) :
    Matched (fun ours theirs => Dict.keys ours = Dict.keys theirs)
      (relationalRow storage columns renamed) (relationalRow storage columns other) := by
  cases columns with
  | all =>
      refine .ok ?_
      have encoded (row : Record) : Dict.keys (row.mapValues encodeNested) = Dict.keys row :=
        Dict.keys_mapValues encodeNested row
      exact (encoded renamed).trans ((Dict.keys_of_mapValues same).trans (encoded other).symm)
  | listed names =>
      obtain ⟨keys, rest⟩ := takeColumns_shape names same
      have leftover := Dict.keys_of_mapValues rest
      simp only [relationalRow]
      generalize takeColumns names renamed = ours at keys leftover
      generalize takeColumns names other = theirs at keys leftover
      obtain ⟨row, _ | ⟨⟨column, _⟩, _⟩⟩ := ours
      · obtain ⟨changed, _ | _⟩ := theirs
        · exact .ok keys
        · cases leftover
      · obtain ⟨changed, _ | ⟨⟨first, _⟩, _⟩⟩ := theirs
        · cases leftover
        · obtain ⟨rfl, _⟩ := List.cons.inj leftover
          exact .error _

theorem matched_toRow {mapper : RowMapper} (relational : mapper.kind = .relational)
    (same : left.SameShape right) :
    Matched (fun ours theirs => Dict.keys ours = Dict.keys theirs) (mapper.toRow storage left)
      (mapper.toRow storage right) := by
  obtain ⟨ours, theirs, leftRoot, rightRoot, shape⟩ := same
  have renamed : (Dict.mapKeys (mapper.mapping.columnOf storage) ours).mapValues Value.isNull =
      (Dict.mapKeys (mapper.mapping.columnOf storage) theirs).mapValues Value.isNull := by
    rw [Dict.mapKeys_mapValues, shape, Dict.mapKeys_mapValues]
  simp only [toRow, Mapping.toColumns, leftRoot, rightRoot, ok_bind, relational]
  exact matched_relationalRow _ renamed

end RowMapper

end

namespace RelationalDao

variable (dao : RelationalDao) (context : Context) (storage : String)

theorem matched_condition {filter other : Option Filter}
    (same : filter.map Filter.erased = other.map Filter.erased) :
    Matched (fun ours theirs => Statement.erased ours = Statement.erased theirs)
      (dao.condition storage filter) (dao.condition storage other) := by
  have renamed (filter : Option Filter) :
      (filter.map (Filter.rename (dao.mapper.columnOf storage))).map Filter.erased =
        (filter.map Filter.erased).map (Filter.rename (dao.mapper.columnOf storage)) := by
    cases filter with
    | none => rfl
    | some filter => exact congrArg some (Filter.erased_rename _ filter)
  refine matched_of_map .invalidFilter ?_
  rw [← condition?_erased, ← condition?_erased, renamed, renamed, same]

theorem query_alike {ours theirs : Statement} (same : ours.erased = theirs.erased) :
    SameTexts Eq (dao.query context ours) (dao.query context theirs) := by
  unfold query
  rw [Statement.sql_eq_of_erased dao.flavor same]
  exact sameTexts_query context _ _ _

theorem execute_alike {ours theirs : Statement} (same : ours.erased = theirs.erased) :
    SameTexts Eq (dao.execute context ours) (dao.execute context theirs) := by
  unfold execute
  rw [Statement.sql_eq_of_erased dao.flavor same]
  exact sameTexts_execute context _ _ _

theorem firstRow_alike (projection : Statement) {filter other : Option Filter}
    (same : filter.map Filter.erased = other.map Filter.erased) :
    SameTexts Eq (dao.firstRow context storage projection filter)
      (dao.firstRow context storage projection other) := by
  refine sameTexts_bind (sameTexts_ofExcept (dao.matched_condition storage same))
    fun ours theirs conditions => ?_
  refine sameTexts_bind (dao.query_alike context (erased_select _ _ _ _ _ _ conditions))
    fun rows rows' answered => ?_
  rw [answered]
  exact sameTexts_ofExcept (matched_refl _)

theorem keys_padRow {row changed : Record} (existing : Record)
    (same : Dict.keys row = Dict.keys changed) :
    Dict.keys (padRow row existing) = Dict.keys (padRow changed existing) := by
  unfold padRow
  induction Dict.keys existing generalizing row changed with
  | nil => exact same
  | cons column rest ih =>
      apply ih
      rw [Dict.keys_insertNew, same, Dict.keys_insertNew]

variable {filter other : Filter} {row changed : Record}
variable (filters : filter.erased = other.erased) (rows : Dict.keys row = Dict.keys changed)

theorem insert_alike (rows : Dict.keys row = Dict.keys changed) :
    SameTexts Eq (dao.insert context storage row) (dao.insert context storage changed) :=
  dao.execute_alike context (erased_insert storage rows)

include filters rows

theorem replacement_alike :
    SameTexts (fun ours theirs => ours.map Dict.keys = theirs.map Dict.keys)
      (dao.replacement context storage filter row)
      (dao.replacement context storage other changed) := by
  unfold replacement
  split
  · exact sameTexts_pure (congrArg some rows)
  · refine sameTexts_bind
      (dao.firstRow_alike context storage _ (congrArg some filters)) fun existing _ found => ?_
    subst found
    apply sameTexts_pure
    cases existing with
    | none => rfl
    | some existing => exact congrArg some (keys_padRow existing rows)

theorem replace_alike :
    SameTexts Eq (dao.replace context storage filter row)
      (dao.replace context storage other changed) := by
  refine sameTexts_bind (dao.replacement_alike context storage filters rows)
    fun ours theirs padded => ?_
  cases ours with
  | none =>
      rw [Option.map_none, eq_comm, Option.map_eq_none_iff] at padded
      rw [padded]
      exact sameTexts_pure rfl
  | some ours =>
      -- Rows with the same columns are both empty or both written.
      rw [Option.map_some, eq_comm, Option.map_eq_some_iff] at padded
      obtain ⟨theirs, rfl, columns⟩ := padded
      have empty : ours.isEmpty = theirs.isEmpty := by
        simpa [Dict.keys] using (congrArg List.isEmpty columns).symm
      dsimp only
      rw [empty]
      split
      · exact sameTexts_pure rfl
      · refine sameTexts_bind (sameTexts_ofExcept
          (dao.matched_condition storage (congrArg some filters))) fun _ _ conditions => ?_
        exact dao.execute_alike context (erased_update storage columns.symm conditions)

theorem insertNew_alike :
    SameTexts Eq (dao.insertNew context storage filter row)
      (dao.insertNew context storage other changed) := by
  refine sameTexts_bind (dao.firstRow_alike context storage _ (congrArg some filters))
    fun found _ same => ?_
  subst same
  split
  · exact sameTexts_throw _
  · exact dao.insert_alike context storage rows

theorem replaceOrInsert_alike :
    SameTexts Eq (dao.replaceOrInsert context storage filter row)
      (dao.replaceOrInsert context storage other changed) := by
  refine sameTexts_bind (dao.replace_alike context storage filters rows) fun replaced _ same => ?_
  subst same
  split
  · exact dao.insert_alike context storage rows
  · exact sameTexts_pure rfl

omit filters rows

variable {key : PrimaryKey} {left right : BusinessObject}

theorem matched_keyFilter (keyed : dao.key = key.filter)
    (plain : ∀ field ∈ key.fieldsOf storage, Path.Plain field) (same : left.SameShape right) :
    Matched (fun ours theirs => ours.erased = theirs.erased) (dao.key.filter storage left)
      (dao.key.filter storage right) := by
  rw [keyed]
  exact KeyFilter.matched_filter (PrimaryKey.matched_filter same plain)

theorem matched_prepare (keyed : dao.key = key.filter)
    (plain : ∀ field ∈ key.fieldsOf storage, Path.Plain field) (same : left.SameShape right) :
    Matched (fun ours theirs =>
        ours.1.erased = theirs.1.erased ∧ Dict.keys ours.2 = Dict.keys theirs.2)
      (dao.prepare storage left) (dao.prepare storage right) := by
  refine matched_bind (dao.matched_keyFilter storage keyed plain same) fun ours theirs filters => ?_
  refine matched_bind (RowMapper.matched_toRow rfl same) fun row changed rows => ?_
  exact .ok ⟨filters, rows⟩

/-- Objects of one shape, and filters that differ in literals, make an operation send the same texts
and end alike as long as it is given the same answers. -/
theorem values_stay_out_of_texts (keyed : dao.key = key.filter)
    (plain : ∀ field ∈ key.fieldsOf storage, Path.Plain field) (same : left.SameShape right)
    {filter other : Option Filter} (filters : filter.map Filter.erased = other.map Filter.erased)
    (sorting : Sorting) (offset limit : Nat) :
    SameTexts Eq (dao.create context storage left) (dao.create context storage right) ∧
    SameTexts Eq (dao.update context storage left) (dao.update context storage right) ∧
    SameTexts Eq (dao.save context storage left) (dao.save context storage right) ∧
    SameTexts Eq (dao.delete context storage left) (dao.delete context storage right) ∧
    SameTexts Eq (dao.fetchOne context storage filter) (dao.fetchOne context storage other) ∧
    SameTexts Eq (dao.fetchMany context storage filter sorting offset limit)
      (dao.fetchMany context storage other sorting offset limit) := by
  have prepared := sameTexts_ofExcept (dao.matched_prepare storage keyed plain same)
  refine ⟨?_, ?_, ?_, ?_, ?_, ?_⟩
  · refine sameTexts_bind prepared fun ⟨_, _⟩ ⟨_, _⟩ ⟨filters, rows⟩ => ?_
    have body := dao.insertNew_alike context storage filters rows
    dsimp only
    split
    · exact sameTexts_inTransaction context _ body
    · exact body
  · refine sameTexts_bind prepared fun ⟨_, _⟩ ⟨_, _⟩ ⟨filters, rows⟩ => ?_
    exact sameTexts_inTransaction context _ (dao.replace_alike context storage filters rows)
  · refine sameTexts_bind prepared fun ⟨_, _⟩ ⟨_, _⟩ ⟨filters, rows⟩ => ?_
    exact sameTexts_inTransaction context _ (dao.replaceOrInsert_alike context storage filters rows)
  · refine sameTexts_bind (sameTexts_ofExcept (dao.matched_keyFilter storage keyed plain same))
      fun _ _ filters => ?_
    refine sameTexts_bind (sameTexts_ofExcept
      (dao.matched_condition storage (congrArg some filters))) fun _ _ conditions => ?_
    exact dao.execute_alike context (erased_delete storage conditions)
  · refine sameTexts_bind (dao.firstRow_alike context storage _ filters) fun row _ found => ?_
    rw [found]
    exact sameTexts_ofExcept (matched_refl _)
  · refine sameTexts_bind (sameTexts_ofExcept (dao.matched_condition storage filters))
      fun _ _ conditions => ?_
    refine sameTexts_bind (dao.query_alike context (erased_select _ _ _ _ _ _ conditions))
      fun rows _ answered => ?_
    rw [answered]
    exact sameTexts_ofExcept (matched_refl _)

def people : RelationalDao := { flavor := .sqlite, key := PrimaryKey.filter { fields := ["id"] } }

def person (id : String) : BusinessObject := { root := .map [("id", .string id), ("mail", .null)] }

/-- A key that reads like a condition is sent beside the text, not in it. -/
theorem injected_key_is_no_text :
    SameTexts Eq (people.delete .background "people" (person "ada"))
        (people.delete .background "people" (person "0 OR 1 = 1")) ∧
      ((people.delete .background "people" (person "0 OR 1 = 1")).on scripted
          { store := {} }).2.store.log =
        [.execute "DELETE FROM \"people\" WHERE \"id\" = ?" [.string "0 OR 1 = 1"]] := by
  have shape : (person "ada").SameShape (person "0 OR 1 = 1") := ⟨_, _, rfl, rfl, rfl⟩
  have plain : ∀ field ∈ PrimaryKey.fieldsOf { fields := ["id"] } "people", Path.Plain field := by
    decide
  have texts := people.values_stay_out_of_texts .background "people" rfl plain shape
    (congrArg (Option.map Filter.erased) (Eq.refl none)) [] 0 0
  exact ⟨texts.2.2.2.1, rfl⟩

end RelationalDao

end DataAccess
