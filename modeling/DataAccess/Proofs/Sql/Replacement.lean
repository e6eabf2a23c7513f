import DataAccess.Proofs.Conversation
import DataAccess.Proofs.Sql.Parameters
import DataAccess.Proofs.Sql.Rows

/-!
# Replaced rows

An update overwrites a whole row: whatever is answered, it assigns each listed column once, or, where
none are listed, each column of the new row and of the one that was found, and null where the new row
has nothing. Saving inserts the new row only behind a replacement that affected none.
-/

namespace DataAccess

open Operation Sql

namespace Sql

/-- A statement that begins with a keyword is sent. -/
def Begins (keyword : String) (exchange : Exchange interface) : Prop :=
  ∃ sql parameters, exchange.request = .execute sql parameters ∧ keyword.toList <+: sql.toList

abbrev IsUpdate (exchange : Exchange interface) : Prop := Begins "UPDATE " exchange

abbrev IsInsert (exchange : Exchange interface) : Prop := Begins "INSERT " exchange

def IsQuery (exchange : Exchange interface) : Prop :=
  ∃ sql parameters, exchange.request = .query sql parameters

/-- The first row that a query found. -/
def found? : Exchange interface → Option Record
  | ⟨_, .query _ _, .ok (.ok row :: _)⟩ => some row
  | _ => none

variable {keyword other : String} {exchange : Exchange interface}

theorem found?_of_first {context : Context} {sql : String} {parameters : List Value}
    {rows : Cursor Record} {found : Option Record} (first : rows.first = .ok found) :
    found? ⟨context, .query sql parameters, .ok rows⟩ = found := by
  rcases rows with _ | ⟨_ | row, rest⟩
  · cases first
    rfl
  · cases first
  · cases first
    rfl

theorem first_of_found? {context : Context} {sql : String} {parameters : List Value}
    {rows : Cursor Record} {existing : Record}
    (found : found? ⟨context, .query sql parameters, .ok rows⟩ = some existing) :
    rows.first = .ok (some existing) := by
  rcases rows with _ | ⟨_ | row, rest⟩
  · cases found
  · cases found
  · cases found
    rfl

theorem not_begins_of_isQuery (query : IsQuery exchange) : ¬ Begins keyword exchange := by
  obtain ⟨_, _, asked⟩ := query
  rintro ⟨_, _, executed, _⟩
  rw [asked] at executed
  cases executed

/-- A statement does not begin with two keywords of which none begins with the other. -/
theorem not_begins_of_begins (begins : Begins keyword exchange)
    (apart : ¬ keyword.toList <+: other.toList ∧ ¬ other.toList <+: keyword.toList) :
    ¬ Begins other exchange := by
  obtain ⟨sql, parameters, sent, first⟩ := begins
  rintro ⟨_, _, again, second⟩
  rw [sent] at again
  cases again
  rcases List.prefix_or_prefix_of_prefix first second with shorter | shorter
  · exact apart.1 shorter
  · exact apart.2 shorter

end Sql

namespace RelationalDao

section

variable {row assigned : Record} {columns : List String}

/-- Each column is assigned once: what a row has for it, or else null. -/
structure Assigns (row : Record) (columns : List String) (assigned : Record) : Prop where
  once : assigned.Distinct
  keys : ∀ column, column ∈ Dict.keys assigned ↔ column ∈ columns
  values : ∀ column ∈ columns, Dict.get? assigned column = some ((Dict.get? row column).getD .null)

theorem assigns_self (once : row.Distinct) : Assigns row (Dict.keys row) row where
  once := once
  keys _ := Iff.rfl
  values column member := by
    obtain ⟨value, found⟩ := Dict.exists_of_mem_keys member
    rw [found, Option.getD_some]

/-- A column that the row does not have is assigned null. -/
theorem assigns_insertNew (assigns : Assigns row columns assigned)
    (covered : ∀ column ∈ Dict.keys row, column ∈ columns) (column : String) :
    Assigns row (columns ++ [column]) (assigned.insertNew column .null) where
  once := Dict.distinct_insertNew assigns.once column .null
  keys other := by
    rw [Dict.keys_insertNew, List.mem_append, List.mem_singleton, ← assigns.keys other]
    split
    · rename_i present
      exact ⟨.inl, fun member => member.elim id fun same => same ▸ present⟩
    · rw [List.mem_append, List.mem_singleton]
  values other member := by
    rw [Dict.get?_insertNew]
    by_cases listed : other ∈ columns
    · rw [assigns.values other listed, Option.some_or]
    · have unassigned : Dict.get? assigned other = none :=
        Dict.get?_eq_none_iff.mpr fun present => listed ((assigns.keys other).mp present)
      have lacking : Dict.get? row other = none :=
        Dict.get?_eq_none_iff.mpr fun present => listed (covered other present)
      have last : other = column := by simpa [listed] using member
      rw [unassigned, lacking, last]
      simp [Dict.get?]

theorem assigns_padRow (once : row.Distinct) (existing : Record) :
    Assigns row (Dict.keys row ++ Dict.keys existing) (padRow row existing) := by
  have padded (more : List String) {columns : List String} {assigned : Record}
      (assigns : Assigns row columns assigned) (covered : ∀ column ∈ Dict.keys row, column ∈ columns) :
      Assigns row (columns ++ more)
        (more.foldl (fun row column => row.insertNew column .null) assigned) := by
    induction more generalizing columns assigned with
    | nil => simpa using assigns
    | cons column rest ih =>
        have wider := ih (assigns_insertNew assigns covered column) fun other member =>
          List.mem_append_left _ (covered other member)
        simpa using wider
  exact padded (Dict.keys existing) (assigns_self once) fun _ member => member

end

variable (dao : RelationalDao) (storage : String) (key : Filter) (row : Record)

/-- A query for the record of a key. -/
def Probes (exchange : Exchange interface) : Prop :=
  ∃ condition, dao.condition storage (some key) = .ok condition ∧
    let statement := Sql.select dao.flavor [.text "*"] storage condition [] 0 1
    exchange.request = .query (statement.sql dao.flavor) statement.parameters

/-- An update of the record of a key: these assignments, and the key as its condition. -/
def Updates (assigned : Record) (exchange : Exchange interface) : Prop :=
  ∃ condition sql parameters, dao.condition storage (some key) = .ok condition ∧
    exchange.request = .execute sql parameters ∧
    parameters = Dict.values assigned ++ condition.parameters ∧
    sql.toList = (Sql.update storage assigned []).render dao.flavor 1 ++
      (" WHERE ".toList ++ condition.render dao.flavor (assigned.length + 1)) ∧
    Aligned dao.flavor sql parameters (assigned ++ dao.literals storage (some key))

/-- The columns to assign after what was exchanged before: those that are listed, or else those of
the row and of the one that a query found. -/
def Targets (before : List (Exchange interface)) (columns : List String) : Prop :=
  match dao.mapper.columns storage with
  | .listed names => before = [] ∧ columns = names
  | .all => ∃ probe existing, before = [probe] ∧ dao.Probes storage key probe ∧
      found? probe = some existing ∧ columns = Dict.keys row ++ Dict.keys existing

/-- At most one update is sent, and it overwrites the whole row; none is sent after a query that
finds nothing. -/
structure Overwritten (exchanges : List (Exchange interface)) : Prop where
  whole : ∀ sent ∈ exchanges, IsUpdate sent → ∃ before after columns assigned,
    exchanges = before ++ sent :: after ∧ (∀ other ∈ before ++ after, ¬ IsUpdate other) ∧
      dao.Targets storage key row before columns ∧ Assigns row columns assigned ∧
      dao.Updates storage key assigned sent
  found : ∀ query ∈ exchanges, IsQuery query → found? query = none →
    ∀ sent ∈ exchanges, ¬ IsUpdate sent

variable {dao storage key row} {context : Context} {exchanges before : List (Exchange interface)}
variable {columns : List String} {assigned : Record} {sent : Exchange interface}

theorem updates_isUpdate (updates : dao.Updates storage key assigned sent) : IsUpdate sent := by
  obtain ⟨condition, sql, parameters, _, executed, _, text, _⟩ := updates
  refine ⟨sql, parameters, executed, ?_⟩
  rw [text]
  have keyword : "UPDATE ".toList <+: (Sql.update storage assigned []).render dao.flavor 1 := ⟨_, rfl⟩
  exact keyword.trans (List.prefix_append _ _)

theorem condition_ne_nil {condition : Statement}
    (compiled : dao.condition storage (some key) = .ok condition) : condition ≠ [] := by
  have compiled := mapError_eq_ok.mp compiled
  simp only [Option.map_some, condition?] at compiled
  generalize key.rename (dao.mapper.columnOf storage) = filter at compiled
  cases filter with
  | compare | compareFields | isNull | isNotNull =>
      cases compiled
      exact List.cons_ne_nil _ _
  | allOf | anyOf =>
      rw [Sql.condition] at compiled
      obtain ⟨_, _, compiled⟩ := bind_eq_ok.mp compiled
      obtain ⟨_, _, same⟩ := bind_eq_ok.mp compiled
      rw [← pure_eq_ok.mp same]
      exact List.cons_ne_nil _ _

theorem updates_update {condition : Statement} {answer : Except StoreError Nat}
    (compiled : dao.condition storage (some key) = .ok condition) :
    let statement := Sql.update storage assigned condition
    dao.Updates storage key assigned
      { context, request := .execute (statement.sql dao.flavor) statement.parameters, answer } := by
  intro statement
  have binds := dao.binds_condition storage compiled
  have aligned := aligned_update dao.flavor storage assigned binds
  refine ⟨condition, _, _, compiled, rfl, ?_, ?_, aligned⟩
  · rw [aligned.passed, List.map_append, Statement.parameters_eq "" condition, binds.paired]
    rfl
  · have behind : whereClause condition = .text " WHERE " :: condition :=
      if_neg (by simpa using condition_ne_nil compiled)
    rw [Statement.sql, String.toList_ofList, render_update, behind]
    rfl

theorem isQuery_of_targets (targets : dao.Targets storage key row before columns)
    {query : Exchange interface} (member : query ∈ before) :
    IsQuery query ∧ found? query ≠ none := by
  unfold Targets at targets
  split at targets
  · rw [targets.1] at member
    cases member
  · obtain ⟨probe, existing, rfl, ⟨condition, _, asked⟩, found, _⟩ := targets
    rw [List.mem_singleton.mp member, found]
    exact ⟨⟨_, _, asked⟩, Option.some_ne_none existing⟩

variable (dao storage key row) in
/-- What the replacement of a record exchanges: nothing, or a query, or at the end an update. -/
inductive Replacing : List (Exchange interface) → Prop
  | unsent : Replacing []
  | probed {probe : Exchange interface} (probes : dao.Probes storage key probe) : Replacing [probe]
  | updated {before : List (Exchange interface)} {columns : List String} {assigned : Record}
      {sent : Exchange interface} (targets : dao.Targets storage key row before columns)
      (assigns : Assigns row columns assigned) (updates : dao.Updates storage key assigned sent) :
      Replacing (before ++ [sent])

theorem converses_firstRow {result : Except DaoError (Option Record)}
    (conversed : (dao.firstRow context storage [.text "*"] (some key)).Converses exchanges result) :
    (exchanges = [] ∧ ∃ error, dao.condition storage (some key) = .error error ∧
        result = .error error) ∨
      ∃ probe, exchanges = [probe] ∧ dao.Probes storage key probe ∧
        (∀ found, result = .ok found → found = found? probe) ∧
        ∀ existing, found? probe = some existing → result = .ok (some existing) := by
  rcases converses_ofExcept_bind conversed with
    ⟨error, failed, none, ended⟩ | ⟨condition, compiled, asked⟩
  · exact .inl ⟨none, error, failed, ended⟩
  · right
    rcases converses_bind asked with ⟨error, called, rfl⟩ | ⟨_, rows, _, rfl, called, read⟩
    · obtain ⟨answer, rfl, failed⟩ := converses_call called
      refine ⟨_, rfl, ⟨condition, compiled, rfl⟩, nofun, fun existing found => ?_⟩
      cases answer with
      | ok rows => cases failed
      | error error => cases found
    · obtain ⟨answer, rfl, answered⟩ := converses_call called
      obtain ⟨rfl, first⟩ := converses_ofExcept read
      cases mapError_eq_ok.mp answered.symm
      refine ⟨_, rfl, ⟨condition, compiled, rfl⟩, fun found ended => ?_, fun existing found => ?_⟩
      · exact (found?_of_first (mapError_eq_ok.mp (first.symm.trans ended))).symm
      · exact first.trans (mapError_eq_ok.mpr (first_of_found? found))

section

variable (once : row.Distinct)
variable (listed : ∀ names, dao.mapper.columns storage = .listed names → Dict.keys row = names)

include once listed

theorem converses_replacement {result : Except DaoError (Option Record)}
    (conversed : (dao.replacement context storage key row).Converses exchanges result) :
    dao.Replacing storage key row exchanges ∧
      ∀ padded, result = .ok (some padded) →
        ∃ columns, dao.Targets storage key row exchanges columns ∧ Assigns row columns padded := by
  unfold replacement at conversed
  split at conversed
  · rename_i names columns
    obtain ⟨rfl, rfl⟩ := converses_pure conversed
    refine ⟨.unsent, ?_⟩
    rintro _ ⟨⟩
    refine ⟨Dict.keys row, ?_, assigns_self once⟩
    rw [Targets, columns]
    exact ⟨rfl, listed names columns⟩
  · rename_i columns
    rcases converses_bind conversed with ⟨error, asked, rfl⟩ | ⟨_, found, _, rfl, asked, ended⟩
    · refine ⟨?_, nofun⟩
      rcases converses_firstRow asked with ⟨rfl, _⟩ | ⟨probe, rfl, probes, _⟩
      · exact .unsent
      · exact .probed probes
    · obtain ⟨rfl, rfl⟩ := converses_pure ended
      rcases converses_firstRow asked with ⟨_, _, _, ⟨⟩⟩ | ⟨probe, rfl, probes, answered, _⟩
      refine ⟨.probed probes, fun padded same => ?_⟩
      obtain ⟨existing, rfl, rfl⟩ := Option.map_eq_some_iff.mp (Except.ok.inj same)
      refine ⟨Dict.keys row ++ Dict.keys existing, ?_, assigns_padRow once existing⟩
      rw [Targets, columns]
      exact ⟨probe, existing, rfl, probes, (answered _ rfl).symm, rfl⟩

theorem replacing_replace {result : Except DaoError Nat}
    (conversed : (dao.replace context storage key row).Converses exchanges result) :
    dao.Replacing storage key row exchanges := by
  rcases converses_bind conversed with ⟨error, failed, _⟩ | ⟨first, middle, rest, rfl, began, ended⟩
  · exact (converses_replacement once listed failed).1
  · obtain ⟨asked, padded⟩ := converses_replacement once listed began
    have stopped (none : rest = []) : dao.Replacing storage key row (first ++ rest) := by
      rwa [none, List.append_nil]
    cases middle with
    | none => exact stopped (converses_pure ended).1
    | some assigned =>
        obtain ⟨columns, targets, assigns⟩ := padded assigned rfl
        dsimp only at ended
        split at ended
        · exact stopped (converses_pure ended).1
        · rcases converses_ofExcept_bind ended with ⟨_, _, none, _⟩ | ⟨condition, compiled, executed⟩
          · exact stopped none
          · obtain ⟨answer, rfl, _⟩ := converses_call executed
            exact .updated targets assigns (updates_update compiled)

end

/-- Every query that was made found the record. -/
def Found (exchanges : List (Exchange interface)) : Prop :=
  ∀ query ∈ exchanges, IsQuery query → found? query ≠ none

section

variable {result : Except DaoError (Option Record)}
variable (valid : ∀ filter ∈ Option.some key, filter.validate = .ok ()) (found : Found exchanges)

include valid found

theorem firstRow_of_found
    (conversed : (dao.firstRow context storage [.text "*"] (some key)).Converses exchanges result) :
    ∃ existing, result = .ok (some existing) := by
  rcases converses_firstRow conversed with ⟨_, _, failed, _⟩ | ⟨probe, rfl, probes, _, answered⟩
  · obtain ⟨condition, compiled⟩ := dao.exists_condition storage valid
    rw [compiled] at failed
    cases failed
  · obtain ⟨condition, _, asked⟩ := probes
    obtain ⟨existing, first⟩ :=
      Option.ne_none_iff_exists'.mp (found probe List.mem_cons_self ⟨_, _, asked⟩)
    exact ⟨existing, answered existing first⟩

theorem replacement_of_found (filled : row ≠ [])
    (conversed : (dao.replacement context storage key row).Converses exchanges result) :
    ∃ padded, result = .ok (some padded) ∧ padded ≠ [] := by
  unfold replacement at conversed
  split at conversed
  · exact ⟨row, (converses_pure conversed).2, filled⟩
  · rcases converses_bind conversed with ⟨error, asked, _⟩ | ⟨first, middle, _, rfl, asked, ended⟩
    · obtain ⟨_, ⟨⟩⟩ := firstRow_of_found valid found asked
    · obtain ⟨rfl, rfl⟩ := converses_pure ended
      rw [List.append_nil] at found
      obtain ⟨existing, ⟨⟩⟩ := firstRow_of_found valid found asked
      obtain ⟨missing, padded⟩ := padRow_eq_append row existing
      refine ⟨padRow row existing, rfl, ?_⟩
      rw [padded]
      exact List.append_ne_nil_of_left_ne_nil filled _

/-- A record that is not missing is updated. -/
theorem updates_of_found (filled : row ≠ []) {count : Except DaoError Nat}
    (conversed : (dao.replace context storage key row).Converses exchanges count) :
    ∃ sent ∈ exchanges, IsUpdate sent := by
  rcases converses_bind conversed with ⟨error, failed, _⟩ | ⟨first, middle, rest, rfl, began, ended⟩
  · obtain ⟨_, ⟨⟩, _⟩ := replacement_of_found valid found filled failed
  · have asked : Found first := fun query member => found query (List.mem_append_left _ member)
    obtain ⟨padded, ⟨⟩, nonempty⟩ := replacement_of_found valid asked filled began
    dsimp only at ended
    rw [if_neg (by simpa using nonempty)] at ended
    obtain ⟨condition, compiled⟩ := dao.exists_condition storage valid
    rcases converses_ofExcept_bind ended with ⟨_, failed, _⟩ | ⟨_, again, executed⟩
    · rw [compiled] at failed
      cases failed
    · obtain ⟨answer, rfl, _⟩ := converses_call executed
      exact ⟨_, List.mem_append_right _ List.mem_cons_self, updates_isUpdate (updates_update again)⟩

end

theorem not_isInsert_of_replacing (replacing : dao.Replacing storage key row exchanges) :
    ∀ exchange ∈ exchanges, ¬ IsInsert exchange := by
  intro exchange member
  cases replacing with
  | unsent => cases member
  | probed probes =>
      obtain ⟨condition, _, asked⟩ := probes
      rw [List.mem_singleton.mp member]
      exact not_begins_of_isQuery ⟨_, _, asked⟩
  | updated targets assigns updates =>
      rcases List.mem_append.mp member with asked | last
      · exact not_begins_of_isQuery (isQuery_of_targets targets asked).1
      · rw [List.mem_singleton.mp last]
        exact not_begins_of_begins (updates_isUpdate updates) (by decide)

theorem overwritten_of_no_update (none : ∀ exchange ∈ exchanges, ¬ IsUpdate exchange) :
    dao.Overwritten storage key row exchanges where
  whole sent member update := (none sent member update).elim
  found _ _ _ _ := none

/-- What is exchanged behind the replacement adds neither queries nor updates. -/
theorem overwritten_of_replacing (replacing : dao.Replacing storage key row exchanges)
    {rest : List (Exchange interface)} (inserts : ∀ exchange ∈ rest, IsInsert exchange) :
    dao.Overwritten storage key row (exchanges ++ rest) := by
  have restUpdates : ∀ exchange ∈ rest, ¬ IsUpdate exchange := fun exchange member =>
    not_begins_of_begins (inserts exchange member) (by decide)
  cases replacing with
  | unsent => exact overwritten_of_no_update restUpdates
  | probed probes =>
      obtain ⟨condition, _, asked⟩ := probes
      refine overwritten_of_no_update fun exchange member => ?_
      rcases List.mem_cons.mp member with rfl | later
      · exact not_begins_of_isQuery ⟨_, _, asked⟩
      · exact restUpdates exchange later
  | @updated before columns assigned sent targets assigns updates =>
      have beforeUpdates : ∀ exchange ∈ before, ¬ IsUpdate exchange := fun exchange member =>
        not_begins_of_isQuery (isQuery_of_targets targets member).1
      rw [List.append_assoc]
      constructor
      · intro other member update
        have only : other = sent := by
          rcases List.mem_append.mp member with asked | later
          · exact (beforeUpdates other asked update).elim
          · exact (List.mem_cons.mp later).elim id fun behind => (restUpdates other behind update).elim
        subst only
        refine ⟨before, rest, columns, assigned, rfl, fun exchange inside => ?_, targets, assigns,
          updates⟩
        exact (List.mem_append.mp inside).elim (beforeUpdates exchange) (restUpdates exchange)
      · intro query member asked unfound
        rcases List.mem_append.mp member with first | later
        · exact ((isQuery_of_targets targets first).2 unfound).elim
        · rcases List.mem_cons.mp later with rfl | behind
          · exact (not_begins_of_isQuery asked (updates_isUpdate updates)).elim
          · exact (not_begins_of_isQuery asked (inserts query behind)).elim

variable (dao storage row) in
/-- An insert of the row. -/
def Inserts (exchange : Exchange interface) : Prop :=
  exchange.request = .execute ((Sql.insert storage row).sql dao.flavor) (Dict.values row)

theorem inserts_isInsert (inserts : dao.Inserts storage row sent) : IsInsert sent := by
  have text : ((Sql.insert storage row).sql dao.flavor).toList =
      (Sql.insert storage row).render dao.flavor 1 := String.toList_ofList
  have keyword : "INSERT ".toList <+: (Sql.insert storage row).render dao.flavor 1 := ⟨_, rfl⟩
  exact ⟨_, _, inserts, text ▸ keyword⟩

/-- The new row is inserted only behind a replacement that affected no row. -/
theorem converses_replaceOrInsert {result : Except DaoError Nat}
    (conversed : (dao.replaceOrInsert context storage key row).Converses exchanges result) :
    ∃ before rest replaced, exchanges = before ++ rest ∧
      (dao.replace context storage key row).Converses before replaced ∧
      (rest = [] ∨ replaced = .ok 0 ∧ ∃ sent, rest = [sent] ∧ dao.Inserts storage row sent) := by
  rcases converses_bind conversed with ⟨error, failed, _⟩ | ⟨before, replaced, rest, rfl, began, ended⟩
  · exact ⟨exchanges, [], _, (List.append_nil exchanges).symm, failed, .inl rfl⟩
  · refine ⟨before, rest, _, rfl, began, ?_⟩
    split at ended
    · rename_i unaffected
      obtain ⟨answer, rfl, _⟩ := converses_call ended
      refine .inr ⟨congrArg Except.ok unaffected, _, rfl, ?_⟩
      rw [Inserts, ← parameters_insert storage row]
    · exact .inl (converses_pure ended).1

variable (dao storage context) (object : BusinessObject)

/-- A row has each of its columns once, and in them what is stored for an object, or else null. -/
def RowOf (row : Record) : Prop :=
  ∃ renamed, dao.mapping.toColumns storage object = .ok renamed ∧ row.Distinct ∧
    Dict.keys row = RowMapper.columnsOf (dao.mapper.columns storage) renamed ∧
    ∀ column ∈ Dict.keys row, Dict.get? row column = some (RowMapper.stored renamed column)

theorem prepare_rowOf {prepared : Filter × Record}
    (ready : dao.prepare storage object = .ok prepared) : dao.RowOf storage object prepared.2 := by
  obtain ⟨renamed, mapped, encoded⟩ := bind_eq_ok.mp (dao.prepare_parts storage ready).2
  exact ⟨renamed, mapped, RowMapper.stored_relationalRow (Mapping.distinct_toColumns mapped) encoded⟩

theorem prepared_replacing {prepared : Filter × Record} {result : Except DaoError Nat}
    (ready : dao.prepare storage object = .ok prepared)
    (conversed : (dao.replace context storage prepared.1 prepared.2).Converses exchanges result) :
    dao.Replacing storage prepared.1 prepared.2 exchanges := by
  obtain ⟨renamed, _, once, keys, _⟩ := dao.prepare_rowOf storage object ready
  refine replacing_replace once (fun names columns => ?_) conversed
  rw [keys, columns]
  rfl

theorem overwritten_of_replace {prepared : Filter × Record} {result : Except DaoError Nat}
    (ready : dao.prepare storage object = .ok prepared)
    (conversed : (dao.replace context storage prepared.1 prepared.2).Converses exchanges result) :
    dao.Overwritten storage prepared.1 prepared.2 exchanges := by
  have replacing := dao.prepared_replacing storage context object ready conversed
  have overwritten : dao.Overwritten storage prepared.1 prepared.2 (exchanges ++ []) :=
    overwritten_of_replacing replacing nofun
  rwa [List.append_nil] at overwritten

theorem overwritten_of_replaceOrInsert {prepared : Filter × Record} {result : Except DaoError Nat}
    (ready : dao.prepare storage object = .ok prepared)
    (conversed :
      (dao.replaceOrInsert context storage prepared.1 prepared.2).Converses exchanges result) :
    dao.Overwritten storage prepared.1 prepared.2 exchanges := by
  obtain ⟨before, rest, replaced, rfl, began, ended⟩ := converses_replaceOrInsert conversed
  have replacing := dao.prepared_replacing storage context object ready began
  refine overwritten_of_replacing replacing fun sent member => ?_
  rcases ended with rfl | ⟨_, inserted, rfl, inserts⟩
  · cases member
  · exact List.mem_singleton.mp member ▸ inserts_isInsert inserts

/-- Updating and saving work in transactions. Each update that is sent assigns every column of the
row once and has the key filter alone as its condition; none is sent once the query for the record
finds nothing. Updating sends no insert, and saving inserts the row of the object only at the end,
behind a replacement in the same transaction that affected no row. -/
theorem whole_rows_replaced :
    ((dao.update context storage object).run.Transacts fun exchanges =>
      ∃ key row, dao.prepare storage object = .ok (key, row) ∧ dao.RowOf storage object row ∧
        dao.Overwritten storage key row exchanges ∧ ∀ sent ∈ exchanges, ¬ IsInsert sent) ∧
    (dao.save context storage object).run.Transacts fun exchanges =>
      ∃ key row, dao.prepare storage object = .ok (key, row) ∧ dao.RowOf storage object row ∧
        dao.Overwritten storage key row exchanges ∧
        ∀ sent ∈ exchanges, IsInsert sent → dao.Inserts storage row sent ∧
          ∃ before, exchanges = before ++ [sent] ∧
            (dao.replace context storage key row).Converses before (.ok 0) := by
  constructor
  · refine transacts_ofExcept_bind fun ⟨key, row⟩ ready => transacts_inTransaction ?_
    intro exchanges result conversed
    exact ⟨key, row, ready, dao.prepare_rowOf storage object ready,
      dao.overwritten_of_replace storage context object ready conversed,
      not_isInsert_of_replacing (dao.prepared_replacing storage context object ready conversed)⟩
  · refine transacts_ofExcept_bind fun ⟨key, row⟩ ready => transacts_inTransaction ?_
    intro exchanges result conversed
    refine ⟨key, row, ready, dao.prepare_rowOf storage object ready,
      dao.overwritten_of_replaceOrInsert storage context object ready conversed,
      fun sent member insert => ?_⟩
    obtain ⟨before, rest, replaced, rfl, began, ended⟩ := converses_replaceOrInsert conversed
    rcases List.mem_append.mp member with first | last
    · have replacing := dao.prepared_replacing storage context object ready began
      exact (not_isInsert_of_replacing replacing sent first insert).elim
    · rcases ended with rfl | ⟨rfl, inserted, rfl, inserts⟩
      · cases last
      · rw [List.mem_singleton.mp last]
        exact ⟨inserts, before, rfl, began⟩

theorem found_of_overwritten {key : Filter} {row : Record}
    (overwritten : dao.Overwritten storage key row exchanges)
    (updated : ∃ sent ∈ exchanges, IsUpdate sent) : Found exchanges := by
  obtain ⟨sent, member, update⟩ := updated
  exact fun query inside asked missing =>
    overwritten.found query inside asked missing sent member update

/-- Where there is a column to write, the update is really sent, unless the query for the record
comes back without it. -/
theorem update_is_sent {key : Filter} {row : Record}
    (ready : dao.prepare storage object = .ok (key, row)) (filled : row ≠ []) :
    ((dao.update context storage object).run.Transacts fun exchanges =>
      (∃ sent ∈ exchanges, IsUpdate sent) ↔ Found exchanges) ∧
    (dao.save context storage object).run.Transacts fun exchanges =>
      (∃ sent ∈ exchanges, IsUpdate sent) ↔ Found exchanges := by
  have valid := keyFilter_valid storage (dao.prepare_parts storage ready).1
  constructor
  · refine transacts_ofExcept_bind fun prepared same => transacts_inTransaction ?_
    cases ready.symm.trans same
    intro exchanges result conversed
    have overwritten := dao.overwritten_of_replace storage context object ready conversed
    exact ⟨dao.found_of_overwritten storage overwritten,
      fun found => updates_of_found valid found filled conversed⟩
  · refine transacts_ofExcept_bind fun prepared same => transacts_inTransaction ?_
    cases ready.symm.trans same
    intro exchanges result conversed
    have overwritten := dao.overwritten_of_replaceOrInsert storage context object ready conversed
    refine ⟨dao.found_of_overwritten storage overwritten, fun found => ?_⟩
    obtain ⟨before, rest, _, rfl, began, _⟩ := converses_replaceOrInsert conversed
    have asked : Found before := fun query member => found query (List.mem_append_left _ member)
    obtain ⟨sent, member, update⟩ := updates_of_found valid asked filled began
    exact ⟨sent, List.mem_append_left _ member, update⟩

/-- The column that the object lacks becomes null. -/
example :
    let dao : RelationalDao :=
      { flavor := .postgreSql, key := PrimaryKey.filter { fields := ["id"] } }
    let object : BusinessObject := { root := .map [("id", .string "1")] }
    let existing : Record := [("id", .string "1"), ("note", .string "old")]
    ((dao.update .background "item" object).on scripted
        { store := { rows := [.ok [.ok existing]] } }).2.store.log =
      [.begin .snapshot,
        .query "SELECT * FROM \"item\" WHERE \"id\" = $1 LIMIT 1 OFFSET 0" [.string "1"],
        .execute "UPDATE \"item\" SET \"id\" = $1, \"note\" = $2 WHERE \"id\" = $3"
          [.string "1", .null, .string "1"],
        .commit] := rfl

end RelationalDao

end DataAccess
