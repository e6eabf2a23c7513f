import DataAccess.Proofs.Sql.Binding

namespace DataAccess.Sql

open Statement

variable {condition projection statement : Statement} {pairs : List (String × Value)}
variable {filter : Filter} {members : List Filter} {statements : List Statement}

theorem conditions_forall₂ {related : Filter → Statement → Prop}
    (each : ∀ member ∈ members, ∀ {statement}, Sql.condition member = .ok statement →
      related member statement)
    (compiled : conditions members = .ok statements) :
    List.Forall₂ related members statements := by
  induction members generalizing statements with
  | nil => cases compiled; exact .nil
  | cons member rest ih =>
      rw [conditions] at compiled
      obtain ⟨first, ofFirst, compiled⟩ := bind_eq_ok.mp compiled
      obtain ⟨others, ofRest, same⟩ := bind_eq_ok.mp compiled
      rw [← pure_eq_ok.mp same]
      exact .cons (each member (by simp) ofFirst)
        (ih (fun other inRest => each other (by simp [inRest])) ofRest)

theorem gap_operator (op : Comparison) : Gap (" " ++ op.symbol ++ " ") := by
  cases op <;> decide

theorem binds_group {separator : String} (gap : Gap separator)
    (each : List.Forall₂ (fun member statement => Binds statement member.literals)
      members statements) :
    Binds (.text "(" :: (separated separator statements ++ [.text ")"]))
      (members.flatMap Filter.literals) := by
  have closed : Binds [.text ")"] [] := binds_text (by decide) binds_nil
  have inside := binds_append (binds_separated gap each) closed (delimits_of_gap (by decide) _)
  rw [List.append_nil] at inside
  exact binds_text (by decide) inside

theorem binds_condition (compiled : Sql.condition filter = .ok statement) :
    Binds statement filter.literals := by
  induction filter using Filter.nested_induction generalizing statement with
  | compare field op value =>
      cases compiled
      have gap := gap_operator op
      exact ⟨⟨delimits_of_gap gap _, gap.free, trivial, trivial⟩, fun _ => rfl⟩
  | compareFields left op right =>
      cases compiled
      have gap := gap_operator op
      exact ⟨⟨delimits_of_gap gap _, gap.free, trivial, trivial⟩, fun _ => rfl⟩
  | isNull field =>
      cases compiled
      have gap : Gap " IS NULL" := by decide
      exact ⟨⟨delimits_of_gap gap _, gap.free, trivial⟩, fun _ => rfl⟩
  | isNotNull field =>
      cases compiled
      have gap : Gap " IS NOT NULL" := by decide
      exact ⟨⟨delimits_of_gap gap _, gap.free, trivial⟩, fun _ => rfl⟩
  | allOf members ih =>
      rw [Sql.condition] at compiled
      obtain ⟨_, _, compiled⟩ := bind_eq_ok.mp compiled
      obtain ⟨statements, ofMembers, same⟩ := bind_eq_ok.mp compiled
      rw [← pure_eq_ok.mp same, Filter.literals_allOf]
      exact binds_group (by decide) (conditions_forall₂ ih ofMembers)
  | anyOf members ih =>
      rw [Sql.condition] at compiled
      obtain ⟨_, _, compiled⟩ := bind_eq_ok.mp compiled
      obtain ⟨statements, ofMembers, same⟩ := bind_eq_ok.mp compiled
      rw [← pure_eq_ok.mp same, Filter.literals_anyOf]
      exact binds_group (by decide) (conditions_forall₂ ih ofMembers)

theorem delimits_whereClause (condition : Statement) : Delimits (whereClause condition) := by
  unfold whereClause
  split
  · trivial
  · exact delimits_of_gap (by decide) _

theorem binds_whereClause (binds : Binds condition pairs) : Binds (whereClause condition) pairs := by
  unfold whereClause
  split
  · rename_i empty
    rwa [List.isEmpty_iff.mp empty] at binds
  · exact binds_text (by decide) binds

theorem binds_separated_nil {separator : String} (gap : Gap separator)
    (each : ∀ statement ∈ statements, Binds statement []) :
    Binds (separated separator statements) [] := by
  have none : statements.flatMap (fun _ => ([] : List (String × Value))) = [] :=
    List.flatMap_eq_nil_iff.mpr fun _ _ => rfl
  rw [← none]
  exact binds_separated gap (List.forall₂_same.mpr each)

theorem binds_identifiers (names : List String) : Binds (identifiers names) [] := by
  refine binds_separated_nil (by decide) fun statement member => ?_
  obtain ⟨name, _, rfl⟩ := List.mem_map.mp member
  exact binds_identifier trivial binds_nil

theorem names_identifiers (columns : List String) : names (identifiers columns) = columns := by
  rw [identifiers, names_separated, List.flatMap_map]
  exact List.flatMap_singleton' columns

theorem parameters_identifiers (columns : List String) : parameters (identifiers columns) = [] := by
  rw [identifiers, parameters_separated, List.flatMap_map]
  simp [parameters]

theorem delimits_sortClause (sorting : Sorting) : Delimits (sortClause sorting) := by
  cases sorting with
  | nil => trivial
  | cons key rest => exact delimits_of_gap (by decide) _

theorem binds_sortClause (sorting : Sorting) : Binds (sortClause sorting) [] := by
  cases sorting with
  | nil => exact binds_nil
  | cons key rest =>
      refine binds_text (by decide) (binds_separated_nil (by decide) fun statement member => ?_)
      obtain ⟨key, _, rfl⟩ := List.mem_map.mp member
      have direction : Gap (if key.descending then " DESC" else " ASC") := by
        cases key.descending <;> decide
      exact binds_identifier (delimits_of_gap direction _) (binds_text direction.free binds_nil)

theorem paging_cases (flavor : Flavor) (offset limit : Nat) (sorted : Bool) :
    flavor.paging offset limit sorted = "" ∨ Gap (flavor.paging offset limit sorted) := by
  have number (n : Nat) {text : String} (gap : Gap text) : Gap (text ++ toString n) :=
    gap_append gap (free_number n)
  have limited : Gap (" LIMIT " ++ toString limit ++ " OFFSET " ++ toString offset) :=
    number offset (gap_append (number limit (by decide)) (by decide))
  have fetched {order : String} (gap : Gap (order ++ " OFFSET ")) :
      Gap (order ++ " OFFSET " ++ toString offset ++ " ROWS" ++
        (if limit = 0 then "" else " FETCH NEXT " ++ toString limit ++ " ROWS ONLY")) := by
    refine gap_append (gap_append (number offset gap) (by decide)) ?_
    split
    · decide
    · exact free_append (free_append (by decide) (free_number limit)) (by decide)
  by_cases whole : offset = 0 ∧ limit = 0
  · exact .inl (if_pos whole)
  · right
    simp only [Flavor.paging, whole, ↓reduceIte]
    cases flavor with
    | sqlite =>
        dsimp only
        split
        · exact number offset (by decide)
        · exact limited
    | mySql =>
        dsimp only
        split
        · exact gap_append (number offset (by decide)) (by decide)
        · exact limited
    | postgreSql =>
        dsimp only
        split
        · exact number offset (by decide)
        · exact limited
    | msSql => cases sorted <;> exact fetched (by decide)
    | oracle => exact @fetched "" (by decide)

theorem binds_paging (flavor : Flavor) (offset limit : Nat) (sorted : Bool) :
    Binds [.text (flavor.paging offset limit sorted)] [] ∧
      Delimits [.text (flavor.paging offset limit sorted)] := by
  rcases paging_cases flavor offset limit sorted with none | gap
  · rw [none]
    exact ⟨binds_text (by decide) binds_nil, fun _ => trivial, by simp⟩
  · exact ⟨binds_text gap.free binds_nil, delimits_of_gap gap []⟩

theorem binds_select (flavor : Flavor) (table : String) (sorting : Sorting) (offset limit : Nat)
    (ofProjection : Binds projection []) (ofCondition : Binds condition pairs) :
    Binds (select flavor projection table condition sorting offset limit) pairs := by
  obtain ⟨ofPage, delimitsPage⟩ := binds_paging flavor offset limit (!sorting.isEmpty)
  have ordered := binds_append (binds_whereClause ofCondition) (binds_sortClause sorting)
    (delimits_sortClause sorting)
  have paged := binds_append ordered ofPage delimitsPage
  have delimits := delimits_append
    (delimits_append (delimits_whereClause condition) (delimits_sortClause sorting)) delimitsPage
  have gap : Gap " FROM " := by decide
  have source := binds_text gap.free (@binds_identifier _ _ table delimits paged)
  have whole := binds_append ofProjection source (delimits_of_gap gap _)
  rw [List.nil_append, List.append_nil, List.append_nil] at whole
  exact binds_text (by decide) whole

theorem binds_update (table : String) (row : Record) (ofCondition : Binds condition pairs) :
    Binds (update table row condition) (row ++ pairs) := by
  have each : List.Forall₂ (fun entry statement => Binds statement [entry]) row
      (row.map fun entry => [.identifier entry.1, .text " = ", .value entry.2]) := by
    rw [List.forall₂_map_right_iff, List.forall₂_same]
    intro entry _
    have gap : Gap " = " := by decide
    exact ⟨⟨delimits_of_gap gap _, gap.free, trivial, trivial⟩, fun _ => rfl⟩
  have comma : Gap ", " := by decide
  have assigned := binds_separated comma each
  rw [List.flatMap_singleton' row] at assigned
  have whole := binds_append assigned (binds_whereClause ofCondition)
    (delimits_whereClause condition)
  exact binds_text (by decide) (binds_identifier (delimits_of_gap (by decide) _)
    (binds_text (by decide) whole))

/-- The parameters of an update's condition are numbered behind those of its row. -/
theorem render_update (flavor : Flavor) (table : String) (row : Record) (condition : Statement) :
    (update table row condition).render flavor 1 =
      (update table row []).render flavor 1 ++
        (whereClause condition).render flavor (row.length + 1) := by
  have split : update table row condition = update table row [] ++ whereClause condition := by
    simp [update, whereClause]
  have assigned := (binds_update table row binds_nil).paired ""
  rw [split, render_append, parameters_eq "", assigned, List.append_nil, List.length_map,
    Nat.add_comm 1]

theorem binds_delete (table : String) (ofCondition : Binds condition pairs) :
    Binds (delete table condition) pairs :=
  binds_text (by decide) (binds_identifier (delimits_whereClause condition)
    (binds_whereClause ofCondition))

theorem spaced_insert (table : String) (row : Record) : Spaced (insert table row) := by
  have values : Spaced (separated ", " ((Dict.values row).map fun value => [.value value])) := by
    refine spaced_separated (by decide) fun statement member => ?_
    obtain ⟨value, _, rfl⟩ := List.mem_map.mp member
    exact ⟨trivial, trivial⟩
  have closing : Gap ")" := by decide
  have closed := spaced_append values (@spaced_text [] _ closing.free trivial)
    (delimits_of_gap closing [])
  have keyword : Gap ") VALUES (" := by decide
  have columns := spaced_append (binds_identifiers (Dict.keys row)).spaced
    (spaced_text keyword.free closed) (delimits_of_gap keyword _)
  exact ⟨by decide, delimits_of_gap (by decide) _, by decide, columns⟩

theorem names_insert (table : String) (row : Record) :
    names (insert table row) = table :: Dict.keys row := by
  simp [insert, names, names_append, names_identifiers, names_separated, List.flatMap_map]

theorem parameters_insert (table : String) (row : Record) :
    parameters (insert table row) = Dict.values row := by
  simp [insert, parameters, parameters_append, parameters_identifiers, parameters_separated,
    List.flatMap_map]

theorem aligned_insert (flavor : Flavor) (table : String) (row : Record) :
    Aligned flavor ((insert table row).sql flavor) (insert table row).parameters row where
  numbered := marks_sql flavor (spaced_insert table row)
  placed := by
    have isInsert : ("INSERT ".toList.map .char).isPrefixOf
        (lexemes flavor 1 (insert table row)) = true := rfl
    rw [lexemes_sql flavor (spaced_insert table row), Lexeme.columns, if_pos isInsert,
      names_lexemes, names_insert]
    rfl
  passed := parameters_insert table row

theorem aligned_select (flavor : Flavor) (table : String) (sorting : Sorting) (offset limit : Nat)
    (ofProjection : Binds projection []) (ofCondition : Binds condition pairs) :
    Aligned flavor
      ((select flavor projection table condition sorting offset limit).sql flavor)
      (select flavor projection table condition sorting offset limit).parameters pairs :=
  aligned_of_binds flavor (binds_select flavor table sorting offset limit ofProjection ofCondition)
    rfl

theorem aligned_update (flavor : Flavor) (table : String) (row : Record)
    (ofCondition : Binds condition pairs) :
    Aligned flavor ((update table row condition).sql flavor)
      (update table row condition).parameters (row ++ pairs) :=
  aligned_of_binds flavor (binds_update table row ofCondition) rfl

example :
    (update "people" [("na\"me", .null), ("$1", .null)]
      [.identifier "id", .text " = ", .value .null]).sql .postgreSql =
        "UPDATE \"people\" SET \"na\"\"me\" = $1, \"$1\" = $2 WHERE \"id\" = $3" := by
  decide

theorem aligned_delete (flavor : Flavor) (table : String) (ofCondition : Binds condition pairs) :
    Aligned flavor ((delete table condition).sql flavor) (delete table condition).parameters pairs :=
  aligned_of_binds flavor (binds_delete table ofCondition) rfl

end DataAccess.Sql
