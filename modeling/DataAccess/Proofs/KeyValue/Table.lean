import DataAccess.KeyValue.Store

namespace DataAccess.KeyValue

theorem keyOrder_eq_compare (left right : Key) : keyOrder left right = compare left right := by
  induction left generalizing right with
  | nil => cases right <;> rfl
  | cons x xs ih =>
      cases right with
      | nil => rfl
      | cons y ys => rw [keyOrder, List.compare_cons_cons, ih]

theorem keyOrder_eq_iff {left right : Key} : keyOrder left right = .eq ↔ left = right := by
  rw [keyOrder_eq_compare]
  exact Std.LawfulEqCmp.compare_eq_iff_eq

theorem keyOrder_gt_iff {left right : Key} :
    keyOrder left right = .gt ↔ keyOrder right left = .lt := by
  rw [keyOrder_eq_compare, keyOrder_eq_compare]
  exact Std.OrientedCmp.gt_iff_lt

theorem keyOrder_lt_trans {first second third : Key} (before : keyOrder first second = .lt)
    (after : keyOrder second third = .lt) : keyOrder first third = .lt := by
  rw [keyOrder_eq_compare] at before after ⊢
  exact Std.TransCmp.lt_trans before after

theorem ne_of_keyOrder_lt {left right : Key} (before : keyOrder left right = .lt) :
    right ≠ left := by
  rintro rfl
  rw [keyOrder_eq_iff.mpr rfl] at before
  cases before

namespace Table

/-- The items stand in the order of their keys, which are distinct. -/
def Sorted (items : List (Key × Record)) : Prop :=
  items.Pairwise fun first second => keyOrder first.1 second.1 = .lt

variable {items : List (Key × Record)} {entry : Key × Record} {key : Key} {item : Record}
variable {table : Table}

theorem Sorted.nodup (sorted : Sorted items) : items.Nodup := by
  refine List.nodup_iff_pairwise_ne.mpr (List.Pairwise.imp ?_ sorted)
  rintro first second before rfl
  exact ne_of_keyOrder_lt before rfl

theorem mem_putItem (sorted : Sorted items) :
    entry ∈ putItem key item items ↔ entry = (key, item) ∨ entry ∈ items ∧ entry.1 ≠ key := by
  induction items with
  | nil => simp [putItem]
  | cons first rest ih =>
      obtain ⟨other, old⟩ := first
      obtain ⟨before, sortedRest⟩ := List.pairwise_cons.mp sorted
      cases order : keyOrder key other with
      | lt =>
          have elsewhere : entry ∈ (other, old) :: rest → entry.1 ≠ key := by
            intro member
            rcases List.mem_cons.mp member with rfl | later
            · exact ne_of_keyOrder_lt order
            · exact ne_of_keyOrder_lt (keyOrder_lt_trans order (before entry later))
          simp only [putItem, order, List.mem_cons (a := entry) (b := (key, item))]
          exact or_congr_right (and_iff_left_of_imp elsewhere).symm
      | eq =>
          obtain rfl := keyOrder_eq_iff.mp order
          have elsewhere : entry ∈ rest → entry.1 ≠ key := fun later =>
            ne_of_keyOrder_lt (before entry later)
          simp only [putItem, order, List.mem_cons]
          refine or_congr_right ⟨fun later => ⟨.inr later, elsewhere later⟩, ?_⟩
          rintro ⟨rfl | later, different⟩
          · exact (different rfl).elim
          · exact later
      | gt =>
          have different : other ≠ key := (ne_of_keyOrder_lt (keyOrder_gt_iff.mp order)).symm
          simp only [putItem, order, List.mem_cons, ih sortedRest]
          constructor
          · rintro (rfl | rfl | ⟨later, elsewhere⟩)
            · exact .inr ⟨.inl rfl, different⟩
            · exact .inl rfl
            · exact .inr ⟨.inr later, elsewhere⟩
          · rintro (rfl | ⟨rfl | later, elsewhere⟩)
            · exact .inr (.inl rfl)
            · exact .inl rfl
            · exact .inr (.inr ⟨later, elsewhere⟩)

theorem sorted_putItem (sorted : Sorted items) : Sorted (putItem key item items) := by
  induction items with
  | nil => exact List.pairwise_singleton _ _
  | cons first rest ih =>
      obtain ⟨other, old⟩ := first
      obtain ⟨before, sortedRest⟩ := List.pairwise_cons.mp sorted
      cases order : keyOrder key other with
      | lt =>
          simp only [putItem, order]
          refine List.pairwise_cons.mpr ⟨?_, sorted⟩
          intro later member
          rcases List.mem_cons.mp member with rfl | member
          · exact order
          · exact keyOrder_lt_trans order (before later member)
      | eq =>
          obtain rfl := keyOrder_eq_iff.mp order
          simp only [putItem, order]
          exact List.pairwise_cons.mpr ⟨before, sortedRest⟩
      | gt =>
          simp only [putItem, order]
          refine List.pairwise_cons.mpr ⟨?_, ih sortedRest⟩
          intro later member
          rcases (mem_putItem sortedRest).mp member with rfl | ⟨member, _⟩
          · exact keyOrder_gt_iff.mp order
          · exact before later member

theorem get?_eq_some_iff (sorted : Sorted table.items) :
    table.get? key = some item ↔ (key, item) ∈ table.items := by
  obtain ⟨spec, items⟩ := table
  simp only [get?] at sorted ⊢
  induction items with
  | nil => simp
  | cons first rest ih =>
      obtain ⟨other, old⟩ := first
      obtain ⟨before, sortedRest⟩ := List.pairwise_cons.mp sorted
      rw [List.lookup_cons]
      by_cases same : key = other
      · subst same
        have elsewhere : (key, item) ∉ rest := fun later =>
          ne_of_keyOrder_lt (before _ later) rfl
        simp [elsewhere, eq_comm]
      · simp [beq_eq_false_iff_ne.mpr same, same, ih sortedRest]

theorem mem_erase : entry ∈ (table.erase key).items ↔ entry ∈ table.items ∧ entry.1 ≠ key := by
  simp [erase]

theorem sorted_erase (sorted : Sorted table.items) : Sorted (table.erase key).items :=
  sorted.filter _

theorem mem_scan {condition : Condition} :
    item ∈ table.scan (some condition) ↔
      (∃ key, (key, item) ∈ table.items) ∧ condition.evaluate item = true := by
  simp [scan]

end Table

end DataAccess.KeyValue
