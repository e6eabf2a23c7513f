import DataAccess.Proofs.Dict
import DataAccess.Value.Field
import DataAccess.Value.Order
import Mathlib.Data.List.Perm.Subperm

namespace DataAccess.Value

theorem isNull_iff {value : Value} : value.isNull = true ↔ value = .null := by
  cases value <;> simp [isNull]

/-- Induction over values, with a hypothesis for every item and every entry. -/
@[elab_as_elim]
theorem nested_induction {motive : Value → Prop} (null : motive .null)
    (bool : ∀ b, motive (.bool b)) (number : ∀ n, motive (.number n))
    (string : ∀ s, motive (.string s))
    (sequence : ∀ items, (∀ item ∈ items, motive item) → motive (.sequence items))
    (map : ∀ fields, (∀ entry ∈ fields, motive entry.2) → motive (.map fields))
    (value : Value) : motive value := by
  refine @Value.rec motive (fun items => ∀ item ∈ items, motive item)
    (fun fields => ∀ entry ∈ fields, motive entry.2) (fun entry => motive entry.2)
    null bool number string sequence map ?_ ?_ ?_ ?_ ?_ value
  · simp
  · intro item rest ofItem ofRest
    simpa using ⟨ofItem, ofRest⟩
  · simp
  · intro entry rest ofEntry ofRest
    simpa using ⟨ofEntry, fun key value => ofRest (key, value)⟩
  · intro _ value ofValue
    exact ofValue

theorem wellFormedItems_iff {items : List Value} :
    WellFormedItems items ↔ ∀ item ∈ items, item.WellFormed := by
  induction items with
  | nil => simp [WellFormedItems]
  | cons item rest ih => simp [WellFormedItems, ih]

theorem wellFormedFields_iff {fields : Record} :
    WellFormedFields fields ↔ ∀ entry ∈ fields, entry.2.WellFormed := by
  induction fields with
  | nil => simp [WellFormedFields]
  | cons entry rest ih =>
      obtain ⟨key, value⟩ := entry
      simp [WellFormedFields, ih]

theorem wellFormed_sequence {items : List Value} :
    (Value.sequence items).WellFormed ↔ ∀ item ∈ items, item.WellFormed :=
  wellFormedItems_iff

theorem wellFormed_map {fields : Record} :
    (Value.map fields).WellFormed ↔
      Dict.Distinct fields ∧ ∀ entry ∈ fields, entry.2.WellFormed :=
  and_congr_right fun _ => wellFormedFields_iff

theorem sameItems_comm {xs ys : List Value}
    (comm : ∀ x ∈ xs, ∀ y ∈ ys, same x y = same y x) : sameItems xs ys = sameItems ys xs := by
  induction xs generalizing ys with
  | nil => cases ys <;> rfl
  | cons x xs ih =>
      cases ys with
      | nil => rfl
      | cons y ys =>
          have tail := ih fun x atX y atY =>
            comm x (List.mem_cons_of_mem _ atX) y (List.mem_cons_of_mem _ atY)
          simp only [sameItems, tail, comm x (by simp) y (by simp)]

theorem sameFields_iff {xs ys : Record} :
    sameFields xs ys = true ↔
      ∀ entry ∈ xs, ∃ y, Dict.get? ys entry.1 = some y ∧ same entry.2 y = true := by
  induction xs with
  | nil => simp [sameFields]
  | cons entry xs ih =>
      obtain ⟨key, x⟩ := entry
      cases found : Dict.get? ys key <;> simp [sameFields, found, ih]

/-- Of two equally large maps, the one whose keys are all in the other has all keys of the other. -/
theorem keys_subset_of_sameFields {xs ys : Record} (distinct : Dict.Distinct xs)
    (length : xs.length = ys.length) (same : sameFields xs ys = true) :
    Dict.keys ys ⊆ Dict.keys xs := by
  have included : Dict.keys xs ⊆ Dict.keys ys := by
    intro key member
    obtain ⟨entry, atEntry, rfl⟩ := List.mem_map.mp member
    obtain ⟨y, found, _⟩ := sameFields_iff.mp same entry atEntry
    exact Dict.mem_keys_of_mem (Dict.mem_of_get? found)
  have perm := (List.subperm_of_subset distinct included).perm_of_length_le
    (by simp [Dict.keys, length])
  exact perm.symm.subset

theorem sameFields_flip {xs ys : Record} (distinctXs : Dict.Distinct xs)
    (distinctYs : Dict.Distinct ys) (length : xs.length = ys.length)
    (comm : ∀ entry ∈ xs, ∀ other ∈ ys, same entry.2 other.2 = same other.2 entry.2)
    (same : sameFields xs ys = true) : sameFields ys xs = true := by
  rw [sameFields_iff]
  intro other atOther
  have listed : other.1 ∈ Dict.keys ys := List.mem_map_of_mem atOther
  have shared := keys_subset_of_sameFields distinctXs length same listed
  obtain ⟨entry, atEntry, keyEq⟩ := List.mem_map.mp shared
  obtain ⟨y, found, equal⟩ := sameFields_iff.mp same entry atEntry
  have value : y = other.2 := by
    rw [keyEq, Dict.get?_of_mem distinctYs atOther] at found
    exact (Option.some.inj found).symm
  refine ⟨entry.2, ?_, ?_⟩
  · rw [← keyEq]
    exact Dict.get?_of_mem distinctXs atEntry
  · rw [← comm entry atEntry other atOther, ← value]
    exact equal

theorem same_comm {x y : Value} (wellX : x.WellFormed) (wellY : y.WellFormed) :
    x.same y = y.same x := by
  induction x using nested_induction generalizing y with
  | null => cases y <;> simp [same]
  | bool b => cases y <;> simp [same, Bool.beq_comm]
  | number m =>
      cases y with
      | number n => cases m <;> cases n <;> simp [same, Number.same, Bool.beq_comm]
      | _ => simp [same]
  | string s => cases y <;> simp [same, Bool.beq_comm]
  | sequence xs ih =>
      cases y with
      | sequence ys =>
          rw [wellFormed_sequence] at wellX wellY
          simp only [same]
          exact sameItems_comm fun x atX y atY => ih x atX (wellX x atX) (wellY y atY)
      | _ => simp [same]
  | map xs ih =>
      cases y with
      | map ys =>
          rw [wellFormed_map] at wellX wellY
          have comm : ∀ entry ∈ xs, ∀ other ∈ ys,
              same entry.2 other.2 = same other.2 entry.2 := fun entry atEntry other atOther =>
            ih entry atEntry (wellX.2 entry atEntry) (wellY.2 other atOther)
          rw [Bool.eq_iff_iff]
          simp only [same, Bool.and_eq_true, beq_iff_eq]
          constructor
          · rintro ⟨length, equal⟩
            exact ⟨length.symm, sameFields_flip wellX.1 wellY.1 length comm equal⟩
          · rintro ⟨length, equal⟩
            refine ⟨length.symm, sameFields_flip wellY.1 wellX.1 length ?_ equal⟩
            exact fun other atOther entry atEntry => (comm entry atEntry other atOther).symm
      | _ => simp [same]

theorem sameItems_refl {items : List Value} (refl : ∀ item ∈ items, same item item = true) :
    sameItems items items = true := by
  induction items with
  | nil => rfl
  | cons item rest ih =>
      have tail := ih fun other later => refl other (List.mem_cons_of_mem _ later)
      simp only [sameItems, refl item List.mem_cons_self, tail, Bool.and_self]

theorem same_refl {x : Value} (well : x.WellFormed) : x.same x = true := by
  induction x using nested_induction with
  | null => rfl
  | bool b => simp [same]
  | number n => cases n <;> simp [same, Number.same]
  | string s => simp [same]
  | sequence items ih =>
      rw [wellFormed_sequence] at well
      simp only [same]
      exact sameItems_refl fun item member => ih item member (well item member)
  | map fields ih =>
      rw [wellFormed_map] at well
      simp only [same, BEq.rfl, Bool.true_and, sameFields_iff]
      intro entry member
      exact ⟨entry.2, Dict.get?_of_mem well.1 member, ih entry member (well.2 entry member)⟩

/-- The order of entries does not count. -/
theorem same_of_perm {xs ys : Record} (well : (Value.map ys).WellFormed) (perm : xs.Perm ys) :
    (Value.map xs).same (.map ys) = true := by
  obtain ⟨distinct, each⟩ := wellFormed_map.mp well
  simp only [same, perm.length_eq, BEq.rfl, Bool.true_and, sameFields_iff]
  intro entry member
  have inSecond : entry ∈ ys := perm.mem_iff.mp member
  exact ⟨entry.2, Dict.get?_of_mem distinct inSecond, same_refl (each entry inSecond)⟩

theorem sameItems_trans {xs ys zs : List Value}
    (trans : ∀ x ∈ xs, ∀ y z, same x y = true → same y z = true → same x z = true)
    (first : sameItems xs ys = true) (second : sameItems ys zs = true) :
    sameItems xs zs = true := by
  induction xs generalizing ys zs with
  | nil =>
      cases ys with
      | nil => exact second
      | cons y ys => cases first
  | cons x xs ih =>
      cases ys with
      | nil => cases first
      | cons y ys =>
          cases zs with
          | nil => cases second
          | cons z zs =>
              simp only [sameItems, Bool.and_eq_true] at first second ⊢
              exact ⟨trans x List.mem_cons_self y z first.1 second.1,
                ih (fun other later => trans other (List.mem_cons_of_mem _ later)) first.2 second.2⟩

theorem same_trans {x y z : Value} (first : x.same y = true) (second : y.same z = true) :
    x.same z = true := by
  induction x using nested_induction generalizing y z with
  | null => cases y <;> first | exact second | cases first
  | bool b =>
      cases y with
      | bool c => exact eq_of_beq first ▸ second
      | _ => cases first
  | number m =>
      cases y with
      | number n =>
          cases z with
          | number k => cases m <;> cases n <;> cases k <;> simp_all [same, Number.same]
          | _ => cases second
      | _ => cases first
  | string s =>
      cases y with
      | string t => exact eq_of_beq first ▸ second
      | _ => cases first
  | sequence xs ih =>
      cases y with
      | sequence ys =>
          cases z with
          | sequence zs =>
              exact sameItems_trans (fun x member _ _ => ih x member) first second
          | _ => cases second
      | _ => cases first
  | map xs ih =>
      cases y with
      | map ys =>
          cases z with
          | map zs =>
              simp only [same, Bool.and_eq_true, beq_iff_eq, sameFields_iff] at first second ⊢
              refine ⟨first.1.trans second.1, ?_⟩
              intro entry member
              obtain ⟨y, inSecond, firstSame⟩ := first.2 entry member
              obtain ⟨z, inThird, secondSame⟩ := second.2 _ (Dict.mem_of_get? inSecond)
              exact ⟨z, inThird, ih entry member firstSame secondSame⟩
          | _ => cases second
      | _ => cases first

theorem number_order_swap (m n : Number) : n.order m = (m.order n).swap := by
  cases m <;> cases n <;> simp only [Number.order, Binary64.order] <;>
    exact Std.OrientedCmp.eq_swap

/-- Exchanging the sides of a comparison turns its answer round. -/
theorem compare?_swap {x y : Value} (wellX : x.WellFormed) (wellY : y.WellFormed) :
    y.compare? x = (x.compare? y).map Ordering.swap := by
  cases x with
  | null => cases y <;> rfl
  | bool a =>
      cases y with
      | bool b => exact congrArg some Std.OrientedCmp.eq_swap
      | _ => rfl
  | number m =>
      cases y with
      | number n => exact congrArg some (number_order_swap m n)
      | _ => rfl
  | string s =>
      cases y with
      | string t => exact congrArg some Std.OrientedCmp.eq_swap
      | _ => rfl
  | sequence xs =>
      cases y with
      | sequence ys =>
          simp only [compare?, same_comm wellY wellX]
          split <;> rfl
      | _ => rfl
  | map xs =>
      cases y with
      | map ys =>
          simp only [compare?, same_comm wellY wellX]
          split <;> rfl
      | _ => rfl

theorem equal_comm {x y : Value} (wellX : x.WellFormed) (wellY : y.WellFormed) :
    x.equal y = y.equal x := by
  rw [equal, equal, compare?_swap wellX wellY]
  cases x.compare? y with
  | none => rfl
  | some order => cases order <;> rfl

theorem number_order_self (n : Number) : n.order n = .eq := by
  cases n <;> simp [Number.order, Binary64.order]

theorem equal_refl {x : Value} (well : x.WellFormed) : x.equal x = true := by
  have itself : x.compare? x = some .eq := by
    cases x with
    | null => rfl
    | bool b => simp [compare?]
    | number n => simp [compare?, number_order_self]
    | string s => simp [compare?]
    | sequence items => simp only [compare?, same_refl well, ↓reduceIte]
    | map fields => simp only [compare?, same_refl well, ↓reduceIte]
  simp [equal, itself]

/-- Two values that are there and are truth values, numbers or strings, both of one kind. -/
def Alike (left right : Option Value) : Prop :=
  ∃ x y, left = some x ∧ right = some y ∧ x.kind = y.kind ∧ x.kind ∈ [.bool, .number, .string]

theorem compare?_of_alike {left right : Option Value} (alike : Alike left right) :
    ∃ x y order, left = some x ∧ right = some y ∧ y.isNull = false ∧
      x.compare? y = some order := by
  obtain ⟨x, y, rfl, rfl, sameKind, scalar⟩ := alike
  cases x <;> cases y <;> simp_all [kind, compare?, isNull]

/-- Comparable values are sorted as they compare. -/
theorem totalOrder_of_compare? {x y : Value} {order : Ordering}
    (comparable : x.compare? y = some order) : totalOrder (some x) (some y) = order := by
  have sameRank : compare (rank (some x)) (rank (some y)) = .eq := by
    cases x <;> cases y <;> simp_all [compare?, rank]
  simp only [totalOrder, sameRank, comparable, Option.getD_some]

theorem equal_string (s t : String) : (Value.string s).equal (.string t) = (s == t) := by
  rw [Bool.eq_iff_iff]
  simp [equal, compare?]

/-- The values that make good keys: each is equal to itself alone. -/
def isKey : Value → Bool
  | .string _ => true
  | .number (.int _) => true
  | _ => false

theorem isKey_cases {x : Value} (key : x.isKey = true) :
    (∃ s, x = .string s) ∨ ∃ n, x = .number (.int n) := by
  cases x with
  | string s => exact .inl ⟨s, rfl⟩
  | number n =>
      cases n with
      | int n => exact .inr ⟨n, rfl⟩
      | float x => cases key
  | _ => cases key

theorem equal_iff_eq {x y : Value} (key : x.isKey = true) (otherKey : y.isKey = true) :
    x.equal y = true ↔ x = y := by
  rcases isKey_cases key with ⟨s, rfl⟩ | ⟨⟨m, _, _⟩, rfl⟩ <;>
    rcases isKey_cases otherKey with ⟨t, rfl⟩ | ⟨⟨n, _, _⟩, rfl⟩ <;>
    simp [equal, compare?, Number.order]

end DataAccess.Value

namespace DataAccess.Record

theorem wellFormed_part? {value found : Value} {name : String} (well : value.WellFormed)
    (located : part? value name = some found) : found.WellFormed := by
  cases value with
  | map fields => exact (Value.wellFormed_map.mp well).2 _ (Dict.mem_of_get? located)
  | sequence items =>
      simp only [part?] at located
      split at located
      · exact Value.wellFormed_sequence.mp well _ (List.mem_of_getElem? located)
      · cases located
  | _ => cases located

theorem wellFormed_descend {value found : Value} {parts : List String} (well : value.WellFormed)
    (located : descend value parts = some found) : found.WellFormed := by
  induction parts generalizing value with
  | nil => cases located; exact well
  | cons part rest ih =>
      obtain ⟨child, atChild, atRest⟩ := Option.bind_eq_some_iff.mp located
      exact ih (wellFormed_part? well atChild) atRest

theorem wellFormed_field? {record : Record} {name : String} {found : Value}
    (well : (Value.map record).WellFormed) (located : field? record name = some found) :
    found.WellFormed := by
  simp only [field?] at located
  split at located
  · rename_i value atKey
    cases located
    exact (Value.wellFormed_map.mp well).2 _ (Dict.mem_of_get? atKey)
  · exact wellFormed_descend well located

end DataAccess.Record
