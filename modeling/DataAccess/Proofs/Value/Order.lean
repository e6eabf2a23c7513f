import DataAccess.Proofs.Number
import DataAccess.Proofs.Value

/-!
# The order for sorting

Exchanging two values turns their order round, and mostly the order is transitive. It is not where a
value is equal to two others that are in an order of their own: a float is equal to every integer
that rounds to it, and a container to every other with the same entries, whose text may stand
elsewhere among the texts.
-/

namespace DataAccess.Number

/-- The signed count of units of the nearest binary64 number. -/
def signedUnits (n : Number) : Int := n.toBinary64.signedUnits

variable {m n k : Number}

theorem isLE_order_int {i j : WideInt} : (order (.int i) (.int j)).isLE = true ↔ i.val ≤ j.val :=
  Std.isLE_compare

theorem isLE_order_float {x : Binary64} :
    (m.order (.float x)).isLE = true ↔ m.signedUnits ≤ x.signedUnits := by
  cases m <;> exact Std.isLE_compare

theorem isLE_float_order {x : Binary64} :
    (order (.float x) m).isLE = true ↔ x.signedUnits ≤ m.signedUnits := by
  cases m <;> exact Std.isLE_compare

theorem signedUnits_le (ordered : (m.order n).isLE = true) : m.signedUnits ≤ n.signedUnits := by
  cases n with
  | float x => exact isLE_order_float.mp ordered
  | int j =>
      cases m with
      | float x => exact isLE_float_order.mp ordered
      | int i => exact WideInt.signedUnits_mono (isLE_order_int.mp ordered)

/-- Only two integers that round to one float are out of order with it between them. -/
theorem rounded_of_gt (first : (m.order n).isLE = true) (second : (n.order k).isLE = true)
    (third : m.order k = .gt) :
    ∃ i x j, m = .int i ∧ n = .float x ∧ k = .int j ∧ j.val < i.val ∧
      i.toBinary64.order x = .eq ∧ j.toBinary64.order x = .eq := by
  -- Rounding keeps the order, so only a comparison of two integers can tell more than the floats.
  have below : m.signedUnits ≤ n.signedUnits := signedUnits_le first
  have above : n.signedUnits ≤ k.signedUnits := signedUnits_le second
  have refused : ¬ (m.order k).isLE = true := fun ordered => Ordering.isLE_iff_ne_gt.mp ordered third
  cases k with
  | float y => exact absurd (isLE_order_float.mpr (Int.le_trans below above)) refused
  | int j =>
      cases m with
      | float y => exact absurd (isLE_float_order.mpr (Int.le_trans below above)) refused
      | int i =>
          have less : j.val < i.val := Int.not_le.mp (mt isLE_order_int.mpr refused)
          cases n with
          | int l =>
              have := isLE_order_int.mp first
              have := isLE_order_int.mp second
              omega
          | float x =>
              have rounded : j.toBinary64.signedUnits ≤ i.toBinary64.signedUnits :=
                WideInt.signedUnits_mono (Int.le_of_lt less)
              refine ⟨i, x, j, rfl, rfl, rfl, less, ?_, ?_⟩
              · exact Std.compare_eq_iff_eq.mpr (Int.le_antisymm below (Int.le_trans above rounded))
              · exact Std.compare_eq_iff_eq.mpr (Int.le_antisymm (Int.le_trans rounded below) above)

end DataAccess.Number

namespace DataAccess.Value

variable {a b c : Option Value} {x y z : Value}

theorem kind_eq_of_rank (alike : rank a = rank b) :
    (rank a = 0 ∧ rank b = 0) ∨ ∃ x y, a = some x ∧ b = some y ∧ x.kind = y.kind := by
  rcases a with _ | (_ | _ | _ | _ | _ | _) <;> rcases b with _ | (_ | _ | _ | _ | _ | _) <;>
    first
      | exact .inl ⟨rfl, rfl⟩
      | exact .inr ⟨_, _, rfl, rfl, rfl⟩
      | cases alike

theorem rank_eq_of_kind (alike : x.kind = y.kind) : rank (some x) = rank (some y) := by
  cases x <;> cases y <;> first | rfl | cases alike

theorem totalOrder_of_rank_lt (less : rank a < rank b) : totalOrder a b = .lt := by
  simp only [totalOrder, Std.compare_eq_lt.mpr less]

theorem totalOrder_of_rank_gt (greater : rank b < rank a) : totalOrder a b = .gt := by
  simp only [totalOrder, Std.compare_eq_gt.mpr greater]

theorem rank_eq_zero_iff : rank a = 0 ↔ a = none ∨ a = some .null := by
  rcases a with _ | (_ | _ | _ | _ | _ | _) <;> simp [rank]

theorem totalOrder_of_rank_zero (first : rank a = 0) (second : rank b = 0) :
    totalOrder a b = .eq := by
  rcases rank_eq_zero_iff.mp first with rfl | rfl <;>
    rcases rank_eq_zero_iff.mp second with rfl | rfl <;> rfl

theorem totalOrder_of_kind (alike : x.kind = y.kind) : totalOrder (some x) (some y) =
    (x.compare? y).getD (compare x.toJson y.toJson) := by
  simp only [totalOrder, rank_eq_of_kind alike, Std.compare_self]

theorem rank_le (ordered : (totalOrder a b).isLE = true) : rank a ≤ rank b := by
  rcases Nat.lt_or_ge (rank b) (rank a) with greater | ordered'
  · rw [totalOrder_of_rank_gt greater] at ordered
    cases ordered
  · exact ordered'

theorem totalOrder_number (m n : Number) :
    totalOrder (some (.number m)) (some (.number n)) = m.order n :=
  totalOrder_of_kind rfl

theorem totalOrder_string (s t : String) :
    totalOrder (some (.string s)) (some (.string t)) = compare s t :=
  totalOrder_of_kind rfl

theorem totalOrder_bool (p q : Bool) :
    totalOrder (some (.bool p)) (some (.bool q)) = compare p.toNat q.toNat :=
  totalOrder_of_kind rfl

def isContainer : Value → Bool
  | .sequence _ => true
  | .map _ => true
  | _ => false

theorem isContainer_eq_of_kind (alike : x.kind = y.kind) : x.isContainer = y.isContainer := by
  cases x <;> cases y <;> first | rfl | cases alike

theorem totalOrder_container (container : x.isContainer = true) (alike : x.kind = y.kind) :
    totalOrder (some x) (some y) = if x.same y then .eq else compare x.toJson y.toJson := by
  rw [totalOrder_of_kind alike]
  cases x with
  | sequence xs =>
      cases y with
      | sequence ys =>
          simp only [compare?]
          split <;> rfl
      | _ => cases alike
  | map xs =>
      cases y with
      | map ys =>
          simp only [compare?]
          split <;> rfl
      | _ => cases alike
  | _ => cases container

theorem totalOrder_swap (wellA : ∀ x ∈ a, x.WellFormed) (wellB : ∀ y ∈ b, y.WellFormed) :
    totalOrder b a = (totalOrder a b).swap := by
  rcases Nat.lt_trichotomy (rank a) (rank b) with less | alike | greater
  · rw [totalOrder_of_rank_lt less, totalOrder_of_rank_gt less]
    rfl
  · rcases kind_eq_of_rank alike with ⟨first, second⟩ | ⟨x, y, rfl, rfl, sameKind⟩
    · rw [totalOrder_of_rank_zero first second, totalOrder_of_rank_zero second first]
      rfl
    · rw [totalOrder_of_kind sameKind, totalOrder_of_kind sameKind.symm,
        compare?_swap (wellA x rfl) (wellB y rfl)]
      cases x.compare? y with
      | none =>
          simp only [Option.map_none, Option.getD_none]
          exact Std.OrientedCmp.eq_swap
      | some order => rfl
  · rw [totalOrder_of_rank_lt greater, totalOrder_of_rank_gt greater]
    rfl

/-- The first value is not after the second and the second not after the third, but the first is
after the third. -/
inductive OutOfOrder : Option Value → Option Value → Option Value → Prop
  /-- Two integers round to one float. -/
  | rounded {m n : WideInt} {x : Binary64} : n.val < m.val → m.toBinary64.order x = .eq →
      n.toBinary64.order x = .eq →
        OutOfOrder (some (.number (.int m))) (some (.number (.float x))) (some (.number (.int n)))
  /-- Of two equal containers, only the second has its text before the text of the third. -/
  | respelledFirst {x y z : Value} : y.isContainer = true → y.kind = z.kind → x.same y = true →
      y.same z = false → (compare y.toJson z.toJson).isLE = true →
      compare x.toJson z.toJson = .gt → OutOfOrder (some x) (some y) (some z)
  /-- Of two equal containers, only the first has its text after the text of the third. -/
  | respelledLast {x y z : Value} : y.isContainer = true → x.kind = y.kind → y.same z = true →
      x.same y = false → (compare x.toJson y.toJson).isLE = true →
      compare x.toJson z.toJson = .gt → OutOfOrder (some x) (some y) (some z)

theorem kind_eq_of_same (equal : x.same y = true) : x.kind = y.kind := by
  cases x <;> cases y <;> first | rfl | cases equal

theorem gt_of_outOfOrder (out : OutOfOrder a b c) (wellA : ∀ x ∈ a, x.WellFormed)
    (wellB : ∀ y ∈ b, y.WellFormed) (wellC : ∀ z ∈ c, z.WellFormed) :
    (totalOrder a b).isLE = true ∧ (totalOrder b c).isLE = true ∧ totalOrder a c = .gt := by
  cases out with
  | rounded less first second =>
      refine ⟨?_, ?_, ?_⟩
      · rw [totalOrder_number]
        exact Ordering.isLE_of_eq_eq first
      · rw [totalOrder_number, number_order_swap]
        exact (congrArg (fun order => order.swap.isLE) second).trans rfl
      · rw [totalOrder_number]
        exact Std.compare_eq_gt.mpr less
  | respelledFirst container alike equal different below above =>
      rename_i x y z
      have differs : x.same z = false := by
        rw [Bool.eq_false_iff] at different ⊢
        intro other
        rw [same_comm (wellA x rfl) (wellB y rfl)] at equal
        exact different (same_trans equal other)
      have sameKind := kind_eq_of_same equal
      have containerX : x.isContainer = true := isContainer_eq_of_kind sameKind ▸ container
      refine ⟨?_, ?_, ?_⟩
      · rw [totalOrder_container containerX sameKind, equal]
        rfl
      · rw [totalOrder_container container alike, different]
        exact below
      · rw [totalOrder_container containerX (sameKind.trans alike), differs]
        exact above
  | respelledLast container alike equal different below above =>
      rename_i x y z
      have differs : x.same z = false := by
        rw [Bool.eq_false_iff] at different ⊢
        intro other
        rw [same_comm (wellB y rfl) (wellC z rfl)] at equal
        exact different (same_trans other equal)
      have sameKind := kind_eq_of_same equal
      have containerX : x.isContainer = true := isContainer_eq_of_kind alike ▸ container
      refine ⟨?_, ?_, ?_⟩
      · rw [totalOrder_container containerX alike, different]
        exact below
      · rw [totalOrder_container container sameKind, equal]
        rfl
      · rw [totalOrder_container containerX (alike.trans sameKind), differs]
        exact above

theorem outOfOrder_of_containers (container : x.isContainer = true) (alikeXY : x.kind = y.kind)
    (alikeYZ : y.kind = z.kind) (first : (totalOrder (some x) (some y)).isLE = true)
    (second : (totalOrder (some y) (some z)).isLE = true)
    (third : totalOrder (some x) (some z) = .gt) : OutOfOrder (some x) (some y) (some z) := by
  have containerY : y.isContainer = true := isContainer_eq_of_kind alikeXY ▸ container
  rw [totalOrder_container container alikeXY] at first
  rw [totalOrder_container containerY alikeYZ] at second
  rw [totalOrder_container container (alikeXY.trans alikeYZ)] at third
  cases equalXZ : x.same z with
  | true => simp [equalXZ] at third
  | false =>
      rw [equalXZ] at third
      cases equalXY : x.same y with
      | true =>
          cases equalYZ : y.same z with
          | true => exact absurd (same_trans equalXY equalYZ) (by simp [equalXZ])
          | false =>
              rw [equalYZ] at second
              exact .respelledFirst containerY alikeYZ equalXY equalYZ second third
      | false =>
          rw [equalXY] at first
          cases equalYZ : y.same z with
          | true => exact .respelledLast containerY alikeXY equalYZ equalXY first third
          | false =>
              rw [equalYZ] at second
              have ordered : (compare x.toJson z.toJson).isLE = true :=
                Std.TransCmp.isLE_trans first second
              exact absurd third (Ordering.isLE_iff_ne_gt.mp ordered)

theorem outOfOrder_of_gt (first : (totalOrder a b).isLE = true)
    (second : (totalOrder b c).isLE = true) (third : totalOrder a c = .gt) : OutOfOrder a b c := by
  -- The ranks go up and come back down, so all three are one.
  have below : rank a ≤ rank b := rank_le first
  have between : rank b ≤ rank c := rank_le second
  have above : rank c ≤ rank a := by
    rcases Nat.lt_or_ge (rank a) (rank c) with less | above
    · rw [totalOrder_of_rank_lt less] at third
      cases third
    · exact above
  rcases kind_eq_of_rank (Nat.le_antisymm below (Nat.le_trans between above)) with
    ⟨absentA, _⟩ | ⟨x, y, rfl, rfl, alikeXY⟩
  · rw [totalOrder_of_rank_zero absentA (by omega)] at third
    cases third
  rcases kind_eq_of_rank (Nat.le_antisymm between (Nat.le_trans above below)) with
    ⟨_, absentC⟩ | ⟨_, z, ofY, rfl, alikeYZ⟩
  · rw [totalOrder_of_rank_zero (by omega) absentC] at third
    cases third
  cases ofY
  cases x with
  | sequence xs => exact outOfOrder_of_containers rfl alikeXY alikeYZ first second third
  | map xs => exact outOfOrder_of_containers rfl alikeXY alikeYZ first second third
  | null =>
      cases z with
      | null => cases third
      | _ => cases alikeXY.trans alikeYZ
  | bool p =>
      cases y with
      | bool q =>
          cases z with
          | bool r =>
              rw [totalOrder_bool] at first second third
              exact absurd third (Ordering.isLE_iff_ne_gt.mp (Std.TransCmp.isLE_trans first second))
          | _ => cases alikeYZ
      | _ => cases alikeXY
  | number m =>
      cases y with
      | number n =>
          cases z with
          | number k =>
              rw [totalOrder_number] at first second third
              obtain ⟨i, x, j, rfl, rfl, rfl, less, ofFirst, ofLast⟩ :=
                Number.rounded_of_gt first second third
              exact .rounded less ofFirst ofLast
          | _ => cases alikeYZ
      | _ => cases alikeXY
  | string s =>
      cases y with
      | string t =>
          cases z with
          | string u =>
              rw [totalOrder_string] at first second third
              exact absurd third (Ordering.isLE_iff_ne_gt.mp (Std.TransCmp.isLE_trans first second))
          | _ => cases alikeYZ
      | _ => cases alikeXY

/-- The order turns round with its values. It is transitive for three of them exactly when they are
not out of order, and then values that are equal to one value are equal. -/
theorem totalOrder_trans_iff_not_outOfOrder (wellA : ∀ x ∈ a, x.WellFormed)
    (wellB : ∀ y ∈ b, y.WellFormed) (wellC : ∀ z ∈ c, z.WellFormed) :
    totalOrder b a = (totalOrder a b).swap ∧
      (((totalOrder a b).isLE = true → (totalOrder b c).isLE = true →
          (totalOrder a c).isLE = true) ↔ ¬ OutOfOrder a b c) ∧
      (¬ OutOfOrder a b c → ¬ OutOfOrder c b a → totalOrder a b = .eq → totalOrder b c = .eq →
        totalOrder a c = .eq) := by
  refine ⟨totalOrder_swap wellA wellB, ⟨?_, ?_⟩, ?_⟩
  · intro transitive out
    obtain ⟨first, second, third⟩ := gt_of_outOfOrder out wellA wellB wellC
    exact Ordering.isLE_iff_ne_gt.mp (transitive first second) third
  · intro inOrder first second
    exact Ordering.isLE_iff_ne_gt.mpr fun third => inOrder (outOfOrder_of_gt first second third)
  · intro inOrder turned first second
    cases third : totalOrder a c with
    | eq => rfl
    | gt =>
        exact absurd (outOfOrder_of_gt (Ordering.isLE_of_eq_eq first)
          (Ordering.isLE_of_eq_eq second) third) inOrder
    | lt =>
        refine absurd (outOfOrder_of_gt ?_ ?_ ?_) turned
        · rw [totalOrder_swap wellB wellC, second]
          rfl
        · rw [totalOrder_swap wellA wellB, first]
          rfl
        · rw [totalOrder_swap wellA wellC, third]
          rfl

def one : Value := .number (.int .one)

def two : Value := .number (.int ⟨2, by decide, by decide⟩)

/-- The least whole number above zero that is not a binary64 number, and its neighbour. -/
def unrounded : WideInt := ⟨9007199254740993, by decide, by decide⟩

def rounded : WideInt := ⟨9007199254740992, by decide, by decide⟩

theorem respelled_map_is_out_of_order :
    (Value.map [("b", two), ("a", one)]).WellFormed ∧
      (Value.map [("a", one), ("b", two)]).WellFormed ∧ (Value.map [("a", two)]).WellFormed ∧
      OutOfOrder (some (.map [("b", two), ("a", one)])) (some (.map [("a", one), ("b", two)]))
        (some (.map [("a", two)])) := by
  have first : (Value.map [("b", two), ("a", one)]).WellFormed := ⟨by decide, trivial, trivial, trivial⟩
  have second : (Value.map [("a", one), ("b", two)]).WellFormed := ⟨by decide, trivial, trivial, trivial⟩
  have third : (Value.map [("a", two)]).WellFormed := ⟨by decide, trivial, trivial⟩
  refine ⟨first, second, third, by_contra fun inOrder => ?_⟩
  have transitive := (totalOrder_trans_iff_not_outOfOrder (fun _ is => Option.some.inj is ▸ first)
    (fun _ is => Option.some.inj is ▸ second) (fun _ is => Option.some.inj is ▸ third)).2.1.mpr inOrder
  exact absurd (transitive (by decide) (by decide)) (by decide)

theorem totalOrder_not_transitive :
    (totalOrder (some (.number (.int unrounded))) (some (.number (.float rounded.toBinary64))) = .eq ∧
      totalOrder (some (.number (.float rounded.toBinary64))) (some (.number (.int rounded))) = .eq ∧
      totalOrder (some (.number (.int unrounded))) (some (.number (.int rounded))) = .gt) ∧
    totalOrder (some (.map [("b", two), ("a", one)])) (some (.map [("a", one), ("b", two)])) = .eq ∧
      totalOrder (some (.map [("a", one), ("b", two)])) (some (.map [("a", two)])) = .lt ∧
      totalOrder (some (.map [("b", two), ("a", one)])) (some (.map [("a", two)])) = .gt := by
  decide +kernel

end DataAccess.Value
